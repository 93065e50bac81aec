import FleetEstimate.Experiment.Replay
import FleetEstimate.Proofs.Wire.Streams
import FleetEstimate.Proofs.Worker.Service
import FleetEstimate.Proofs.Worker.Turns
import FleetEstimate.Rehearsal.Ensemble

/-!
# Conversations of a worker

A worker whose replies can be written serves every request that comes in order. The system
and the time that its session holds are those that the turns so far tell, so that it replies
what these turns say, and nothing else.
-/

namespace FleetEstimate

variable {ω E : Type} {ending : Ending} {g b : Bytes}

/-! ## Exchanges of a session -/

namespace Session

variable {ρ α : Type} [Remote ω ρ] {Rest : ρ → Bytes → Prop} {s : Session ρ E} {w : ω}

omit [Remote ω ρ] in
theorem meets_onLink_of {act : LinkM ω ρ α} {r : Except Halt α} {l : Link ρ} {w' : ω}
    (hm : Meets act s.link w r l w') :
    Meets (onLink act : SessionM ω ρ E α) s w r { s with link := l } w' :=
  meets_onLink.2 ⟨l, hm, rfl⟩

omit [Remote ω ρ] in
/-- A message that has come whole is received. -/
theorem meets_reads {act : LinkM ω ρ α} {c : Bytes} {a : α} (hreads : Reads Rest ending act c a)
    (hoffers : Link.Offers Rest s.link (c ++ b)) :
    ∃ l, Meets (onLink act : SessionM ω ρ E α) s w (.ok a) { s with link := l } w ∧
      Link.Offers Rest l b := by
  rcases hreads.whole (w := w) hoffers with ⟨l, hm, hoffers'⟩
  exact ⟨l, meets_onLink_of hm, hoffers'⟩

end Session

namespace Session

variable {s : Session Stream E} {w : ω}

/-- A reply is sent, and the request is served. -/
theorem meets_sends {act : LinkM ω Stream Unit} {c : Bytes} (hsends : Sends act c)
    (hoffers : Link.Offers (Stream.Says ending g) s.link b) :
    ∃ l, Meets (do onLink act; return true : SessionM ω Stream E Bool) s w (.ok true)
        { s with link := l } w ∧
      Link.Offers (Stream.Says ending (g ++ c)) l b := by
  rcases hsends.writes (w := w) hoffers with ⟨l, hm, hoffers'⟩
  refine ⟨l, ?_, hoffers'⟩
  rw [meets_bind_of_ok (meets_onLink_of hm)]
  exact meets_pure.2 ⟨rfl, rfl, rfl⟩

variable [Experiment E] [WorkerWorld ω] {length : Nanoseconds}

theorem find_work : (calls length : Registry (SessionM ω Stream E Unit)).find workCall =
    .ok (work length) :=
  Registry.find_register_self _ _ _

theorem find_receiveParameter :
    (calls length : Registry (SessionM ω Stream E Unit)).find receiveParameterCall =
      .ok receiveParameter := by
  unfold calls
  rw [Registry.find_register_ne _ _ Request.calls_ne.2.1.symm, Registry.find_register_self]

theorem find_receiveSystem :
    (calls length : Registry (SessionM ω Stream E Unit)).find receiveSystemCall =
      .ok receiveSystem := by
  unfold calls
  rw [Registry.find_register_ne _ _ Request.calls_ne.1.symm,
    Registry.find_register_ne _ _ Request.calls_ne.2.2, Registry.find_register_self]

/-- Sampling adds up the next samples. -/
theorem sampleTimes_eq (n : ℕ) (e : E) (t : Totals Real64) :
    sampleTimes n e t = (t.accumulateAll n e).map fun t' => (t', Experiment.skip n e) := by
  induction n generalizing e t with
  | zero => rfl
  | succ n ih =>
    rw [sampleTimes, Totals.accumulateAll_succ]
    cases hacc : t.accumulate (Experiment.sample e).1 with
    | error f => simp only [hacc]; rfl
    | ok t' =>
      simp only [hacc]
      exact ih _ _

/-- A session holds what its turns so far tell: the system, and the time not told yet. -/
structure Stands (s : Session Stream E) (past : List Turn) : Prop where
  system : s.system = (standing past).map fun (text, e) => (e, Digest.of (Text.toBytes text))
  busy : s.busy = (untold past).sum

theorem Stands.system_eq {past : List Turn} (h : s.Stands past) {text : String} {e : E}
    (hstanding : standing past = some (text, e)) :
    s.system = some (e, Digest.of (Text.toBytes text)) := by
  rw [h.system, hstanding]
  rfl

theorem Stands.isSome {past : List Turn} (h : s.Stands past) :
    s.system.isSome = (standing (E := E) past).isSome := by
  rw [h.system, Option.isSome_map]

theorem stands_new (x : Stream) : (new x : Session Stream E).Stands [] := ⟨rfl, rfl⟩

end Session

/-! ## One request -/

namespace Worker

open Session

variable [Experiment E] [WorkerWorld ω] {c : WorkerConfig} {s : Session Stream E} {w w' : ω}
variable {past : List Turn} {ready : Bool}

/-- A request has been served as the turn `t` says, after the turns `past`. -/
inductive Served (c : WorkerConfig) (past : List Turn) (ending : Ending) (g b : Bytes) (t : Turn)
    (s' : Session Stream E) : Prop
  | intro {bytes} (reply : t.Reply E c past bytes)
      (offers : Link.Offers (Stream.Says ending (g ++ bytes)) s'.link b)
      (stands : s'.Stands (t :: past)) : Served c past ending g b t s'

theorem served_name (hsize : c.name.utf8ByteSize ≤ maxPayload) (hstands : s.Stands past)
    (hoffers : Link.Offers (Stream.Says ending g) s.link b) :
    ∃ s', Meets (answer c .getName) s w (.ok true) s' w ∧ Served c past ending g b .name s' := by
  rcases meets_sends (w := w) (Link.sends_sendText hsize) hoffers with ⟨l, hm, hoffers'⟩
  exact ⟨_, hm, .intro .name hoffers' ⟨hstands.system, hstands.busy⟩⟩

theorem served_busyTime (hstands : s.Stands past)
    (hoffers : Link.Offers (Stream.Says ending g) s.link b) :
    ∃ s', Meets (answer c .getCpuTime) s w (.ok true) s' w ∧
      Served c past ending g b .busyTime s' := by
  have hsends := Link.sends_sendReal (ω := ω) (ρ := Stream) s.busy.seconds
  rcases meets_sends (s := { s with busy := 0 }) (w := w) hsends hoffers with ⟨l, hm, hoffers'⟩
  rw [hstands.busy] at hoffers'
  refine ⟨{ s with link := l, busy := 0 }, ?_, .intro .busyTime hoffers' ⟨hstands.system, rfl⟩⟩
  unfold answer
  rw [meets_getState_bind, meets_modifyState_bind]
  exact hm

/-- A call is looked up by its name and performed. -/
theorem meets_answer_work {name : String} {call : SessionM ω Stream E Unit}
    (hsize : name.utf8ByteSize ≤ maxPayload) (hfind : (calls c.workUnit).find name = .ok call)
    (hoffers : Link.Offers (Stream.Says ending g) s.link (Text.frame name ++ b)) :
    ∃ l, Link.Offers (Stream.Says ending g) l b ∧
      ∀ r s' w', Meets (answer c .work) s w r s' w' ↔
        Meets (do call; return true) { s with link := l } w r s' w' := by
  have hreads := Link.reads_recvText (Stream.supplies ω ending g) hsize
  rcases meets_reads (s := s) (w := w) hreads hoffers with ⟨l, hname, hoffers'⟩
  refine ⟨l, hoffers', fun r s' w' => ?_⟩
  unfold answer
  rw [meets_bind_of_ok hname, hfind]

theorem meets_call {name : String} {call : SessionM ω Stream E Unit}
    (hsize : name.utf8ByteSize ≤ maxPayload) (hfind : (calls c.workUnit).find name = .ok call)
    (hoffers : Link.Offers (Stream.Says ending g) s.link (Text.frame name ++ b)) :
    ∃ l, Link.Offers (Stream.Says ending g) l b ∧
      ∀ s' w', Meets call { s with link := l } w (.ok ()) s' w' →
        Meets (answer c .work) s w (.ok true) s' w' := by
  rcases meets_answer_work (c := c) (w := w) hsize hfind hoffers with ⟨l, hoffers', hanswer⟩
  refine ⟨l, hoffers', fun s' w' hcall => (hanswer _ _ _).2 ?_⟩
  rw [meets_bind_of_ok hcall]
  exact meets_pure.2 ⟨rfl, rfl, rfl⟩

theorem served_system {text : String} {e : E} (hsize : text.utf8ByteSize ≤ maxPayload)
    (htext : Experiment.ofText text = .ok e) (hstands : s.Stands past)
    (hoffers : Link.Offers (Stream.Says ending g) s.link
      (Text.frame receiveSystemCall ++ (Text.frame text ++ b))) :
    ∃ s', Meets (answer c .work) s w (.ok true) s' w ∧
      Served c past ending g b (.system text) s' := by
  rcases meets_call (w := w) Request.size_calls.2.1 find_receiveSystem hoffers with
    ⟨l, hoffers₁, hcall⟩
  have hreads := Link.reads_recvText (Stream.supplies ω ending g) hsize
  rcases meets_reads (s := { s with link := l }) (w := w) hreads hoffers₁ with
    ⟨l', hread, hoffers'⟩
  -- the digest is that of the text as it was received
  let s' : Session Stream E := { s with link := l', system := some (e, .of (Text.toBytes text)) }
  refine ⟨s', hcall s' w ?_, .intro .system ?_ ⟨?_, hstands.busy⟩⟩
  · unfold receiveSystem
    rw [meets_bind_of_ok hread, htext]
    exact meets_modifyState.2 ⟨rfl, rfl, rfl⟩
  · rw [List.append_nil]
    exact hoffers'
  · rw [standing, htext]
    rfl

theorem served_parameter {value : Real64} {seed : UInt64} {text : String} {e : E}
    (hstanding : standing past = some (text, e)) (hseed : WorkerWorld.freshSeed w = (seed, w'))
    (hstands : s.Stands past)
    (hoffers : Link.Offers (Stream.Says ending g) s.link
      (Text.frame receiveParameterCall ++ (value.toBytes ++ b))) :
    ∃ s', Meets (answer c .work) s w (.ok true) s' w' ∧
      Served c past ending g b (.parameter seed value) s' := by
  rcases meets_call (w := w) Request.size_calls.2.2 find_receiveParameter hoffers with
    ⟨l, hoffers₁, hcall⟩
  have hreads := Link.reads_recvReal (Stream.supplies ω ending g) value
  have hsystem := hstands.system_eq hstanding
  -- the system is reseeded before its parameter is read
  rcases meets_reads (s := { s with
    link := l, system := some (Experiment.seed seed e, .of (Text.toBytes text)) }) (w := w')
    hreads hoffers₁ with ⟨l', hread, hoffers'⟩
  let s' : Session Stream E := { s with
    link := l'
    system := some (Experiment.setParameter value (Experiment.seed seed e),
      .of (Text.toBytes text)) }
  refine ⟨s', hcall s' w' ?_, .intro .parameter ?_ ⟨?_, hstands.busy⟩⟩
  · unfold receiveParameter
    rw [meets_getState_bind]
    simp only [hsystem]
    rw [meets_getWorld_bind, hseed]
    dsimp only
    rw [meets_setWorld_bind, meets_modifyState_bind, meets_bind_of_ok hread]
    exact meets_modifyState.2 ⟨rfl, rfl, rfl⟩
  · rw [List.append_nil]
    exact hoffers'
  · rw [standing, hstanding]
    rfl

/-- A work unit of a system whose samples can be counted comes to sending their totals. -/
theorem meets_work_of_ok {length : Nanoseconds} {span : WorkSpan} {e : E} {digest : Digest}
    {t : Totals Real64} (hsystem : s.system = some (e, digest))
    (hspan : WorkerWorld.span length w = (span, w'))
    (htotals : (Totals.zero (Experiment.count e)).accumulateAll (span.drawn length) e = .ok t)
    {r : Except Halt Unit} {s' : Session Stream E} {v : ω} :
    Meets (work length) s w r s' v ↔
      Meets (onLink (WorkResult.send (.new digest
          (Experiment.parameter (Experiment.skip (span.drawn length) e)) t)))
        { s with system := some (Experiment.skip (span.drawn length) e, digest)
                 busy := s.busy + span.spent } w' r s' v := by
  have hdraws : (if length = 0 then 1 else span.further + 1) = span.drawn length := rfl
  unfold work
  rw [meets_getState_bind]
  simp only [hsystem]
  rw [meets_getWorld_bind, hspan]
  dsimp only
  rw [meets_setWorld_bind, hdraws, sampleTimes_eq, htotals]
  -- the busy time is noted before the totals are sent
  dsimp only [Except.map]
  rw [meets_modifyState_bind]

/-- A work unit of a system whose samples cannot be counted sends nothing. -/
theorem meets_work_of_error {length : Nanoseconds} {span : WorkSpan} {e : E} {digest : Digest}
    {fault : TotalsFault} (hsystem : s.system = some (e, digest))
    (hspan : WorkerWorld.span length w = (span, w'))
    (htotals : (Totals.zero (Experiment.count e)).accumulateAll (span.drawn length) e =
      .error fault) :
    Meets (work length) s w (.error (.failed (.carrying .other (.text fault.message)))) s w' := by
  have hdraws : (if length = 0 then 1 else span.further + 1) = span.drawn length := rfl
  unfold work
  rw [meets_getState_bind]
  simp only [hsystem]
  rw [meets_getWorld_bind, hspan]
  dsimp only
  rw [meets_setWorld_bind, hdraws, sampleTimes_eq, htotals]
  -- nothing was changed yet, but for the stretch of time that was taken from the world
  exact meets_throw.2 ⟨rfl, rfl, rfl⟩

theorem served_work {span : WorkSpan} {text : String} {e : E}
    (hstanding : standing past = some (text, e))
    (hspan : WorkerWorld.span c.workUnit w = (span, w'))
    (hfits : (Turn.work (span.drawn c.workUnit) span.spent).Fits E c past) (hstands : s.Stands past)
    (hoffers : Link.Offers (Stream.Says ending g) s.link (Text.frame workCall ++ b)) :
    ∃ s', Meets (answer c .work) s w (.ok true) s' w' ∧
      Served c past ending g b (.work (span.drawn c.workUnit) span.spent) s' := by
  rcases meets_call (w := w) Request.size_calls.1 find_work hoffers with ⟨l, hoffers₁, hcall⟩
  have hsystem := hstands.system_eq hstanding
  rcases hfits with ⟨hdrawn, hsize⟩
  -- the samples of one work unit can be counted from zero on
  have hcount : (Totals.zero (Experiment.count e) : Totals Real64).samples.toNat +
      span.drawn c.workUnit < UInt64.size := by
    change 0 + span.drawn c.workUnit < UInt64.size
    omega
  rcases Totals.accumulateAll_eq_ok (Totals.fits_zero _) hcount with
    ⟨t, htotals, ht, hsamples⟩
  let e' := Experiment.skip (span.drawn c.workUnit) e
  let r := WorkResult.new (.of (Text.toBytes text)) (Experiment.parameter e') t
  have hfit := hsize text e hstanding
  -- what is too long for a message would not be sent
  have htravels : r.Travels := by
    refine ⟨Digest.size_toHex _, ?_, ?_⟩
    · change 8 * t.sum.length ≤ _
      rw [ht.1]
      exact hfit
    · change 8 * t.sumSq.length ≤ _
      rw [ht.2]
      exact hfit
  let s₁ : Session Stream E := { s with
    link := l
    system := some (e', .of (Text.toBytes text))
    busy := s.busy + span.spent }
  rcases (WorkResult.sends_send htravels).writes (w := w') (l := s₁.link) hoffers₁ with
    ⟨l', hsend, hoffers'⟩
  -- the reply says what the turn is to say
  have hworked : Worked text e past (span.drawn c.workUnit) r := by
    refine ⟨rfl, rfl, ?_, span.drawn_pos c.workUnit, ?_, htotals⟩
    · intro hkeeps e₀ he₀
      have hparameter := hkeeps.standing hstanding he₀
      rw [← hparameter]
      exact hkeeps.skip _ _
    · exact hsamples.trans (Nat.zero_add _)
  refine ⟨{ s₁ with link := l' }, hcall _ w' ?_, .intro (.work hstanding hworked) hoffers' ⟨?_, ?_⟩⟩
  · rw [meets_work_of_ok (s := { s with link := l }) hsystem hspan htotals]
    exact meets_onLink_of (s := s₁) hsend
  · rw [standing, hstanding]
    rfl
  · -- the time of this unit waits to be told
    rw [untold, List.sum_append, List.sum_singleton, ← hstands.busy]

/-- Every request that comes in order is served as its turn says. -/
theorem served_request {q : Request} {t : Turn} (hserved : q.Served E ready)
    (hready : (standing (E := E) past).isSome = ready) (hturn : Turn.of c.workUnit q w = some (t, w'))
    (hfits : t.Fits E c past) (hstands : s.Stands past)
    (hoffers : Link.Offers (Stream.Says ending g) s.link (q.body ++ b)) :
    ∃ s', Meets (answer c q.tag) s w (.ok true) s' w' ∧ Served c past ending g b t s' := by
  cases q with
  | name =>
    cases hturn
    exact served_name hfits hstands hoffers
  | busyTime =>
    cases hturn
    exact served_busyTime hstands hoffers
  | system text =>
    cases hturn
    rcases hserved with ⟨hsize, e, he⟩
    rw [Request.body, List.append_assoc] at hoffers
    exact served_system hsize he hstands hoffers
  | parameter value =>
    rcases hseed : WorkerWorld.freshSeed w with ⟨seed, w₁⟩
    rw [Turn.of, hseed] at hturn
    cases hturn
    -- a parameter only comes behind a system
    have hsome : (standing (E := E) past).isSome := hready.trans hserved
    rcases Option.isSome_iff_exists.1 hsome with ⟨⟨text, e⟩, hstanding⟩
    rw [Request.body, List.append_assoc] at hoffers
    exact served_parameter hstanding hseed hstands hoffers
  | work =>
    rcases hspan : WorkerWorld.span c.workUnit w with ⟨span, w₁⟩
    rw [Turn.of, hspan] at hturn
    cases hturn
    have hsome : (standing (E := E) past).isSome := hready.trans hserved
    rcases Option.isSome_iff_exists.1 hsome with ⟨⟨text, e⟩, hstanding⟩
    exact served_work hstanding hspan hfits hstands hoffers
  -- these two end a service, they are not part of one
  | die => exact hserved.elim
  | other call => exact hserved.elim

/-- A tag is read before the request is answered. -/
theorem serveOne_eq {tag : Tag} (hoffers : Link.Offers (Stream.Says ending g) s.link (tag.toBytes ++ b)) :
    ∃ l, Link.Offers (Stream.Says ending g) l b ∧
      serveOne c s w = match perform (answer c tag) { s with link := l } w with
        | (.error .stalled, _, _) => (.stalled, s, w)
        | (.error (.failed e), s', w') => (.ends (.error (.ofLink e)), s', w')
        | (.ok true, s', w') => (.goesOn, s', w')
        | (.ok false, s', w') => (.ends (.ok ()), s', w') := by
  have hreads := Link.reads_recvTag (Stream.supplies ω ending g) tag
  rcases meets_reads (s := s) (w := w) hreads hoffers with ⟨l, hread, hoffers'⟩
  refine ⟨l, hoffers', ?_⟩
  unfold serveOne
  rw [perform_eq_iff.2 hread]
  dsimp only
  -- both sides go by the outcome of the answer
  rcases perform (answer c tag) { s with link := l } w with ⟨(_ | _) | _ | _, s₁, w₁⟩ <;> rfl

theorem served_one {q : Request} {t : Turn} (hserved : q.Served E ready)
    (hready : (standing (E := E) past).isSome = ready) (hturn : Turn.of c.workUnit q w = some (t, w'))
    (hfits : t.Fits E c past) (hstands : s.Stands past)
    (hoffers : Link.Offers (Stream.Says ending g) s.link (q.encode ++ b)) :
    ∃ s', serveOne c s w = (.goesOn, s', w') ∧ Served c past ending g b t s' := by
  rw [Request.encode, List.append_assoc] at hoffers
  rcases serveOne_eq (c := c) (w := w) hoffers with ⟨l, hoffers₁, hone⟩
  have hstands₁ : Session.Stands { s with link := l } past := ⟨hstands.system, hstands.busy⟩
  rcases served_request hserved hready hturn hfits hstands₁ hoffers₁ with ⟨s', hanswer, hdone⟩
  rw [perform_eq_iff.2 hanswer] at hone
  exact ⟨s', hone, hdone⟩

/-! ## Requests one after the other -/

/-- A request that comes in order comes to a turn, after which the session has a system if the
request leaves one. -/
theorem turn_of_served {q : Request} (hserved : q.Served E ready)
    (hready : (standing (E := E) past).isSome = ready) :
    ∃ t w', Turn.of c.workUnit q w = some (t, w') ∧
      (standing (E := E) (t :: past)).isSome = q.readies ready := by
  cases q with
  | name => exact ⟨.name, w, rfl, hready⟩
  | busyTime => exact ⟨.busyTime, w, rfl, hready⟩
  | system text =>
    rcases hserved with ⟨-, e, he⟩
    refine ⟨.system text, w, rfl, ?_⟩
    rw [standing, he]
    rfl
  | parameter value =>
    refine ⟨_, _, rfl, ?_⟩
    -- a new parameter leaves the system where it is
    rw [standing, Option.isSome_map]
    exact hready
  | work =>
    refine ⟨_, _, rfl, ?_⟩
    rw [standing, Option.isSome_map]
    exact hready
  | die => exact hserved.elim
  | other call => exact hserved.elim

/-- Requests that come in order are served one after the other, as their turns say. -/
theorem served_course {qs : List Request} {ts : List Turn} (horder : InOrder E ready qs)
    (hready : (standing (E := E) past).isSome = ready) (hcourse : course c.workUnit qs w = (ts, w'))
    (hfits : AllFit E c past ts) (hstands : s.Stands past)
    (hoffers : Link.Offers (Stream.Says ending g) s.link (qs.flatMap Request.encode ++ b)) :
    ∃ s' replies, Replied E c past ts replies ∧
      Link.Offers (Stream.Says ending (g ++ replies.flatten)) s'.link b ∧
      s'.Stands (ts.reverse ++ past) ∧
      ∀ more, serve c (qs.length + more) s w = serve c more s' w' := by
  -- each request is served in the session that the one before it has left
  induction qs generalizing ready past ts s w g with
  | nil =>
    cases hcourse
    refine ⟨s, [], .nil, ?_, hstands, fun more => ?_⟩
    · rw [List.flatten_nil, List.append_nil]
      exact hoffers
    · rw [List.length_nil, Nat.zero_add]
  | cons q qs ih =>
    rcases horder with ⟨hserved, horder⟩
    rcases turn_of_served (c := c) (w := w) hserved hready with ⟨t, w₁, hturn, hready₁⟩
    rcases hrest : course c.workUnit qs w₁ with ⟨ts₁, w₂⟩
    rw [course, hturn] at hcourse
    simp only [hrest] at hcourse
    cases hcourse
    rcases hfits with ⟨hfit, hfits⟩
    rw [List.flatMap_cons, List.append_assoc] at hoffers
    -- one request, and then the others by induction
    rcases served_one hserved hready hturn hfit hstands hoffers with ⟨s₁, hone, hdone⟩
    cases hdone with
    | @intro bytes reply offers stands =>
      rcases ih horder hready₁ hrest hfits stands offers with
        ⟨s', replies, hreplied, hoffers', hstands', hserve⟩
      refine ⟨s', bytes :: replies, .cons reply hreplied, ?_, ?_, fun more => ?_⟩
      · rw [List.flatten_cons, ← List.append_assoc]
        exact hoffers'
      · rw [List.reverse_cons, List.append_assoc]
        exact hstands'
      · -- one service more than for the others
        rw [List.length_cons, Nat.succ_add, serve, hone]
        exact hserve more

/-! ## The end of the service -/

/-- What a coordinator may say behind its last request: the tag that ends the service, and then
anything, or not even a whole tag. -/
def EndsService (rest : Bytes) : Prop := Tag.die.toBytes <+: rest ∨ rest.length < 4

omit [Experiment E] [WorkerWorld ω] in
theorem perform_recvTag_cut {rest : Bytes} (hrest : rest.length < 4)
    (hoffers : Link.Offers (Stream.Says ending g) s.link rest) :
    ∃ l, Link.Offers (Stream.Says ending g) l [] ∧
      perform (onLink Link.recvTag) s w = (.error ending.halt, { s with link := l }, w) := by
  rcases meets_receive_of_lt (w := w) (Stream.supplies ω ending g) hoffers hrest with
    ⟨l, hm, hoffers'⟩
  refine ⟨l, hoffers', perform_eq_iff.2 (meets_onLink_of ?_)⟩
  exact meets_bind_of_error hm

/-- The tag that ends the service ends it well, whatever comes behind it. -/
theorem serveOne_die {rest : Bytes}
    (hoffers : Link.Offers (Stream.Says ending g) s.link (Tag.die.toBytes ++ rest)) :
    ∃ s', serveOne c s w = (.ends (.ok ()), s', w) ∧
      Link.Offers (Stream.Says ending g) s'.link rest := by
  rcases serveOne_eq (c := c) (w := w) hoffers with ⟨l, hoffers', hone⟩
  exact ⟨{ s with link := l }, hone, hoffers'⟩

theorem serveOne_endsService {rest : Bytes} (hends : EndsService rest)
    (hoffers : Link.Offers (Stream.Says .closed g) s.link rest) :
    ∃ s' rest', serveOne c s w = (.ends (.ok ()), s', w) ∧
      Link.Offers (Stream.Says .closed g) s'.link rest' := by
  rcases hends with ⟨rest', rfl⟩ | hshort
  · rcases serveOne_die (c := c) (w := w) hoffers with ⟨s', hone, hoffers'⟩
    exact ⟨s', rest', hone, hoffers'⟩
  · rcases perform_recvTag_cut (w := w) hshort hoffers with ⟨l, hoffers', hread⟩
    refine ⟨{ s with link := l }, [], ?_, hoffers'⟩
    unfold serveOne
    rw [hread]
    rfl

/-- A worker serves the requests that come in order, and then the end of its service. -/
theorem serve_course {qs : List Request} {rest : Bytes} {ts : List Turn} {n : ℕ}
    (horder : InOrder E ready qs) (hready : (standing (E := E) past).isSome = ready)
    (hcourse : course c.workUnit qs w = (ts, w')) (hfits : AllFit E c past ts)
    (hrest : EndsService rest) (hstands : s.Stands past)
    (hoffers : Link.Offers (Stream.Says .closed g) s.link (qs.flatMap Request.encode ++ rest))
    (hn : qs.length < n) :
    ∃ s' replies rest', serve c n s w = (.ends (.ok ()), s', w') ∧ Replied E c past ts replies ∧
      Link.Offers (Stream.Says .closed (g ++ replies.flatten)) s'.link rest' := by
  rcases served_course horder hready hcourse hfits hstands hoffers with
    ⟨s₁, replies, hreplied, hoffers₁, -, hserve⟩
  rcases serveOne_endsService (c := c) (w := w') hrest hoffers₁ with ⟨s', rest', hone, hoffers'⟩
  refine ⟨s', replies, rest', ?_, hreplied, hoffers'⟩
  -- there is at least one service left for the end
  obtain ⟨m, rfl⟩ : ∃ m, n = qs.length + (m + 1) := ⟨n - qs.length - 1, by omega⟩
  rw [hserve, serve, hone]

/-- A worker that is sent requests in order, and then nothing that is a request, writes one
reply for each of them, as its turn says, and ends well. Every work unit's time is told in one
later reply, or in none if nobody asks. The parameter in the reply to a work unit is that of the
sampled system. It is the one that was given last before, if the experiments keep what they are
set to (`KeepsParameter`, which `Worked.given` asks for). -/
theorem replies_of_course {x : Stream} {qs : List Request} {rest : Bytes} {ts : List Turn} {n : ℕ}
    (hsaid : x.incoming.flatten = qs.flatMap Request.encode ++ rest) (hclosed : x.ending = .closed)
    (htakes : x.maxWrite ≠ some 0 ∧ x.room = none) (horder : InOrder E false qs)
    (hrest : EndsService rest) (hcourse : course c.workUnit qs w = (ts, w'))
    (hfits : AllFit E c [] ts) (hn : qs.length < n) :
    ∃ s' replies, serve c n (Session.new x : Session Stream E) w = (.ends (.ok ()), s', w') ∧
      Replied E c [] ts replies ∧ s'.link.remote.output = x.output ++ replies.flatten ∧
      (told [] ts).flatten ++ untold ts.reverse = ts.flatMap Turn.spent := by
  have hoffers : Link.Offers (Stream.Says .closed x.output) (Session.new x : Session Stream E).link
      (qs.flatMap Request.encode ++ rest) := Link.offers_new ⟨hsaid, hclosed, rfl, htakes⟩
  rcases serve_course horder rfl hcourse hfits hrest (stands_new x) hoffers hn with
    ⟨s', replies, rest', hserve, hreplied, more, -, hstream⟩
  -- every time is told or still waits to be, and at the end of a session none is left out
  have htimes := told_untold [] ts
  rw [List.append_nil] at htimes
  exact ⟨s', replies, hserve, hreplied, hstream.written, htimes⟩

end Worker

theorem Replay.length_one : [(1 : Real64)].length = 1 := rfl

/-- A replay whose only row is the number one. -/
def Replay.ones : Replay := ⟨1, [⟨[1], length_one⟩], [⟨[1], length_one⟩], [], 0⟩

def Replay.onesText : String := "rows 3ff0000000000000"

theorem Replay.ofText_onesText :
    (Experiment.ofText onesText : Except LinkError Replay) = .ok ones := rfl

theorem Replay.keepsParameter : KeepsParameter Replay := ⟨fun _ _ => rfl, fun _ => rfl⟩

namespace Worker

open Replay (ones onesText ofText_onesText keepsParameter)

/-- One request of every kind. -/
def everyRequest : List Request := [.name, .system onesText, .parameter 1, .work, .busyTime]

def everyTurn : List Turn := [.name, .system onesText, .parameter 0 1, .work 1 0, .busyTime]

theorem allFit_everyTurn : AllFit Replay ⟨"w", 0⟩ [] everyTurn := by
  have hname : "w".utf8ByteSize ≤ maxPayload := by decide
  have hcount : 8 * 1 ≤ maxPayload := by decide
  refine ⟨hname, trivial, trivial, ⟨by decide, ?_⟩, trivial, trivial⟩
  intro text e hstanding
  rw [standing, standing, ofText_onesText] at hstanding
  cases hstanding
  exact hcount

/-- The reply to the work unit shows the parameter that was given before it. -/
theorem parameter_of_everyTurn {replies : List Bytes}
    (h : Replied Replay ⟨"w", 0⟩ [] everyTurn replies) :
    ∃ r : WorkResult, replies[3]? = some r.encode ∧ r.parameter = 1 := by
  -- the work unit is the fourth turn
  rcases h with _ | ⟨-, _ | ⟨-, _ | ⟨-, _ | ⟨hwork, -⟩⟩⟩⟩
  cases hwork with
  | @work _ _ text r e hstands hworked =>
    have htext : text = onesText := by
      rw [standing, standing, ofText_onesText] at hstands
      cases hstands
      rfl
    subst htext
    exact ⟨r, rfl, hworked.given keepsParameter ones ofText_onesText⟩

theorem replies_of_everyRequest :
    ∃ s' replies, serve ⟨"w", 0⟩ 6
        (Session.new (.ofPieces [everyRequest.flatMap Request.encode] .closed) :
          Session Stream Replay) (Ensemble.ofConfigs [] : Ensemble Replay) =
        (.ends (.ok ()), s', .ofConfigs []) ∧
      Replied Replay ⟨"w", 0⟩ [] everyTurn replies ∧
      s'.link.remote.output = [] ++ replies.flatten ∧
      (told [] everyTurn).flatten ++ untold everyTurn.reverse = everyTurn.flatMap Turn.spent ∧
      ∃ r : WorkResult, replies[3]? = some r.encode ∧ r.parameter = 1 := by
  have hsaid : (Stream.ofPieces [everyRequest.flatMap Request.encode] .closed).incoming.flatten =
      everyRequest.flatMap Request.encode ++ [] := rfl
  have horder : InOrder Replay false everyRequest :=
    ⟨trivial, ⟨by decide, ones, ofText_onesText⟩, rfl, rfl, trivial, trivial⟩
  have hcourse : course 0 everyRequest (Ensemble.ofConfigs [] : Ensemble Replay) =
      (everyTurn, .ofConfigs []) := rfl
  rcases replies_of_course (c := ⟨"w", 0⟩) (n := 6) hsaid rfl ⟨nofun, rfl⟩ horder
    (.inr (by decide)) hcourse allFit_everyTurn (by decide) with
    ⟨s', replies, hserve, hreplied, hwritten, htimes⟩
  exact ⟨s', replies, hserve, hreplied, hwritten, htimes, parameter_of_everyTurn hreplied⟩

end Worker

end FleetEstimate
