import FleetEstimate.Proofs.Worker.Agreement

/-!
# Workers at the far end of a link

A worker at the far end of a link serves a request as soon as the last of its bytes is sent. Until
then it waits for the rest, so that what it has done is told by the turns it has served and by the
part of a request that it has got.
-/

namespace FleetEstimate

variable {ω E : Type}

/-! ## Requests that are not complete -/

namespace Worker

open Session

variable {s : Session Stream E} {w : ω} {g b : Bytes}

/-- An action of a session waits for bytes that have not come. -/
def Stalls {α : Type} (act : SessionM ω Stream E α) (s : Session Stream E) (w : ω) : Prop :=
  ∃ s' w', Meets act s w (.error .stalled) s' w'

theorem stalls_bind {α β : Type} {act : SessionM ω Stream E α} {next : α → SessionM ω Stream E β}
    (h : Stalls act s w) : Stalls (act >>= next) s w := by
  rcases h with ⟨s', w', hm⟩
  exact ⟨s', w', meets_bind_of_error hm⟩

/-- A message of which only a part has come is waited for. -/
theorem stalls_reads {α : Type} {act : LinkM ω Stream α} {c : Bytes} {a : α}
    (hreads : Reads (Stream.Says .waiting g) .waiting act c a)
    (hoffers : Link.Offers (Stream.Says .waiting g) s.link b) (hbegins : b <+: c) (hne : b ≠ c) :
    Stalls (onLink act) s w := by
  rcases hreads.part (w := w) hoffers hbegins hne with ⟨l, hm, -⟩
  exact ⟨_, w, meets_onLink_of hm⟩

variable [Experiment E] [WorkerWorld ω] {c : WorkerConfig} {ready : Bool} {q : Request}

/-- A call waits for its name, and then for what it has to be given. -/
theorem stalls_call {name : String} {call : SessionM ω Stream E Unit} {arguments : Bytes}
    (hsize : name.utf8ByteSize ≤ maxPayload) (hfind : (calls c.workUnit).find name = .ok call)
    (hoffers : Link.Offers (Stream.Says .waiting g) s.link b)
    (hbegins : b <+: Text.frame name ++ arguments) (hne : b ≠ Text.frame name ++ arguments)
    (hcall : ∀ l b', Link.Offers (Stream.Says .waiting g) l b' → b' <+: arguments →
      b' ≠ arguments → Stalls call { s with link := l } w) :
    Stalls (answer c .work) s w := by
  rcases part_of_append hbegins hne with ⟨hname, hcut⟩ | ⟨b', rfl, hbegins', hne'⟩
  · have hreads := Link.reads_recvText (Stream.supplies ω .waiting g) hsize
    exact stalls_bind (stalls_reads hreads hoffers hname hcut)
  · rcases meets_answer_work (c := c) (w := w) hsize hfind hoffers with ⟨l, hoffers', hanswer⟩
    rcases stalls_bind (hcall l b' hoffers' hbegins' hne') with ⟨s', w', hm⟩
    exact ⟨s', w', (hanswer _ _ _).2 hm⟩

/-- A request of which only a part has come behind its tag is waited for. -/
theorem stalls_answer (hserved : q.Served E ready) (hready : s.system.isSome = ready)
    (hoffers : Link.Offers (Stream.Says .waiting g) s.link b) (hbegins : b <+: q.body)
    (hne : b ≠ q.body) : Stalls (answer c q.tag) s w := by
  cases q with
  | name => exact absurd (List.prefix_nil.1 hbegins) hne
  | busyTime => exact absurd (List.prefix_nil.1 hbegins) hne
  | system text =>
    refine stalls_call Request.size_calls.2.1 find_receiveSystem hoffers hbegins hne ?_
    intro l b' hoffers' hbegins' hne'
    have hreads := Link.reads_recvText (Stream.supplies ω .waiting g) hserved.1
    exact stalls_bind (stalls_reads hreads hoffers' hbegins' hne')
  | parameter value =>
    refine stalls_call Request.size_calls.2.2 find_receiveParameter hoffers hbegins hne ?_
    intro l b' hoffers' hbegins' hne'
    rcases Option.isSome_iff_exists.1 (hready.trans hserved) with ⟨⟨e, digest⟩, hsystem⟩
    have hreads := Link.reads_recvReal (Stream.supplies ω .waiting g) value
    -- the system is reseeded before the parameter is waited for
    rcases stalls_bind (stalls_reads (s := { s with
      link := l, system := some (Experiment.seed (WorkerWorld.freshSeed w).1 e, digest) })
      (w := (WorkerWorld.freshSeed w).2) hreads hoffers' hbegins' hne') with ⟨s', w', hm⟩
    refine ⟨s', w', ?_⟩
    unfold receiveParameter
    rw [meets_getState_bind, hsystem]
    dsimp only
    rw [meets_getWorld_bind, meets_setWorld_bind, meets_modifyState_bind]
    exact hm
  | work =>
    have hall : Request.work.body = Text.frame workCall ++ [] := (List.append_nil _).symm
    rw [hall] at hbegins hne
    refine stalls_call Request.size_calls.1 find_work hoffers hbegins hne ?_
    intro l b' _ hbegins' hne'
    exact absurd (List.prefix_nil.1 hbegins') hne'
  | die => exact hserved.elim
  | other call => exact hserved.elim

/-- A request of which only a part has come is waited for, and nothing changes. -/
theorem serveOne_of_part (hserved : q.Served E ready) (hready : s.system.isSome = ready)
    (hoffers : Link.Offers (Stream.Says .waiting g) s.link b) (hbegins : b <+: q.encode)
    (hne : b ≠ q.encode) : serveOne c s w = (.stalled, s, w) := by
  rcases part_of_append hbegins hne with ⟨htag, hcut⟩ | ⟨b', rfl, hbegins', hne'⟩
  · have hreads := Link.reads_recvTag (Stream.supplies ω .waiting g) q.tag
    rcases stalls_reads (s := s) (w := w) hreads hoffers htag hcut with ⟨s', w', hm⟩
    unfold serveOne
    rw [perform_eq_iff.2 hm]
  · rcases serveOne_eq (c := c) (w := w) hoffers with ⟨l, hoffers', hone⟩
    rcases stalls_answer (c := c) (s := { s with link := l }) (w := w) hserved hready hoffers'
      hbegins' hne' with ⟨s', w', hm⟩
    rw [hone, perform_eq_iff.2 hm]

end Worker

/-! ## Workers that go on -/

namespace Worker

variable [Experiment E] [WorkerWorld ω] {c : WorkerConfig} {s s' : Session Stream E} {w w' : ω}

/-- A worker that goes on writes nothing without bytes. -/
theorem solid_serve {n : ℕ} {past : List Turn} {service : Service} {b : Bytes}
    (hserve : serve c n s w = (service, s', w')) (hgoesOn : ∀ result, service ≠ .ends result)
    (hstands : s.Stands past) (hlog : Link.Logs (Stream.Log b) s.link [] [])
    (hsolid : s.link.remote.Solid) :
    s'.link.remote.Solid ∧ s'.link.remote.maxWrite = none ∧ s'.link.remote.room = none := by
  have hkeep := (Stream.keepsLog ω b).and (Stream.keepsSolid ω)
  have hholds : s.Holds ⟨(standing (E := E) past).map (·.1), none⟩ := by
    rw [Session.Holds, hstands.system, Option.map_map, Option.map_map]
    rfl
  have hserviced := serviced_serve hserve hkeep (fun _ _ _ h => h.1.isPrefix) ⟨hlog, hsolid⟩ hholds
  cases hserviced with
  | sofar replies log holds _ => exact ⟨log.2, log.1.unlimited⟩
  | ended => exact absurd rfl (hgoesOn _)

end Worker

/-! ## Workers in the same process -/

/-- A worker has served the turns `past`, has been given the bytes `part` of another request, and
the bytes `out` are on their way from it. -/
structure WorkerEnd.Attends (c : WorkerConfig) (past : List Turn) (part : Bytes) (e : WorkerEnd E)
    (out : Bytes) [Experiment E] : Prop where
  config : e.config = c
  serving : e.exit = none
  stands : e.session.Stands past
  given : Link.Offers (Stream.Says .waiting []) e.session.link part
  unlimited : e.session.link.remote.maxWrite = none ∧ e.session.link.remote.room = none
  written : e.session.link.remote.written = #[]
  replies : (e.arrived ++ e.underway).flatten = out
  solid : [] ∉ e.arrived ++ e.underway

namespace WorkerEnd

variable [Experiment E] {c : WorkerConfig} {past : List Turn} {part out : Bytes} {e : WorkerEnd E}

theorem attends_new (c : WorkerConfig) : (new c : WorkerEnd E).Attends c [] [] [] where
  config := rfl
  serving := rfl
  stands := Session.stands_new _
  given := ⟨[], rfl, Stream.says_ofPieces [] .waiting⟩
  unlimited := ⟨rfl, rfl⟩
  written := rfl
  replies := rfl
  solid := List.not_mem_nil

/-- Replies that arrive stay the same. -/
theorem Attends.deliver (h : e.Attends c past part out) (pieces : ℕ) :
    (e.deliver pieces).Attends c past part out := by
  have hsame : (e.deliver pieces).arrived ++ (e.deliver pieces).underway =
      e.arrived ++ e.underway := by
    unfold WorkerEnd.deliver
    rw [List.append_assoc, List.take_append_drop]
  refine ⟨h.config, h.serving, h.stands, h.given, h.unlimited, h.written, ?_, ?_⟩
  · rw [hsame]
    exact h.replies
  · rw [hsame]
    exact h.solid

/-- Taking the first piece of the replies leaves the others. -/
theorem Attends.took (h : e.Attends c past part out) {p : Bytes} {arrived underway : List Bytes}
    (hpieces : e.arrived ++ e.underway = p :: (arrived ++ underway)) :
    p ≠ [] ∧ out = p ++ (arrived ++ underway).flatten ∧
      { e with arrived, underway }.Attends c past part (arrived ++ underway).flatten := by
  have hreplies := h.replies
  have hsolid := h.solid
  rw [hpieces] at hreplies hsolid
  rw [List.mem_cons, not_or] at hsolid
  exact ⟨Ne.symm hsolid.1, hreplies.symm, h.config, h.serving, h.stands, h.given, h.unlimited,
    h.written, rfl, hsolid.2⟩

/-- Whoever reads from a worker reads its replies, and then waits. -/
theorem Attends.supplies (ω : Type) [WorkerWorld ω] (c : WorkerConfig) (past : List Turn)
    (part : Bytes) :
    Supplies ω (fun (e : WorkerEnd E) out => e.Attends c past part out) .waiting where
  piece {e out} w h hne := by
    rcases e with ⟨config, session, exit, underway, arrived⟩
    rcases arrived with _ | ⟨p, arrived⟩
    · rcases underway with _ | ⟨p, underway⟩
      · exact absurd h.replies.symm hne
      · have hpieces : [] ++ p :: underway = p :: ([] ++ underway) := rfl
        rcases h.took hpieces with ⟨hp, hout, hattends⟩
        exact ⟨p, _, _, hp, hout, rfl, hattends⟩
    · have hpieces : p :: arrived ++ underway = p :: (arrived ++ underway) := rfl
      rcases h.took hpieces with ⟨hp, hout, hattends⟩
      exact ⟨p, _, _, hp, hout, rfl, hattends⟩
  dry {e} w h := by
    rcases e with ⟨config, session, exit, underway, arrived⟩
    cases hpieces : arrived ++ underway with
    | nil =>
      rcases List.append_eq_nil_iff.1 hpieces with ⟨rfl, rfl⟩
      obtain rfl : exit = none := h.serving
      exact ⟨_, rfl, h⟩
    | cons p ps =>
      -- a piece would hold something
      rcases h.took (hpieces.trans (congrArg _ (List.nil_append ps).symm)) with ⟨hp, hout, -⟩
      exact absurd (List.append_eq_nil_iff.1 hout.symm).1 hp

theorem Attends.sent (h : e.Attends c past part out) (bytes : Bytes) :
    (e.sent bytes .waiting).Attends c past (part ++ bytes) out := by
  rcases h.given with ⟨rest, rfl, hspoken⟩
  refine ⟨h.config, h.serving, ⟨h.stands.system, h.stands.busy⟩,
    ⟨rest ++ bytes, List.append_assoc _ _ _, ?_⟩, h.unlimited, h.written, h.replies, h.solid⟩
  refine ⟨?_, rfl, hspoken.written, hspoken.takes⟩
  change (e.session.link.remote.incoming ++ [bytes]).flatten = _
  rw [List.flatten_append, hspoken.incoming, List.flatten_singleton]

variable [WorkerWorld ω] {w w' : ω} {q : Request} {ready : Bool}

/-- A part of a request is kept. -/
theorem Attends.run_of_part (h : e.Attends c past part out) (hserved : q.Served E ready)
    (hready : (standing (E := E) past).isSome = ready) (hbegins : part <+: q.encode)
    (hne : part ≠ q.encode) : e.run w = (e, w) := by
  have hone := Worker.serveOne_of_part (c := e.config) (w := w) hserved
    (h.stands.isSome.trans hready) h.given hbegins hne
  have hwritten := h.written
  unfold WorkerEnd.run
  rw [Worker.serve, hone]
  rcases e with ⟨config, ⟨⟨unread, stream⟩, system, busy⟩, exit, underway, arrived⟩
  dsimp only at hwritten ⊢
  rw [hwritten, List.append_nil, ← hwritten]

theorem Attends.backlog (h : e.Attends c past part out) : e.backlog = part.length := by
  rcases h.given with ⟨rest, rfl, hspoken⟩
  unfold WorkerEnd.backlog
  rw [List.length_append, hspoken.incoming]

/-- A session that is given nothing more waits. -/
theorem serve_of_nothing {n : ℕ} {s : Session Stream E} {g : Bytes}
    (hoffers : Link.Offers (Stream.Says .waiting g) s.link []) :
    Worker.serve c (n + 1) s w = (.stalled, s, w) := by
  have hone := Worker.serveOne_of_part (q := .name) (c := c) (w := w) trivial rfl hoffers
    List.nil_prefix (Request.encode_ne_nil _).symm
  rw [Worker.serve, hone]

/-- A request that is complete is served. -/
theorem Attends.run_of_whole {t : Turn} (h : e.Attends c past q.encode out)
    (hserved : q.Served E ready) (hready : (standing (E := E) past).isSome = ready)
    (hturn : Turn.of c.workUnit q w = some (t, w')) (hfits : t.Fits E c past) :
    ∃ e' reply, e.run w = (e', w') ∧ t.Reply E c past reply ∧
      e'.Attends c (t :: past) [] (out ++ reply) := by
  have hgiven := h.given
  rw [← List.append_nil q.encode] at hgiven
  rcases Worker.served_one hserved hready hturn hfits h.stands hgiven with ⟨s', hone, hdone⟩
  rcases hdone with ⟨hreply, hoffers, hstands⟩
  -- nothing is left behind the request
  obtain ⟨n, hn⟩ : ∃ n, e.backlog = n + 1 := by
    have hpos := List.length_pos_of_ne_nil q.encode_ne_nil
    rw [h.backlog]
    exact ⟨q.encode.length - 1, by omega⟩
  have hserve : Worker.serve c (e.backlog + 1) e.session w = (.stalled, s', w') := by
    rw [hn, Worker.serve, hone]
    exact serve_of_nothing hoffers
  rcases h.given with ⟨rest, hrest, hspoken⟩
  have hlog : Link.Logs (Stream.Log q.encode) e.session.link [] [] :=
    ⟨hspoken.written, by rw [hrest, hspoken.incoming]; rfl, h.unlimited⟩
  have hempty : e.session.link.remote.Solid := by
    unfold Stream.Solid
    rw [h.written]
    exact List.not_mem_nil
  have hgoesOn : ∀ result, Service.stalled ≠ .ends result := by
    intro result hends
    cases hends
  rcases Worker.solid_serve hserve hgoesOn h.stands hlog hempty with ⟨hsolid, hunlimited⟩
  rcases hoffers with ⟨rest', hrest', hspoken'⟩
  refine ⟨_, _, by unfold WorkerEnd.run; rw [h.config, hserve], hreply, ?_⟩
  refine ⟨rfl, h.serving, ⟨hstands.system, hstands.busy⟩, ⟨rest', hrest', ?_⟩, hunlimited, rfl,
    ?_, ?_⟩
  · exact ⟨hspoken'.incoming, hspoken'.ending, rfl, hspoken'.takes⟩
  · dsimp only
    rw [← List.append_assoc, List.flatten_append, h.replies]
    exact congrArg (out ++ ·) hspoken'.written
  · dsimp only
    rw [← List.append_assoc, List.mem_append]
    exact not_or.2 ⟨h.solid, hsolid⟩

theorem Attends.write_eq (h : e.Attends c past part out) (bytes : Bytes) :
    Remote.write bytes e w =
      (.ok bytes.length, ((e.sent bytes .waiting).run w).1, ((e.sent bytes .waiting).run w).2) := by
  change (if e.exit.isSome then _ else _) = _
  rw [h.serving]
  rfl

end WorkerEnd

/-! ## Requests over a link -/

/-- At the far end of a link is a worker that has served the turns `past`, and the bytes `out` can
be read from it. -/
def Link.Attended [Experiment E] (c : WorkerConfig) (past : List Turn) (l : Link (WorkerEnd E))
    (out : Bytes) : Prop :=
  Link.Offers (fun e out => e.Attends c past [] out) l out

section Requests

variable [Experiment E] [WorkerWorld ω] {c : WorkerConfig} {past : List Turn} {out : Bytes}
variable {l : Link (WorkerEnd E)} {w w' : ω} {q : Request} {t : Turn} {ready : Bool}

/-- A request that is written in some pieces is served once the last one is. -/
theorem meets_writeEach (hserved : q.Served E ready)
    (hready : (standing (E := E) past).isSome = ready)
    (hturn : Turn.of c.workUnit q w = some (t, w')) (hfits : t.Fits E c past) {ps : List Bytes}
    {part : Bytes} (hsolid : [] ∉ ps) (hne : part ≠ q.encode) (hall : part ++ ps.flatten = q.encode)
    (hoffers : Link.Offers (fun e out => e.Attends c past part out) l out) :
    ∃ l' reply, Meets (Link.writeEach ps) l w (.ok ()) l' w' ∧ t.Reply E c past reply ∧
      l'.Attended c (t :: past) (out ++ reply) := by
  -- piece by piece: until the last one the worker waits for more
  induction ps generalizing l part with
  | nil =>
    rw [List.flatten_nil, List.append_nil] at hall
    exact absurd hall hne
  | cons p ps ih =>
    rw [List.mem_cons, not_or] at hsolid
    rcases hoffers with ⟨rest, rfl, hattends⟩
    have hsent := hattends.sent p
    have hwrite := hattends.write_eq (w := w) p
    rw [List.flatten_cons, ← List.append_assoc] at hall
    cases ps with
    | nil =>
      rw [List.flatten_nil, List.append_nil] at hall
      rw [hall] at hsent
      rcases hsent.run_of_whole hserved hready hturn hfits with ⟨e', reply, hrun, hreply, hattends'⟩
      rw [hrun] at hwrite
      have hfirst := meets_writeAll (Ne.symm hsolid.1) hwrite
      refine ⟨_, reply, (meets_bind_of_ok hfirst).2 (meets_pure.2 ⟨rfl, rfl, rfl⟩), hreply, ?_⟩
      exact ⟨rest ++ reply, List.append_assoc _ _ _, hattends'⟩
    | cons p' ps =>
      -- the pieces behind this one are not empty, so this is not the end
      have hne' : part ++ p ≠ q.encode := by
        intro heq
        rw [heq, List.append_right_eq_self, List.flatten_cons, List.append_eq_nil_iff] at hall
        exact hsolid.2 (hall.1 ▸ List.mem_cons_self)
      rw [hsent.run_of_part hserved hready ⟨_, hall⟩ hne'] at hwrite
      have hfirst := meets_writeAll (Ne.symm hsolid.1) hwrite
      have hoffers : Link.Offers (fun e out => e.Attends c past (part ++ p) out)
          ⟨l.unread, l.remote.sent p .waiting⟩ (l.unread ++ rest) := ⟨rest, rfl, hsent⟩
      rcases ih hsolid.2 hne' hall hoffers with ⟨l', reply, hm, hreply, hattended⟩
      exact ⟨l', reply, (meets_bind_of_ok hfirst).2 hm, hreply, hattended⟩

/-- A request that is sent over a link is served. -/
theorem meets_request {act : LinkM ω (WorkerEnd E) Unit} (hsends : Sends act q.encode)
    (hserved : q.Served E ready) (hready : (standing (E := E) past).isSome = ready)
    (hturn : Turn.of c.workUnit q w = some (t, w')) (hfits : t.Fits E c past)
    (hattended : l.Attended c past out) :
    ∃ l' reply, Meets act l w (.ok ()) l' w' ∧ t.Reply E c past reply ∧
      l'.Attended c (t :: past) (out ++ reply) := by
  rcases hsends with ⟨ps, rfl, hall, hsolid⟩
  exact meets_writeEach hserved hready hturn hfits hsolid q.encode_ne_nil.symm hall hattended

/-- A reply that has been made is read. -/
theorem meets_reply {α : Type} {act : LinkM ω (WorkerEnd E) α} {a : α} {reply : Bytes}
    (hreads : ∀ Rest, Supplies ω Rest .waiting → Reads Rest .waiting act reply a)
    (hattended : l.Attended c past (reply ++ out)) :
    ∃ l', Meets act l w (.ok a) l' w ∧ l'.Attended c past out :=
  (hreads _ (WorkerEnd.Attends.supplies ω c past [])).whole hattended

/-- A link can be read if something has come that is not yet read; if not, it is quiet. -/
theorem Link.Attended.readiness (ω : Type) [WorkerWorld ω] (h : l.Attended c past out) :
    ((l.readiness ω).1 = .unread ∧ out ≠ [] ∨
      (l.readiness ω).1 = .quiet ∧ l.unread = [] ∧ l.remote.arrived = []) ∧
    (l.readiness ω).2.Attended c past out := by
  rcases h with ⟨rest, rfl, hattends⟩
  rcases l with ⟨_ | ⟨b, unread⟩, ⟨config, session, exit, underway, _ | ⟨p, arrived⟩⟩⟩
  · -- a worker that goes on is quiet while nothing has arrived
    obtain rfl : exit = none := hattends.serving
    exact ⟨.inr ⟨rfl, rfl, rfl⟩, rest, rfl, hattends⟩
  · have hpieces : p :: arrived ++ underway = p :: (arrived ++ underway) := rfl
    rcases hattends.took hpieces with ⟨hp, rfl, hattends'⟩
    cases p with
    | nil => exact absurd rfl hp
    | cons b p => exact ⟨.inl ⟨rfl, nofun⟩, _, rfl, hattends'⟩
  -- what is unread is read first, whatever has arrived
  · exact ⟨.inl ⟨rfl, nofun⟩, rest, rfl, hattends⟩
  · exact ⟨.inl ⟨rfl, nofun⟩, rest, rfl, hattends⟩

end Requests

end FleetEstimate
