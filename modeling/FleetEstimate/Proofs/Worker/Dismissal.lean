import FleetEstimate.Proofs.Worker.Agreement

/-!
# How a worker is dismissed

A coordinator that has read the reply to its last request knows that its worker has served all
requests before, also those that have no reply: a worker that breaks off writes less than a
reply, and nothing after it. Such a worker waits for a tag, and the tag that ends its service
ends it well.
-/

namespace FleetEstimate

variable {ω E : Type} [Experiment E] [WorkerWorld ω] {ending : Ending} {g b h : Bytes}
variable {c : WorkerConfig} {past : List Turn} {a : Holding} {q : Request} {reply : Bytes}
variable {s : Session Stream E} {w w' : ω}

namespace Worker

open Session

/-! ## What is written stays written -/

omit [WorkerWorld ω] in
theorem holds_of_stands (hstands : s.Stands past) :
    s.Holds ⟨(standing (E := E) past).map Prod.fst, none⟩ := by
  rw [Session.Holds, hstands.system]
  cases standing (E := E) past <;> rfl

theorem isPrefix_output_serve (n : ℕ) (w : ω) (hstands : s.Stands past)
    (hoffers : Link.Offers (Stream.Says ending g) s.link b) :
    g <+: (serve c n s w).2.1.link.remote.output := by
  rcases hserve : serve c n s w with ⟨service, s', w'⟩
  rcases hoffers with ⟨rest, -, hstream⟩
  have htrace : Link.Logs (Stream.Trace (s.link.unread ++ s.link.remote.incoming.flatten)) s.link g
      [] := ⟨hstream.written, rfl⟩
  have hserviced := serviced_serve hserve (Stream.keepsTrace ω _) (fun _ _ _ h => ⟨_, h.incoming⟩)
    htrace (holds_of_stands hstands)
  cases hserviced with
  | sofar replies log holds goesOn => exact ⟨_, log.written.symm⟩
  | ended replies sent begins log => exact ⟨_, log.written.symm⟩

/-! ## One request -/

/-- The session has the system whose text the worker holds. -/
def Rebuilt (E : Type) [Experiment E] (a : Holding) (past : List Turn) : Prop :=
  (standing (E := E) past).map Prod.fst = a.system

omit [WorkerWorld ω] in
theorem Rebuilt.isSome (h : Rebuilt E a past) :
    (standing (E := E) past).isSome = a.system.isSome := by
  rw [← h, Option.isSome_map]

theorem readies_after (a : Holding) (q : Request) :
    q.readies a.system.isSome = (a.after q).system.isSome := by
  cases q <;> rfl

theorem Rebuilt.after {t : Turn} (h : Rebuilt E a past) (hserved : q.Served E a.system.isSome)
    (hturn : Turn.of c.workUnit q w = some (t, w')) : Rebuilt E (a.after q) (t :: past) := by
  unfold Rebuilt at h ⊢
  cases q with
  | name =>
    cases hturn
    exact h
  | busyTime =>
    cases hturn
    exact h
  | system text =>
    cases hturn
    -- the text that the coordinator knows is the one that was rebuilt
    rcases hserved with ⟨-, e, he⟩
    rw [standing, he]
    rfl
  | parameter value =>
    cases hturn
    rw [standing, Option.map_map]
    exact h
  | work =>
    cases hturn
    rw [standing, Option.map_map]
    exact h
  | die => cases hturn
  | other call => cases hturn

/-- What a worker writes in a turn has the form of an answer. -/
theorem form_of_reply {t : Turn} {bytes : Bytes} (hturn : Turn.of c.workUnit q w = some (t, w'))
    (hfits : t.Fits E c past) (hreply : t.Reply E c past bytes) : q.Form bytes := by
  cases q with
  | name =>
    cases hturn
    cases hreply
    exact ⟨c.name, hfits, rfl⟩
  | busyTime =>
    cases hturn
    cases hreply
    exact ⟨_, rfl⟩
  | system text =>
    cases hturn
    cases hreply
    rfl
  | parameter value =>
    cases hturn
    cases hreply
    rfl
  | work =>
    cases hturn
    -- a result travels, as its turn fits
    cases hreply with
    | work stands worked => exact ⟨_, worked.travels (hfits.2 _ _ stands), rfl⟩
  | die => cases hturn
  | other call => cases hturn

/-- Answering a request fails, and less than the reply was written behind `g`. -/
def BreaksOff (c : WorkerConfig) (tag : Tag) (g reply : Bytes) (s : Session Stream E) (w : ω) :
    Prop :=
  ∃ e s' w' p, Meets (answer c tag) s w (.error (.failed e)) s' w' ∧
    s'.link.remote.output = g ++ p ∧ (p = [] ∨ p.length < reply.length)

theorem breaksOff_of_silent {tag : Tag} {e : LinkError} {s' : Session Stream E}
    (hm : Meets (answer c tag) s w (.error (.failed e)) s' w')
    (hoffers : Link.Offers (Stream.Says ending g) s'.link b) : BreaksOff c tag g reply s w := by
  rcases hoffers with ⟨_, -, hstream⟩
  exact ⟨e, s', w', [], hm, by rw [List.append_nil]; exact hstream.written, .inl rfl⟩

theorem fits_or_breaksOff_name (hoffers : Link.Offers (Stream.Says ending g) s.link b) :
    Turn.name.Fits E c past ∨ BreaksOff c .getName g reply s w := by
  by_cases hsize : c.name.utf8ByteSize ≤ maxPayload
  · exact .inl hsize
  · have hsend : Meets (Link.sendText c.name) s.link w
        (.error (.failed (.tooLong c.name.utf8ByteSize maxPayload))) s.link w := by
      unfold Link.sendText
      rw [if_neg hsize]
      exact meets_throw.2 ⟨rfl, rfl, rfl⟩
    exact .inr (breaksOff_of_silent (meets_bind_of_error (meets_onLink_of hsend)) hoffers)

theorem served_or_breaksOff_system {text : String} (ready : Bool)
    (hsize : text.utf8ByteSize ≤ maxPayload)
    (hoffers : Link.Offers (Stream.Says ending g) s.link
      (Text.frame receiveSystemCall ++ (Text.frame text ++ b))) :
    (Request.system text).Served E ready ∨ BreaksOff c .work g reply s w := by
  cases htext : Experiment.ofText (E := E) text with
  | ok e => exact .inl ⟨hsize, e, htext⟩
  | error e =>
    rcases meets_answer_work (c := c) (w := w) Request.size_calls.2.1 find_receiveSystem hoffers with
      ⟨l, hoffers₁, hanswer⟩
    have hreads := Link.reads_recvText (Stream.supplies ω ending g) hsize
    rcases meets_reads (s := { s with link := l }) (w := w) hreads hoffers₁ with
      ⟨l', hread, hoffers'⟩
    -- a text that cannot be rebuilt ends the session before anything is written
    have hreceive : Meets (receiveSystem : SessionM ω Stream E Unit) { s with link := l } w
        (.error (.failed (.ofWorker (.invalidExperiment e)))) { s with link := l' } w := by
      unfold receiveSystem
      rw [meets_bind_of_ok hread, htext]
      exact meets_throw.2 ⟨rfl, rfl, rfl⟩
    exact .inr (breaksOff_of_silent ((hanswer _ _ _).2 (meets_bind_of_error hreceive)) hoffers')

omit [Experiment E] [WorkerWorld ω] in
/-- Of a result whose vectors are too long, no more than its digest and its parameter are sent. -/
theorem meets_send_of_long {r : WorkResult} {l : Link Stream}
    (hdigest : r.digest.utf8ByteSize ≤ maxPayload) (hlong : ¬ 8 * r.batch.sum.length ≤ maxPayload)
    (hoffers : Link.Offers (Stream.Says ending g) l b) :
    ∃ e l', Meets r.send l w (.error (.failed e)) l' w ∧
      Link.Offers (Stream.Says ending (g ++ (Text.frame r.digest ++ r.parameter.toBytes))) l' b := by
  -- the digest and the parameter fit and are sent
  have hsends : Sends (do Link.sendText r.digest; Link.sendReal r.parameter : LinkM ω Stream Unit)
      (Text.frame r.digest ++ r.parameter.toBytes) :=
    (Link.sends_sendText hdigest).bind (Link.sends_sendReal r.parameter)
  rcases hsends.writes (w := w) hoffers with ⟨l', hm, hoffers'⟩
  rcases meets_bind_ok.1 hm with ⟨⟨⟩, l₁, w₁, hfirst, hsecond⟩
  -- the first of the vectors is refused
  have hreals : Meets (Link.sendReals r.batch.sum) l' w
      (.error (.failed (.tooLong (8 * r.batch.sum.length) maxPayload))) l' w := by
    unfold Link.sendReals
    rw [if_neg hlong]
    exact meets_throw.2 ⟨rfl, rfl, rfl⟩
  refine ⟨.tooLong (8 * r.batch.sum.length) maxPayload, l', ?_, hoffers'⟩
  unfold WorkResult.send
  rw [meets_bind_of_ok hfirst, meets_bind_of_ok hsecond]
  exact meets_bind_of_error hreals

/-- If the vectors of a result are too long, the digest and the parameter are all that is
written. -/
theorem breaksOff_of_long {span : WorkSpan} {text : String} {e : E} {r : WorkResult}
    {t : Totals Real64} (hsystem : s.system = some (e, .of (Text.toBytes text)))
    (hspan : WorkerWorld.span c.workUnit w = (span, w'))
    (htotals : (Totals.zero (Experiment.count e)).accumulateAll (span.drawn c.workUnit) e = .ok t)
    (hlong : ¬ 8 * Experiment.count e ≤ maxPayload)
    (hdigest : r.digest = (Digest.of (Text.toBytes text)).toHex)
    (hoffers : Link.Offers (Stream.Says ending g) s.link (Text.frame workCall ++ b)) :
    BreaksOff c .work g r.encode s w := by
  rcases meets_answer_work (c := c) (w := w) Request.size_calls.1 find_work hoffers with
    ⟨l, hoffers₁, hanswer⟩
  have hfits := (Totals.fits_zero (Experiment.count e)).accumulateAll htotals
  let r' := WorkResult.new (.of (Text.toBytes text))
    (Experiment.parameter (Experiment.skip (span.drawn c.workUnit) e)) t
  have hlong' : ¬ 8 * r'.batch.sum.length ≤ maxPayload := by rwa [← hfits.1] at hlong
  have hsize : r'.digest.utf8ByteSize ≤ maxPayload := Digest.size_toHex _
  rcases meets_send_of_long (w := w') hsize hlong' hoffers₁ with ⟨e', l', hsend, _, -, hstream⟩
  -- the samples are drawn all the same, and then the result is refused
  have hwork := (meets_work_of_ok (s := { s with link := l }) hsystem hspan htotals).2
    (meets_onLink_of (s := { s with
      link := l
      system := some (Experiment.skip (span.drawn c.workUnit) e, .of (Text.toBytes text))
      busy := s.busy + span.spent }) hsend)
  refine ⟨e', _, w', _, (hanswer _ _ _).2 (meets_bind_of_error hwork), hstream.written, .inr ?_⟩
  -- what was written is shorter than the whole reply
  have hsame : r'.digest = r.digest := hdigest.symm
  rw [WorkResult.encode, hsame]
  simp only [List.length_append, Real64.length_toBytes, Bytes.length_littleEndian]
  omega

theorem fits_or_breaksOff_work {span : WorkSpan} {text : String} {e : E} {r : WorkResult}
    (hstanding : standing past = some (text, e))
    (hspan : WorkerWorld.span c.workUnit w = (span, w'))
    (hdigest : r.digest = (Digest.of (Text.toBytes text)).toHex) (hstands : s.Stands past)
    (hoffers : Link.Offers (Stream.Says ending g) s.link (Text.frame workCall ++ b)) :
    (Turn.work (span.drawn c.workUnit) span.spent).Fits E c past ∨
      BreaksOff c .work g r.encode s w := by
  have hsystem := hstands.system_eq hstanding
  cases htotals : (Totals.zero (Experiment.count e)).accumulateAll (span.drawn c.workUnit) e with
  -- the samples cannot be counted
  | error fault =>
    rcases meets_answer_work (c := c) (w := w) Request.size_calls.1 find_work hoffers with
      ⟨l, hoffers₁, hanswer⟩
    have hwork := meets_work_of_error (s := { s with link := l }) hsystem hspan htotals
    exact .inr (breaksOff_of_silent ((hanswer _ _ _).2 (meets_bind_of_error hwork)) hoffers₁)
  | ok t =>
    by_cases hcount : 8 * Experiment.count e ≤ maxPayload
    · refine .inl ⟨?_, fun text' e' hstanding' => ?_⟩
      · -- they were counted, so there are not too many
        have hsamples : t.samples.toNat = 0 + span.drawn c.workUnit :=
          Totals.samples_of_accumulateAll htotals
        have hlt := t.samples.toNat_lt
        have hsize : UInt64.size = 2 ^ 64 := rfl
        omega
      · rw [hstanding] at hstanding'
        cases hstanding'
        exact hcount
    · exact .inr (breaksOff_of_long hsystem hspan htotals hcount hdigest hoffers)

/-- A request that the protocol has an answer to is served, or the worker breaks off. -/
theorem served_or_breaksOff (hanswer : Answer a q reply) (hrebuilt : Rebuilt E a past)
    (hstands : s.Stands past) (hoffers : Link.Offers (Stream.Says ending g) s.link (q.body ++ b)) :
    (∃ t w', Turn.of c.workUnit q w = some (t, w') ∧ q.Served E a.system.isSome ∧
        t.Fits E c past) ∨
      BreaksOff c q.tag g reply s w := by
  -- only a name, a text and a result can be too much for the worker
  cases hanswer with
  | name name size =>
    rcases fits_or_breaksOff_name (w := w) hoffers with hfits | hbreaks
    · exact .inl ⟨.name, w, rfl, trivial, hfits⟩
    · exact .inr hbreaks
  | busyTime time => exact .inl ⟨.busyTime, w, rfl, trivial, trivial⟩
  | system text size =>
    rw [Request.body, List.append_assoc] at hoffers
    rcases served_or_breaksOff_system (w := w) a.system.isSome size hoffers with hserved | hbreaks
    · exact .inl ⟨.system text, w, rfl, hserved, trivial⟩
    · exact .inr hbreaks
  | parameter value ready =>
    exact .inl ⟨_, _, rfl, Option.isSome_iff_ne_none.2 ready, trivial⟩
  | work text r holds travels digest =>
    rcases hspan : WorkerWorld.span c.workUnit w with ⟨span, w₁⟩
    unfold Rebuilt at hrebuilt
    rw [holds, Option.map_eq_some_iff] at hrebuilt
    rcases hrebuilt with ⟨⟨text', e⟩, hstanding, rfl⟩
    rcases fits_or_breaksOff_work hstanding hspan digest hstands hoffers with hfits | hbreaks
    · refine .inl ⟨_, w₁, ?_, ?_, hfits⟩
      · rw [Turn.of, hspan]
      · rw [Request.Served, holds]
        rfl
    · exact .inr hbreaks

/-! ## All requests -/

omit [Experiment E] [WorkerWorld ω] in
/-- Behind the same bytes, two replies of one form are the same. -/
theorem eq_of_isPrefix {bytes out o : Bytes} (hform : q.Form bytes) (hform' : q.Form reply)
    (hwritten : g ++ bytes <+: o) (hsaid : g ++ (reply ++ out) <+: o) : bytes = reply := by
  rcases hwritten with ⟨x, rfl⟩
  rcases hsaid with ⟨y, hy⟩
  have hboth : g ++ (bytes ++ x) = g ++ (reply ++ (out ++ y)) := by
    rw [← List.append_assoc, ← hy, List.append_assoc, List.append_assoc]
  exact (hform.unique hform' (List.append_cancel_left hboth)).1

omit [Experiment E] [WorkerWorld ω] in
/-- Whoever has written less than a reply has not written it. -/
theorem not_said_of_short {p out : Bytes} (hne : reply ++ out ≠ [])
    (hshort : p = [] ∨ p.length < reply.length) : ¬ g ++ (reply ++ out) <+: g ++ p := by
  rw [List.prefix_append_right_inj]
  intro hsaid
  rcases hshort with rfl | hlt
  · exact hne (List.prefix_nil.1 hsaid)
  · have hle := hsaid.length_le
    rw [List.length_append] at hle
    omega

/-- If a worker has written the answers to some requests, the last of which has a reply, it has
served them all. -/
theorem inOrder_of_replies {qs : List Request} {n : ℕ} (hreplies : Replies a qs h)
    (hconfirmed : Confirmed qs) (hrebuilt : Rebuilt E a past) (hstands : s.Stands past)
    (hoffers : Link.Offers (Stream.Says ending g) s.link (qs.flatMap Request.encode ++ b))
    (hsaid : g ++ h <+: (serve c n s w).2.1.link.remote.output) :
    InOrder E a.system.isSome qs ∧ AllFit E c past (course c.workUnit qs w).1 := by
  -- on the requests; the replies that are left have bytes as long as any request is left
  induction hreplies generalizing past s w g n with
  | nil => exact ⟨trivial, trivial⟩
  | @cons a q qs reply out answer rest ih =>
    have hne : reply ++ out ≠ [] :=
      (Replies.cons answer rest).ne_nil hconfirmed (List.cons_ne_nil q qs)
    cases n with
    | zero =>
      rcases hoffers with ⟨_, -, hstream⟩
      have hwritten : (serve c 0 s w).2.1.link.remote.output = g ++ [] := by
        rw [List.append_nil]
        exact hstream.written
      rw [hwritten] at hsaid
      exact absurd hsaid (not_said_of_short hne (.inl rfl))
    | succ n =>
      have hencode : q.tag.toBytes ++ (q.body ++ (qs.flatMap Request.encode ++ b)) =
          (q :: qs).flatMap Request.encode ++ b := by
        rw [List.flatMap_cons, Request.encode, List.append_assoc, List.append_assoc]
      rw [← hencode] at hoffers
      rcases serveOne_eq (c := c) (w := w) hoffers with ⟨l, hoffers₁, hone⟩
      have hstands₁ : Session.Stands { s with link := l } past := ⟨hstands.system, hstands.busy⟩
      rcases served_or_breaksOff (c := c) (w := w) answer hrebuilt hstands₁ hoffers₁ with
        ⟨t, w₁, hturn, hserved, hfits⟩ | ⟨e, s', w', p, hm, hwritten, hshort⟩
      · have hoffersq : Link.Offers (Stream.Says ending g) s.link
            (q.encode ++ (qs.flatMap Request.encode ++ b)) := by
          rw [Request.encode, List.append_assoc]
          exact hoffers
        rcases served_one hserved hrebuilt.isSome hturn hfits hstands hoffersq with
          ⟨s₁, hserve, hdone⟩
        rw [serve, hserve] at hsaid
        dsimp only at hsaid
        cases hdone with
        | @intro bytes hreply offers stands =>
          -- what was written is the answer that was read
          have hsame : bytes = reply := eq_of_isPrefix (form_of_reply hturn hfits hreply) answer.form
            (isPrefix_output_serve n w₁ stands offers) hsaid
          subst hsame
          rw [← List.append_assoc] at hsaid
          rcases ih hconfirmed.tail (hrebuilt.after hserved hturn) stands offers hsaid with
            ⟨horder, hall⟩
          rw [← readies_after] at horder
          refine ⟨⟨hserved, horder⟩, ?_⟩
          rw [course, hturn]
          exact ⟨hfits, hall⟩
      · rw [perform_eq_iff.2 hm] at hone
        rw [serve, hone] at hsaid
        dsimp only at hsaid
        rw [hwritten] at hsaid
        exact absurd hsaid (not_said_of_short hne hshort)

/-! ## The end of the service -/

/-- A worker with a configuration, in an outside world, that was given some bytes and has written
others, or more, over a link that takes everything. -/
def HasSaid (E : Type) [Experiment E] (c : WorkerConfig) (w : ω) (given said : Bytes) : Prop :=
  ∃ (x : Stream) (n : ℕ), x.incoming.flatten = given ∧ x.output = [] ∧
    (x.maxWrite ≠ some 0 ∧ x.room = none) ∧
    said <+: (serve c n (Session.new x : Session Stream E) w).2.1.link.remote.output

/-- A worker that has told the answers to its requests ends well once it is told to end, if the
last of the requests has a reply. -/
theorem ends_well_of_dismissed {done : List Request} {x : Stream} {rest : Bytes} {n : ℕ}
    (hreplies : Replies .nothing done h) (hconfirmed : Confirmed done)
    (hsaid : HasSaid E c w (done.flatMap Request.encode) h)
    (hgiven : x.incoming.flatten = done.flatMap Request.encode ++ (Tag.die.toBytes ++ rest))
    (htakes : x.maxWrite ≠ some 0 ∧ x.room = none) (hn : done.length < n) :
    ∃ s' w', serve c n (Session.new x : Session Stream E) w = (.ends (.ok ()), s', w') := by
  rcases hsaid with ⟨y, m, hy, hnew, hytakes, hwritten⟩
  have hyoffers : Link.Offers (Stream.Says y.ending []) (Session.new y : Session Stream E).link
      (done.flatMap Request.encode ++ []) :=
    Link.offers_new ⟨by rw [hy, List.append_nil], rfl, hnew, hytakes⟩
  have hnothing : Rebuilt E .nothing [] := rfl
  -- whoever has heard all replies knows that the requests were in order and that the replies fit
  rcases inOrder_of_replies hreplies hconfirmed hnothing (stands_new y) hyoffers hwritten with
    ⟨horder, hfits⟩
  have hoffers : Link.Offers (Stream.Says x.ending x.output)
      (Session.new x : Session Stream E).link
      (done.flatMap Request.encode ++ (Tag.die.toBytes ++ rest)) :=
    Link.offers_new ⟨hgiven, rfl, rfl, htakes⟩
  rcases hcourse : course c.workUnit done w with ⟨ts, w'⟩
  rw [hcourse] at hfits
  rcases served_course horder rfl hcourse hfits (stands_new x) hoffers with
    ⟨s₁, replies, -, hoffers₁, -, hserve⟩
  -- so they are served again, and then comes the end
  rcases serveOne_die (c := c) (w := w') hoffers₁ with ⟨s', hone, -⟩
  obtain ⟨k, rfl⟩ : ∃ k, n = done.length + (k + 1) := ⟨n - done.length - 1, by omega⟩
  refine ⟨s', w', ?_⟩
  rw [hserve, serve, hone]

end Worker

end FleetEstimate
