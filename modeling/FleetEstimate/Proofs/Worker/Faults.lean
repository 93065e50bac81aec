import FleetEstimate.Proofs.Failure.Crossings
import FleetEstimate.Proofs.Wire.Forms
import FleetEstimate.Proofs.Worker.Conversation

/-!
# The first fault ends the service

A worker serves the requests that come in order. What comes behind them and is neither a
request in order nor the end of the service is a fault, and there is a list of what it can be:
a tag that is not reserved, a name or a text that is cut short, too long or no text, a call
that nobody knows or that needs a system, a text that describes no system, a parameter that is
cut short. The worker ends with the error of the first fault, and its error is the one that was
raised, wherever it was raised.
-/

namespace FleetEstimate

/-! ## Errors on their way through a call -/

/-- What is wrong with a text that is refused: it is cut short, or it is too long or no text. -/
theorem Form.kind_of_text_fails {b left : Bytes} {e : LinkError} (h : Form.text.fails b e left) :
    e = .earlyEnd ∨ e.kind = .invalidData ∧ WorkerError.ofLink e = .link e := by
  rcases h with hfault | ⟨-, -, -, why, -, rfl⟩
  · cases hfault with
    | cutHead => exact .inl rfl
    | tooLong => exact .inr ⟨rfl, rfl⟩
    | cutBody => exact .inl rfl
  · exact .inr ⟨rfl, rfl⟩

/-- Bytes that a text is read from begin with the message that it is sent as. -/
theorem Form.eq_frame_of_text_takes {b behind : Bytes} (h : Form.text.takes b behind) :
    ∃ t, t.utf8ByteSize ≤ maxPayload ∧ b = Text.frame t ++ behind := by
  rcases h with ⟨hbody, hvalid, rfl⟩
  rcases isUtf8_iff.1 hvalid with ⟨t, ht⟩
  have hbytes : Text.toBytes t = (b.drop 8).take (announced b) := Text.toBytes_of_ofBytes ht
  have hwhole : 8 + announced b ≤ b.length := hbody.whole
  -- the length that is announced is the length of the text
  have hsize : t.utf8ByteSize = announced b := by
    rw [← Text.length_toBytes, hbytes, List.length_take, List.length_drop]
    omega
  -- so the head is the one that the text is sent with
  have hhead : Bytes.bigEndian 8 (announced b) = b.take 8 := by
    have hback := Bytes.bigEndian_ofBigEndian (b.take 8)
    rwa [List.length_take_of_le hbody.head] at hback
  refine ⟨t, hsize.trans_le hbody.fits, ?_⟩
  show b = Bytes.bigEndian 8 t.utf8ByteSize ++ Text.toBytes t ++ b.drop (8 + announced b)
  rw [hsize, hhead, hbytes, ← List.drop_drop, List.append_assoc, List.take_append_drop,
    List.take_append_drop]

theorem WorkerError.ofLink_of_text_fails {b left : Bytes} {e : LinkError}
    (h : Form.text.fails b e left) : ofLink e = .link e := by
  rcases Form.kind_of_text_fails h with rfl | ⟨-, he⟩
  · rfl
  · exact he

/-! ## Faults -/

namespace Request

/-- The names of the calls that workers know. -/
def callNames : List String := [receiveSystemCall, receiveParameterCall, workCall]

/-- Some of the requests gives a system. -/
def anySystem (qs : List Request) : Bool :=
  qs.any fun
    | .system _ => true
    | _ => false

theorem readies_or (ready : Bool) (q : Request) (qs : List Request) :
    (q.readies ready || anySystem qs) = (ready || anySystem (q :: qs)) := by
  cases q <;> simp [readies, anySystem]

end Request

/-- Bytes at which a worker that has a system (`ready`) or none finds neither a request in order
nor the end of its service, and the error that it ends with. -/
inductive Fault (E : Type) [Experiment E] (ready : Bool) : Bytes → WorkerError → Prop
  /-- A whole tag that is none of the reserved ones. -/
  | tag {b : Bytes} (whole : 4 ≤ b.length)
      (unreserved : Bytes.ofBigEndian (b.take 4) ∉ Tag.reserved) :
      Fault E ready b (.protocol (.unexpectedTag (UInt32.ofNat (Bytes.ofBigEndian (b.take 4)))))
  /-- A call without a name. -/
  | name {b left : Bytes} {e : LinkError} (fails : Form.text.fails b e left) :
      Fault E ready (Tag.work.toBytes ++ b) (.link e)
  /-- A call that nobody knows. -/
  | unknown {name : String} {b : Bytes} (size : name.utf8ByteSize ≤ maxPayload)
      (unknown : name ∉ Request.callNames) :
      Fault E ready (Tag.work.toBytes ++ (Text.frame name ++ b)) (.protocol (.unknownFunction name))
  /-- A call that needs a system, before there is one. -/
  | early {call : String} {b : Bytes} (needs : call = receiveParameterCall ∨ call = workCall)
      (without : ready = false) :
      Fault E ready (Tag.work.toBytes ++ (Text.frame call ++ b)) (.notInitialized call)
  /-- A system without a text. -/
  | text {b left : Bytes} {e : LinkError} (fails : Form.text.fails b e left) :
      Fault E ready (Tag.work.toBytes ++ (Text.frame receiveSystemCall ++ b)) (.link e)
  /-- A text that describes no system. -/
  | system {text : String} {b : Bytes} {e : LinkError} (size : text.utf8ByteSize ≤ maxPayload)
      (refused : Experiment.ofText (E := E) text = .error e) :
      Fault E ready
        (Tag.work.toBytes ++ (Text.frame receiveSystemCall ++ (Text.frame text ++ b)))
        (.invalidExperiment e)
  /-- A parameter that is cut short. -/
  | parameter {b : Bytes} (cut : b.length < 8) (given : ready = true) :
      Fault E ready (Tag.work.toBytes ++ (Text.frame receiveParameterCall ++ b)) (.link .earlyEnd)

/-! ## Every fault -/

section Classification

variable (E : Type) [Experiment E] (ready : Bool)

/-- Behind the tag of a call there is the rest of a request in order, or a fault. -/
theorem call_or_fault (b : Bytes) :
    (∃ (q : Request) (b' : Bytes), b = q.body ++ b' ∧ q.tag = .work ∧ q.Served E ready) ∨
      ∃ err, Fault E ready (Tag.work.toBytes ++ b) err := by
  rcases Form.text.total b with ⟨b₁, htakes⟩ | ⟨e, left, hfails⟩
  · rcases Form.eq_frame_of_text_takes htakes with ⟨name, hsize, rfl⟩
    by_cases hknown : name ∈ Request.callNames
    · simp only [Request.callNames, List.mem_cons, List.not_mem_nil, or_false] at hknown
      rcases hknown with rfl | rfl | rfl
      · -- a text that describes a system follows
        rcases Form.text.total b₁ with ⟨b₂, htakes₁⟩ | ⟨e, left, hfails⟩
        · rcases Form.eq_frame_of_text_takes htakes₁ with ⟨text, hsize₁, rfl⟩
          cases htext : Experiment.ofText (E := E) text with
          | ok x =>
            refine .inl ⟨.system text, b₂, ?_, rfl, hsize₁, x, htext⟩
            rw [Request.body, List.append_assoc]
          | error e => exact .inr ⟨_, .system hsize₁ htext⟩
        · exact .inr ⟨_, .text hfails⟩
      · cases hready : ready with
        | false => exact .inr ⟨_, .early (.inl rfl) rfl⟩
        | true =>
          by_cases hcut : b₁.length < 8
          · exact .inr ⟨_, .parameter hcut rfl⟩
          · have hvalue : (Real64.ofBytes (b₁.take 8)).toBytes = b₁.take 8 :=
              Real64.toBytes_ofBytes (List.length_take_of_le (not_lt.1 hcut))
            refine .inl ⟨.parameter (.ofBytes (b₁.take 8)), b₁.drop 8, ?_, rfl, rfl⟩
            rw [Request.body, hvalue, List.append_assoc, List.take_append_drop]
      · cases hready : ready with
        | false => exact .inr ⟨_, .early (.inr rfl) rfl⟩
        | true => exact .inl ⟨.work, b₁, rfl, rfl, rfl⟩
    · exact .inr ⟨_, .unknown hsize hknown⟩
  · exact .inr ⟨_, .name hfails⟩

/-- Any bytes begin with a request in order, or the end of the service, or a fault. -/
theorem request_or_fault (b : Bytes) :
    (∃ (q : Request) (b' : Bytes), b = q.encode ++ b' ∧ q.Served E ready) ∨
      Worker.EndsService b ∨ ∃ err, Fault E ready b err := by
  by_cases hwhole : 4 ≤ b.length
  · by_cases hreserved : Bytes.ofBigEndian (b.take 4) ∈ Tag.reserved
    · rcases Tag.ofBytes_of_reserved hreserved with ⟨tag, htag⟩
      have hbytes := Tag.toBytes_of_ofBytes (List.length_take_of_le hwhole) htag
      rw [← List.take_append_drop 4 b, ← hbytes]
      -- three tags are whole requests, behind the fourth a call is read
      cases tag with
      | getName =>
        exact .inl ⟨.name, b.drop 4, by rw [Request.encode, List.append_assoc]; rfl, trivial⟩
      | getCpuTime =>
        exact .inl ⟨.busyTime, b.drop 4, by rw [Request.encode, List.append_assoc]; rfl, trivial⟩
      | die => exact .inr (.inl (.inl (List.prefix_append _ _)))
      | work =>
        rcases call_or_fault E ready (b.drop 4) with
          ⟨q, b', hb', htag', hserved⟩ | hfault
        · refine .inl ⟨q, b', ?_, hserved⟩
          rw [Request.encode, htag', hb', List.append_assoc]
        · exact .inr (.inr hfault)
    · exact .inr (.inr ⟨_, .tag hwhole hreserved⟩)
  · -- not even a tag: the stream ends here
    exact .inr (.inl (.inr (not_le.1 hwhole)))

end Classification

namespace Worker

open Session

variable {ω E : Type} [Experiment E] [WorkerWorld ω] {c : WorkerConfig} {s : Session Stream E}
variable {w : ω} {ready : Bool} {g b : Bytes} {past : List Turn} {err : WorkerError}

/-! ## Calls that fail -/

theorem find_eq_error {length : Nanoseconds} {name : String} (hwork : name ≠ workCall)
    (hparameter : name ≠ receiveParameterCall) (hsystem : name ≠ receiveSystemCall) :
    (calls length : Registry (SessionM ω Stream E Unit)).find name =
      .error (.unknownFunction name) := by
  unfold calls
  rw [Registry.find_register_ne _ _ hwork, Registry.find_register_ne _ _ hparameter,
    Registry.find_register_ne _ _ hsystem]
  rfl

omit [WorkerWorld ω] in
theorem meets_receiveSystem_of_refused {l : Link Stream} {text : String} {e : LinkError}
    (htext : Meets Link.recvText s.link w (.ok text) l w)
    (hrefused : Experiment.ofText (E := E) text = .error e) :
    Meets (receiveSystem : SessionM ω Stream E Unit) s w
      (.error (.failed (.ofWorker (.invalidExperiment e)))) { s with link := l } w := by
  unfold receiveSystem
  rw [meets_bind_of_ok (meets_onLink_of htext), hrefused]
  exact meets_throw.2 ⟨rfl, rfl, rfl⟩

theorem meets_receiveParameter_of_none (hnone : s.system = none) :
    Meets (receiveParameter : SessionM ω Stream E Unit) s w
      (.error (.failed (.ofWorker (.notInitialized receiveParameterCall)))) s w := by
  unfold receiveParameter
  rw [meets_getState_bind, hnone]
  exact meets_throw.2 ⟨rfl, rfl, rfl⟩

/-- A system that waits for its parameter has been reseeded. -/
theorem meets_receiveParameter_of_error {l : Link Stream} {x : E} {digest : Digest}
    {e : LinkError} (hsystem : s.system = some (x, digest))
    (hread : Meets Link.recvReal s.link (WorkerWorld.freshSeed w).2 (.error (.failed e)) l
      (WorkerWorld.freshSeed w).2) :
    Meets (receiveParameter : SessionM ω Stream E Unit) s w (.error (.failed e))
      { s with
        link := l, system := some (Experiment.seed (WorkerWorld.freshSeed w).1 x, digest) }
      (WorkerWorld.freshSeed w).2 := by
  unfold receiveParameter
  rw [meets_getState_bind, hsystem]
  dsimp only
  rw [meets_getWorld_bind, meets_setWorld_bind, meets_modifyState_bind]
  exact meets_bind_of_error (meets_onLink_of hread)

theorem meets_work_of_none {length : Nanoseconds} (hnone : s.system = none) :
    Meets (work length : SessionM ω Stream E Unit) s w
      (.error (.failed (.ofWorker (.notInitialized workCall)))) s w := by
  unfold work
  rw [meets_getState_bind, hnone]
  exact meets_throw.2 ⟨rfl, rfl, rfl⟩

/-! ## One fault -/

/-- The service ends with an error, and the worker has written nothing more. -/
def EndsWith (c : WorkerConfig) (g : Bytes) (s : Session Stream E) (w : ω) (err : WorkerError) :
    Prop :=
  ∃ s' w' rest, serveOne c s w = (.ends (.error err), s', w') ∧
    Link.Offers (Stream.Says .closed g) s'.link rest

/-- A call that fails ends the service with what its failure carries. -/
theorem endsWith_of_call {name : String} {call : SessionM ω Stream E Unit}
    (hsize : name.utf8ByteSize ≤ maxPayload) (hfind : (calls c.workUnit).find name = .ok call)
    (hoffers : Link.Offers (Stream.Says .closed g) s.link
      (Tag.work.toBytes ++ (Text.frame name ++ b)))
    (hfails : ∀ l, Link.Offers (Stream.Says .closed g) l b → ∃ e s' w' rest,
      Meets call { s with link := l } w (.error (.failed e)) s' w' ∧
        Link.Offers (Stream.Says .closed g) s'.link rest ∧ WorkerError.ofLink e = err) :
    EndsWith c g s w err := by
  rcases serveOne_eq (c := c) (w := w) hoffers with ⟨l, hoffers₁, hone⟩
  -- up to the call itself the service goes as for a request in order
  rcases meets_answer_work (c := c) (s := { s with link := l }) (w := w) hsize hfind hoffers₁ with
    ⟨l₁, hoffers₂, hanswer⟩
  rcases hfails l₁ hoffers₂ with ⟨e, s', w', rest, hcall, hoffers', rfl⟩
  have hm := (hanswer _ _ _).2 (meets_bind_of_error hcall)
  rw [perform_eq_iff.2 hm] at hone
  exact ⟨s', w', rest, hone, hoffers'⟩

/-- A worker ends with the error of the fault that it finds. -/
theorem endsWith_of_fault (hfault : Fault E ready b err) (hready : s.system.isSome = ready)
    (hoffers : Link.Offers (Stream.Says .closed g) s.link b) : EndsWith c g s w err := by
  have hs := Stream.supplies ω .closed g
  rcases Request.size_calls with ⟨hwork, hsystem, hparameter⟩
  cases hfault with
  | tag whole unreserved =>
    rcases (Link.judges_recvTag hs).fails (w := w) hoffers (.inr ⟨whole, unreserved, rfl, rfl⟩) with
      ⟨l, hm, hoffers'⟩
    refine ⟨{ s with link := l }, w, _, ?_, hoffers'⟩
    unfold serveOne
    rw [perform_eq_iff.2 (meets_onLink_of hm)]
    rfl
  | @name b left e fails =>
    rcases serveOne_eq (c := c) (w := w) hoffers with ⟨l, hoffers₁, hone⟩
    rcases (Link.judges_recvText hs).fails (w := w) hoffers₁ fails with ⟨l', hm, hoffers'⟩
    have hanswer : Meets (answer c .work) { s with link := l } w (.error (.failed e))
        { s with link := l' } w :=
      meets_bind_of_error (meets_onLink_of (s := { s with link := l }) hm)
    rw [perform_eq_iff.2 hanswer] at hone
    dsimp only at hone
    rw [WorkerError.ofLink_of_text_fails fails] at hone
    exact ⟨{ s with link := l' }, w, left, hone, hoffers'⟩
  | @unknown name b size unknown =>
    rcases serveOne_eq (c := c) (w := w) hoffers with ⟨l, hoffers₁, hone⟩
    have hnot : name ≠ receiveSystemCall ∧ name ≠ receiveParameterCall ∧ name ≠ workCall := by
      simpa [Request.callNames] using unknown
    have hreads := Link.reads_recvText hs size
    rcases meets_reads (s := { s with link := l }) (w := w) hreads hoffers₁ with
      ⟨l', hname, hoffers'⟩
    have hanswer : Meets (answer c .work) { s with link := l } w
        (.error (.failed (.ofWorker (.protocol (.unknownFunction name))))) { s with link := l' }
        w := by
      unfold answer
      rw [meets_bind_of_ok hname, find_eq_error hnot.2.2 hnot.2.1 hnot.1]
      exact meets_throw.2 ⟨rfl, rfl, rfl⟩
    rw [perform_eq_iff.2 hanswer] at hone
    exact ⟨{ s with link := l' }, w, b, hone, hoffers'⟩
  | early needs without =>
    have hnone : s.system = none :=
      Option.isNone_iff_eq_none.1 (Option.isSome_eq_false_iff.1 (hready.trans without))
    rcases needs with rfl | rfl
    · refine endsWith_of_call hparameter find_receiveParameter hoffers fun l hoffers₁ => ?_
      exact ⟨_, { s with link := l }, w, _, meets_receiveParameter_of_none hnone, hoffers₁, rfl⟩
    · refine endsWith_of_call hwork find_work hoffers fun l hoffers₁ => ?_
      exact ⟨_, { s with link := l }, w, _, meets_work_of_none hnone, hoffers₁, rfl⟩
  | @text b left e fails =>
    refine endsWith_of_call hsystem find_receiveSystem hoffers fun l hoffers₁ => ?_
    rcases (Link.judges_recvText hs).fails (w := w) hoffers₁ fails with ⟨l', hm, hoffers'⟩
    refine ⟨e, { s with link := l' }, w, left, ?_, hoffers', WorkerError.ofLink_of_text_fails fails⟩
    exact meets_bind_of_error (meets_onLink_of (s := { s with link := l }) hm)
  | @system text b e size refused =>
    refine endsWith_of_call hsystem find_receiveSystem hoffers fun l hoffers₁ => ?_
    rcases (Link.reads_recvText hs size).whole (w := w) hoffers₁ with ⟨l', hm, hoffers'⟩
    have hcall := meets_receiveSystem_of_refused (s := { s with link := l }) hm refused
    have hback := (WorkerError.Solid.invalidExperiment e).crossed_eq
    exact ⟨_, { s with link := l' }, w, b, hcall, hoffers', hback⟩
  | @parameter b cut given =>
    refine endsWith_of_call hparameter find_receiveParameter hoffers fun l hoffers₁ => ?_
    rcases Option.isSome_iff_exists.1 (hready.trans given) with ⟨⟨x, digest⟩, hsystem⟩
    -- the seed is drawn before the parameter is read, so the read fails in the world behind it
    rcases (judges_receive hs 8).fails (w := (WorkerWorld.freshSeed w).2) hoffers₁ ⟨cut, rfl, rfl⟩
      with ⟨l', hm, hoffers'⟩
    have hread : Meets Link.recvReal l (WorkerWorld.freshSeed w).2 (.error (.failed .earlyEnd)) l'
        (WorkerWorld.freshSeed w).2 := meets_bind_of_error hm
    have hcall := meets_receiveParameter_of_error (s := { s with link := l }) hsystem hread
    exact ⟨_, _, _, [], hcall, hoffers', rfl⟩

/-! ## The first fault -/

/-- Behind requests in order a session has a system if it had one before or was given one. -/
theorem isSome_standing_course {qs : List Request} {ts : List Turn} {w' : ω}
    (horder : InOrder E ready qs) (hready : (standing (E := E) past).isSome = ready)
    (hcourse : course c.workUnit qs w = (ts, w')) :
    (standing (E := E) (ts.reverse ++ past)).isSome = (ready || Request.anySystem qs) := by
  -- a system stays once it is there, and the requests before decide about that
  induction qs generalizing ready past ts w with
  | nil =>
    cases hcourse
    rw [List.reverse_nil, List.nil_append, hready]
    exact (Bool.or_false ready).symm
  | cons q qs ih =>
    rcases horder with ⟨hserved, horder⟩
    rcases turn_of_served (c := c) (w := w) hserved hready with ⟨t, w₁, hturn, hready₁⟩
    rcases hrest : course c.workUnit qs w₁ with ⟨ts₁, w₂⟩
    rw [course, hturn] at hcourse
    simp only [hrest] at hcourse
    cases hcourse
    rw [List.reverse_cons, List.append_assoc, ← Request.readies_or]
    exact ih horder hready₁ hrest

/-- A worker serves the requests that come in order, and ends with the error of the fault that
comes behind them. -/
theorem serve_fault {qs : List Request} {rest : Bytes} {ts : List Turn} {n : ℕ} {w' : ω}
    (horder : InOrder E ready qs) (hready : (standing (E := E) past).isSome = ready)
    (hfault : Fault E (ready || Request.anySystem qs) rest err)
    (hcourse : course c.workUnit qs w = (ts, w')) (hfits : AllFit E c past ts)
    (hstands : s.Stands past)
    (hoffers : Link.Offers (Stream.Says .closed g) s.link (qs.flatMap Request.encode ++ rest))
    (hn : qs.length < n) :
    ∃ s' w'' replies rest', serve c n s w = (.ends (.error err), s', w'') ∧
      Replied E c past ts replies ∧
      Link.Offers (Stream.Says .closed (g ++ replies.flatten)) s'.link rest' := by
  rcases served_course horder hready hcourse hfits hstands hoffers with
    ⟨s₁, replies, hreplied, hoffers₁, hstands₁, hserve⟩
  have hready₁ := hstands₁.isSome.trans (isSome_standing_course horder hready hcourse)
  rcases endsWith_of_fault (c := c) (w := w') hfault hready₁ hoffers₁ with
    ⟨s', w'', rest', hone, hoffers'⟩
  refine ⟨s', w'', replies, rest', ?_, hreplied, hoffers'⟩
  -- one turn is left for the fault
  obtain ⟨m, rfl⟩ : ∃ m, n = qs.length + (m + 1) := ⟨n - qs.length - 1, by omega⟩
  rw [hserve, serve, hone]

/-- A worker that is sent requests in order, and then a fault, writes its reply to each of the
requests and ends with the error of the fault, whatever comes behind it. An error of the link
says that the bytes end too early, or that they are no message. -/
theorem first_fault_decides {x : Stream} {qs : List Request} {rest : Bytes} {ts : List Turn}
    {n : ℕ} {w' : ω} (hsaid : x.incoming.flatten = qs.flatMap Request.encode ++ rest)
    (hclosed : x.ending = .closed) (htakes : x.maxWrite ≠ some 0 ∧ x.room = none)
    (horder : InOrder E false qs) (hfault : Fault E (Request.anySystem qs) rest err)
    (hcourse : course c.workUnit qs w = (ts, w')) (hfits : AllFit E c [] ts)
    (hn : qs.length < n) :
    (∃ s' w'' replies,
      serve c n (Session.new x : Session Stream E) w = (.ends (.error err), s', w'') ∧
        Replied E c [] ts replies ∧ s'.link.remote.output = x.output ++ replies.flatten) ∧
      ∀ e, err = .link e → e = .earlyEnd ∧ e.kind = .unexpectedEof ∨ e.kind = .invalidData := by
  constructor
  · have hoffers : Link.Offers (Stream.Says .closed x.output)
        (Session.new x : Session Stream E).link (qs.flatMap Request.encode ++ rest) :=
      Link.offers_new ⟨hsaid, hclosed, rfl, htakes⟩
    rcases serve_fault horder rfl hfault hcourse hfits (stands_new x) hoffers hn with
      ⟨s', w'', replies, rest', hserve, hreplied, more, -, hstream⟩
    exact ⟨s', w'', replies, hserve, hreplied, hstream.written⟩
  · rintro e rfl
    -- an error of the link comes from a text that is cut or no text, or from a parameter that is
    -- cut
    have hlink : e = .earlyEnd ∨ e.kind = .invalidData := by
      cases hfault with
      | name fails => exact (Form.kind_of_text_fails fails).imp_right And.left
      | text fails => exact (Form.kind_of_text_fails fails).imp_right And.left
      | parameter cut given => exact .inl rfl
    rcases hlink with rfl | hkind
    · exact .inl ⟨rfl, rfl⟩
    · exact .inr hkind

/-- One request of every kind, and then a call that nobody knows. -/
def unknownAtLast : Bytes :=
  everyRequest.flatMap Request.encode ++ (Tag.work.toBytes ++ (Text.frame "rest" ++ [7]))

theorem unknown_call_decides :
    (∃ s' w'' replies,
      serve ⟨"w", 0⟩ 6 (Session.new (.ofPieces [unknownAtLast] .closed) : Session Stream Replay)
          (Ensemble.ofConfigs [] : Ensemble Replay) =
        (.ends (.error (.protocol (.unknownFunction "rest"))), s', w'') ∧
        Replied Replay ⟨"w", 0⟩ [] everyTurn replies ∧
          s'.link.remote.output = [] ++ replies.flatten) ∧
      ∀ e, WorkerError.protocol (.unknownFunction "rest") = .link e →
        e = .earlyEnd ∧ e.kind = .unexpectedEof ∨ e.kind = .invalidData := by
  have hsaid : (Stream.ofPieces [unknownAtLast] .closed).incoming.flatten =
      everyRequest.flatMap Request.encode ++ (Tag.work.toBytes ++ (Text.frame "rest" ++ [7])) := rfl
  have horder : InOrder Replay false everyRequest :=
    ⟨trivial, ⟨by decide, Replay.ones, Replay.ofText_onesText⟩, rfl, rfl, trivial, trivial⟩
  -- "rest" is none of the three calls
  have hfault : Fault Replay (Request.anySystem everyRequest)
      (Tag.work.toBytes ++ (Text.frame "rest" ++ [7])) (.protocol (.unknownFunction "rest")) :=
    .unknown (by decide) (by decide)
  exact first_fault_decides (x := .ofPieces [unknownAtLast] .closed) hsaid rfl ⟨nofun, rfl⟩ horder
    hfault rfl allFit_everyTurn (by decide)

end Worker

end FleetEstimate
