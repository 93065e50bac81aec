import FleetEstimate.Proofs.Wire.Messages
import FleetEstimate.Proofs.Worker.Protocol
import FleetEstimate.Worker

/-!
# Workers follow the protocol

Whatever a worker is sent, it answers complete requests one after the other, and its
session holds what the answered requests have given it. It may break off, also inside of an
answer, but it never says anything else.
-/

namespace FleetEstimate

/-! ## Results of any size -/

theorem utf8ByteSize_ofList_le (cs : List Char) :
    (String.ofList cs).utf8ByteSize ≤ 4 * cs.length := by
  induction cs with
  | nil => exact Nat.zero_le _
  | cons c cs ih =>
    rw [String.ofList_cons, String.utf8ByteSize_append, String.utf8ByteSize_singleton,
      List.length_cons]
    have hc := c.utf8Size_le_four
    omega

theorem Digest.size_toHex (d : Digest) : d.toHex.utf8ByteSize ≤ maxPayload := by
  have hle := utf8ByteSize_ofList_le
    (d.bytes.toList.flatMap fun b => [Bytes.hexDigit (b.toNat / 16), Bytes.hexDigit (b.toNat % 16)])
  have hlen : (d.bytes.toList.flatMap fun b =>
      [Bytes.hexDigit (b.toNat / 16), Bytes.hexDigit (b.toNat % 16)]).length = 64 := by simp
  rw [hlen] at hle
  exact hle.trans (by decide)

section Sending

variable {ω ρ : Type} [Remote ω ρ] {Log : ρ → Bytes → Bytes → Prop}

/-- A text that is too long is not sent, not even in part. -/
theorem Link.tells_sendText_long {t : String} (h : ¬ t.utf8ByteSize ≤ maxPayload) (c : Bytes) :
    Tells Log (sendText t : LinkM ω ρ Unit) c := by
  unfold sendText
  rw [if_neg h]
  exact tells_throw c

/-- A vector, if it is not too long, and otherwise none. -/
def Real64.fitting (xs : List Real64) : List Real64 := if 8 * xs.length ≤ maxPayload then xs else []

theorem Real64.size_fitting (xs : List Real64) : 8 * (fitting xs).length ≤ maxPayload := by
  unfold fitting
  split
  · assumption
  · exact Nat.zero_le _

theorem Link.tells_sendReals_fitting (hkeep : KeepsLog ω Log) (xs : List Real64) :
    Tells Log (sendReals xs : LinkM ω ρ Unit) (Real64.frame (Real64.fitting xs)) := by
  by_cases hsize : 8 * xs.length ≤ maxPayload
  · have hfit : Real64.fitting xs = xs := if_pos hsize
    rw [hfit]
    exact tells_sendReals hkeep xs
  · unfold sendReals
    rw [if_neg hsize]
    exact tells_throw _

/-- A result whose vectors are not too long. -/
def WorkResult.fitting (r : WorkResult) : WorkResult :=
  ⟨r.digest, r.parameter, ⟨Real64.fitting r.batch.sum, Real64.fitting r.batch.sumSq, r.batch.samples⟩⟩

theorem WorkResult.travels_fitting (d : Digest) (x : Real64) (t : Totals Real64) :
    (WorkResult.new d x t).fitting.Travels :=
  ⟨d.size_toHex, Real64.size_fitting _, Real64.size_fitting _⟩

theorem WorkResult.digest_fitting (d : Digest) (x : Real64) (t : Totals Real64) :
    (WorkResult.new d x t).fitting.digest = d.toHex := rfl

/-- Whatever is sent of a result begins one that is not too long. -/
theorem WorkResult.tells_send_fitting (hkeep : KeepsLog ω Log) (r : WorkResult) :
    Tells Log (send r : LinkM ω ρ Unit) r.fitting.encode := by
  refine (Link.tells_sendText hkeep _).bind fun _ => ?_
  refine (Link.tells_sendReal hkeep _).bind fun _ => ?_
  refine (Link.tells_sendReals_fitting hkeep _).bind fun _ => ?_
  exact (Link.tells_sendReals_fitting hkeep _).bind fun _ => tells_writeAll hkeep _

end Sending

/-! ## Sessions -/

namespace Session

variable {ω ρ E α : Type} {s s' : Session ρ E} {w w' : ω} {r : Except Halt α}

theorem meets_onLink {act : LinkM ω ρ α} :
    Meets (onLink act : SessionM ω ρ E α) s w r s' w' ↔
      ∃ l, Meets act s.link w r l w' ∧ s' = { s with link := l } := by
  unfold onLink
  rw [meets_getState_bind, meets_getWorld_bind]
  unfold Meets
  -- the exchange has failed or returned
  rcases (act.run.run s.link).run w with ⟨⟨e | a, l⟩, v⟩
  · constructor
    · intro h
      cases h
      exact ⟨l, rfl, rfl⟩
    · intro h
      rcases h with ⟨_, h, rfl⟩
      cases h
      rfl
  · constructor
    · intro h
      cases h
      exact ⟨l, rfl, rfl⟩
    · intro h
      rcases h with ⟨_, h, rfl⟩
      cases h
      rfl

/-- A session holds the digest of the text that it was given last. -/
def Holds (s : Session ρ E) (a : Holding) : Prop :=
  s.system.map Prod.snd = a.system.map fun text => Digest.of (Text.toBytes text)

theorem Holds.ready {a : Holding} (h : s.Holds a) {e : E} {digest : Digest}
    (hs : s.system = some (e, digest)) :
    ∃ text, a.system = some text ∧ Digest.of (Text.toBytes text) = digest := by
  rw [Holds, hs] at h
  cases hsystem : a.system with
  | none =>
    rw [hsystem] at h
    cases h
  | some text =>
    rw [hsystem] at h
    exact ⟨text, rfl, (Option.some.inj h).symm⟩

theorem holds_of_system {a : Holding} {e : E} {text : String}
    (hs : s.system = some (e, Digest.of (Text.toBytes text))) (ha : a.system = some text) :
    s.Holds a := by
  rw [Holds, hs, ha]
  rfl

end Session

/-! ## One request -/

namespace Worker

theorem perform_eq_iff {ω ρ E α : Type} {act : SessionM ω ρ E α} {s s' : Session ρ E} {w w' : ω}
    {r : Except Halt α} : perform act s w = (r, s', w') ↔ Meets act s w r s' w' := by
  unfold perform Meets
  rcases (act.run.run s).run w with ⟨⟨x, s₁⟩, w₁⟩
  constructor
  · intro h
    cases h
    rfl
  · intro h
    cases h
    rfl

open Session

variable {ω ρ E : Type} {s s' : Session ρ E} {w w' : ω} {r : Except Halt Bool}
variable {Log : ρ → Bytes → Bytes → Prop} {a : Holding} {g h : Bytes} {tag : Tag}

/-- After it has read a tag, a worker that has said `g` serves the request. -/
inductive Serves (Log : ρ → Bytes → Bytes → Prop) (a : Holding) (g h : Bytes) (tag : Tag)
    (s' : Session ρ E) : Except Halt Bool → Prop
  | answered {q reply} (isTag : q.tag = tag) (answer : Answer a q reply)
      (log : Link.Logs Log s'.link (g ++ reply) (h ++ q.body)) (holds : s'.Holds (a.after q)) :
      Serves Log a g h tag s' (.ok true)
  /-- It says nothing more. -/
  | silent {r heard} (log : Log s'.link.remote g heard) (ends : r ≠ .ok true) :
      Serves Log a g h tag s' r
  /-- It breaks off inside of an answer. -/
  | begun {e q reply said} (isTag : q.tag = tag) (answer : Answer a q reply) (begins : said <+: reply)
      (log : Link.Logs Log s'.link (g ++ said) (h ++ q.body)) : Serves Log a g h tag s' (.error e)

/-- A reply is sent, or begun. -/
theorem serves_of_tells {act : LinkM ω ρ Unit} {q : Request} {reply : Bytes}
    (hm : Meets (do onLink act; return true : SessionM ω ρ E Bool) s w r s' w')
    (htells : Tells Log act reply) (htag : q.tag = tag) (hanswer : Answer a q reply)
    (hlog : Link.Logs Log s.link g (h ++ q.body)) (hholds : s.Holds (a.after q)) :
    Serves Log a g h tag s' r := by
  rcases meets_bind.1 hm with ⟨⟨⟩, s₁, w₁, hsend, hreturn⟩ | ⟨e, rfl, hsend⟩
  · rcases meets_pure.1 hreturn with ⟨rfl, rfl, -⟩
    rcases meets_onLink.1 hsend with ⟨l, hsent, rfl⟩
    -- sent as a whole
    rcases htells hlog hsent with ⟨p, -, hlog', hp⟩
    rw [hp () rfl] at hlog'
    exact .answered htag hanswer hlog' hholds
  · rcases meets_onLink.1 hsend with ⟨l, hsent, rfl⟩
    -- or only begun, as the link failed
    rcases htells hlog hsent with ⟨p, hprefix, hlog', -⟩
    exact .begun htag hanswer hprefix hlog'

/-- Whatever fails while something is read leaves a worker silent. -/
theorem serves_of_receives [Remote ω ρ] {α : Type} {act : LinkM ω ρ α} {e : Halt} {heard : Bytes}
    (hact : Receives act) (hm : Meets (onLink act : SessionM ω ρ E α) s w (.error e) s' w')
    (hkeep : KeepsLog ω Log) (hlog : Link.Logs Log s.link g heard) :
    Serves Log a g h tag s' (.error e) := by
  rcases meets_onLink.1 hm with ⟨l, hread, rfl⟩
  rcases hact.silent hkeep hlog hread with ⟨_, hlog'⟩
  exact .silent hlog' (by simp)

/-- Whatever fails once a request was read leaves a worker silent. -/
theorem serves_of_throw {α : Type} {next : α → SessionM ω ρ E Bool} {e : Halt} {heard : Bytes}
    (hm : Meets (throw e >>= next : SessionM ω ρ E Bool) s w r s' w')
    (hlog : Link.Logs Log s.link g heard) : Serves Log a g h tag s' r := by
  rcases meets_throw_bind.1 hm with ⟨rfl, rfl, -⟩
  exact .silent hlog (by simp)

variable [Remote ω ρ]

theorem serves_name {name : String}
    (hm : Meets (do onLink (Link.sendText name); return true : SessionM ω ρ E Bool) s w r s' w')
    (hkeep : KeepsLog ω Log) (hlog : Link.Logs Log s.link g h) (hholds : s.Holds a) :
    Serves Log a g h .getName s' r := by
  by_cases hsize : name.utf8ByteSize ≤ maxPayload
  · have hbody : h ++ Request.name.body = h := List.append_nil h
    rw [← hbody] at hlog
    exact serves_of_tells hm (Link.tells_sendText hkeep name) rfl (.name name hsize) hlog hholds
  · -- a name that is too long is not begun, and the session ends
    have htells : Tells Log (Link.sendText name : LinkM ω ρ Unit) [] :=
      Link.tells_sendText_long hsize []
    rcases meets_bind.1 hm with ⟨⟨⟩, s₁, w₁, hsend, -⟩ | ⟨e, rfl, hsend⟩
    · rcases meets_onLink.1 hsend with ⟨l, hsent, rfl⟩
      exact absurd (Link.size_le_of_sendText hsent) hsize
    · rcases meets_onLink.1 hsend with ⟨l, hsent, rfl⟩
      rcases htells hlog hsent with ⟨p, hprefix, hlog', -⟩
      rw [List.prefix_nil.1 hprefix, List.append_nil] at hlog'
      exact .silent hlog' (by simp)

variable [Experiment E]

theorem serves_system
    (hm : Meets (do receiveSystem; return true : SessionM ω ρ E Bool) s w r s' w')
    (hkeep : KeepsLog ω Log) (hlog : Link.Logs Log s.link g (h ++ Text.frame receiveSystemCall)) :
    Serves Log a g h .work s' r := by
  unfold receiveSystem at hm
  rw [bind_assoc] at hm
  rcases meets_bind.1 hm with ⟨text, s₁, w₁, hon, hm⟩ | ⟨e, rfl, hon⟩
  · rcases meets_onLink.1 hon with ⟨l, hread, rfl⟩
    rcases Link.logs_recvText hkeep hlog hread with ⟨hsize, hlog'⟩
    -- a text that is no experiment ends the session without a reply
    cases hrebuilt : Experiment.ofText (E := E) text with
    | error e =>
      simp only [hrebuilt] at hm
      exact serves_of_throw hm hlog'
    | ok x =>
      simp only [hrebuilt] at hm
      rw [meets_modifyState_bind] at hm
      rcases meets_pure.1 hm with ⟨rfl, rfl, -⟩
      refine .answered (q := .system text) rfl (.system text hsize) ?_ rfl
      rw [List.append_nil, Request.body, ← List.append_assoc]
      exact hlog'
  · exact serves_of_receives Link.receives_recvText hon hkeep hlog

variable [WorkerWorld ω]

theorem serves_parameter
    (hm : Meets (do receiveParameter; return true : SessionM ω ρ E Bool) s w r s' w')
    (hkeep : KeepsLog ω Log) (hlog : Link.Logs Log s.link g (h ++ Text.frame receiveParameterCall))
    (hholds : s.Holds a) :
    Serves Log a g h .work s' r := by
  unfold receiveParameter at hm
  rw [bind_assoc, meets_getState_bind] at hm
  cases hsystem : s.system with
  | none =>
    simp only [hsystem] at hm
    -- there is no system to set the parameter of
    exact serves_of_throw hm hlog
  | some x =>
    rcases x with ⟨x, digest⟩
    rcases hholds.ready hsystem with ⟨text, htext, rfl⟩
    simp only [hsystem, bind_assoc] at hm
    rw [meets_getWorld_bind, meets_setWorld_bind, meets_modifyState_bind] at hm
    rcases meets_bind.1 hm with ⟨value, s₁, w₁, hon, hm⟩ | ⟨e, rfl, hon⟩
    · rcases meets_onLink.1 hon with ⟨l, hread, rfl⟩
      have hlog' := Link.logs_recvReal hkeep hlog hread
      rw [meets_modifyState_bind] at hm
      rcases meets_pure.1 hm with ⟨rfl, rfl, -⟩
      -- the coordinator knows of the system too
      have hready : a.system ≠ none := by
        rw [htext]
        exact Option.some_ne_none text
      refine .answered (q := .parameter value) rfl (.parameter value hready) ?_
        (holds_of_system rfl htext)
      rw [List.append_nil, Request.body, ← List.append_assoc]
      exact hlog'
    · exact serves_of_receives Link.receives_recvReal hon hkeep hlog

theorem serves_work {length : Nanoseconds}
    (hm : Meets (do work length; return true : SessionM ω ρ E Bool) s w r s' w')
    (hkeep : KeepsLog ω Log) (hlog : Link.Logs Log s.link g (h ++ Text.frame workCall))
    (hholds : s.Holds a) :
    Serves Log a g h .work s' r := by
  unfold work at hm
  rw [bind_assoc, meets_getState_bind] at hm
  cases hsystem : s.system with
  | none =>
    simp only [hsystem] at hm
    exact serves_of_throw hm hlog
  | some x =>
    rcases x with ⟨x, digest⟩
    rcases hholds.ready hsystem with ⟨text, htext, rfl⟩
    simp only [hsystem, bind_assoc] at hm
    rw [meets_getWorld_bind, meets_setWorld_bind] at hm
    -- whatever was sampled, the result has the digest of the system
    generalize sampleTimes _ x _ = sampled at hm
    rcases sampled with fault | ⟨totals, x'⟩
    · exact serves_of_throw hm hlog
    · dsimp only at hm
      rw [bind_assoc, meets_modifyState_bind] at hm
      have htravels := WorkResult.travels_fitting (.of (Text.toBytes text)) (Experiment.parameter x')
        totals
      have hdigest := WorkResult.digest_fitting (.of (Text.toBytes text)) (Experiment.parameter x')
        totals
      have hanswer := Answer.work text _ htext htravels hdigest
      exact serves_of_tells hm (WorkResult.tells_send_fitting hkeep _) rfl hanswer hlog
        (holds_of_system rfl htext)

/-- A call by name is served, or nobody knows it. -/
theorem serves_call {length : Nanoseconds} {name : String}
    (hm : Meets (do
        match (calls length).find name with
        | .ok call =>
          call
          return true
        | .error e => fail (.protocol e) : SessionM ω ρ E Bool) s w r s' w')
    (hkeep : KeepsLog ω Log) (hlog : Link.Logs Log s.link g (h ++ Text.frame name))
    (hholds : s.Holds a) :
    Serves Log a g h .work s' r := by
  unfold calls at hm
  -- the registry is gone through from the last entry to the first
  by_cases hwork : name = workCall
  · subst hwork
    rw [Registry.find_register_self] at hm
    exact serves_work hm hkeep hlog hholds
  rw [Registry.find_register_ne _ _ hwork] at hm
  by_cases hparameter : name = receiveParameterCall
  · subst hparameter
    rw [Registry.find_register_self] at hm
    exact serves_parameter hm hkeep hlog hholds
  rw [Registry.find_register_ne _ _ hparameter] at hm
  by_cases hsystem : name = receiveSystemCall
  · subst hsystem
    rw [Registry.find_register_self] at hm
    exact serves_system hm hkeep hlog
  rw [Registry.find_register_ne _ _ hsystem] at hm
  -- nobody knows the name
  rcases meets_throw.1 hm with ⟨rfl, rfl, -⟩
  exact .silent hlog (by simp)

/-- Every request is answered as the protocol says, or ends the session. -/
theorem serves_answer {c : WorkerConfig}
    (hm : Meets (answer c tag : SessionM ω ρ E Bool) s w r s' w') (hkeep : KeepsLog ω Log)
    (hlog : Link.Logs Log s.link g h) (hholds : s.Holds a) :
    Serves Log a g h tag s' r := by
  -- a tag is a request by itself, but for `work`, behind which a name comes
  cases tag with
  | getName => exact serves_name hm hkeep hlog hholds
  | getCpuTime =>
    unfold answer at hm
    rw [meets_getState_bind, meets_modifyState_bind] at hm
    have hbody : h ++ Request.busyTime.body = h := List.append_nil h
    rw [← hbody] at hlog
    have htells := Link.tells_sendReal (ω := ω) hkeep s.busy.seconds
    have hanswer : Answer a .busyTime s.busy.seconds.toBytes := .busyTime _
    exact serves_of_tells hm htells rfl hanswer hlog hholds
  | work =>
    unfold answer at hm
    rcases meets_bind.1 hm with ⟨name, s₁, w₁, hon, hm⟩ | ⟨e, rfl, hon⟩
    · rcases meets_onLink.1 hon with ⟨l, hread, rfl⟩
      rcases Link.logs_recvText hkeep hlog hread with ⟨-, hlog'⟩
      exact serves_call hm hkeep hlog' hholds
    · exact serves_of_receives Link.receives_recvText hon hkeep hlog
  | die =>
    rcases meets_pure.1 hm with ⟨rfl, rfl, -⟩
    exact .silent hlog (by simp)

/-! ## One request after the other -/

/-- A worker that has said `g` and read `h` of all that it is sent serves requests. -/
inductive Serviced (Log : ρ → Bytes → Bytes → Prop) (all : Bytes) (a : Holding) (g h : Bytes)
    (s' : Session ρ E) : Service → Prop
  | sofar {rs out service} (replies : Replies a rs out)
      (log : Link.Logs Log s'.link (g ++ out) (h ++ rs.flatMap Request.encode))
      (holds : s'.Holds (rs.foldl Holding.after a)) (goesOn : ∀ result, service ≠ .ends result) :
      Serviced Log all a g h s' service
  | ended {rs out said heard result} (replies : Replies a rs out)
      (sent : h ++ rs.flatMap Request.encode <+: all) (begins : said <+: out)
      (log : Log s'.link.remote (g ++ said) heard) : Serviced Log all a g h s' (.ends result)

variable {all : Bytes} {q : Request} {reply : Bytes} {service : Service} {c : WorkerConfig}

omit [Remote ω ρ] [Experiment E] [WorkerWorld ω] in
/-- A worker that has answered some requests serves more. -/
theorem Serviced.append {rs : List Request} {out : Bytes} (hreplies : Replies a rs out)
    (hrest : Serviced Log all (rs.foldl Holding.after a) (g ++ out)
      (h ++ rs.flatMap Request.encode) s' service) : Serviced Log all a g h s' service := by
  -- the requests so far come before those of the rest, whether that has ended or not
  cases hrest with
  | @sofar rs' out' _ replies log holds goesOn =>
    refine .sofar (replies_append_iff.2 ⟨out, out', rfl, hreplies, replies⟩) ?_ ?_ goesOn
    · rw [List.flatMap_append, ← List.append_assoc, ← List.append_assoc]
      exact log
    · rw [List.foldl_append]
      exact holds
  | @ended rs' out' said heard _ replies sent begins log =>
    rw [List.append_assoc] at log
    refine .ended (replies_append_iff.2 ⟨out, out', rfl, hreplies, replies⟩) ?_ ?_ log
    · rw [List.flatMap_append, ← List.append_assoc]
      exact sent
    · exact (List.prefix_append_right_inj out).2 begins

omit [Remote ω ρ] [Experiment E] [WorkerWorld ω] in
/-- A worker that has done nothing yet. -/
theorem serviced_refl (hlog : Link.Logs Log s.link g h) (hholds : s.Holds a)
    (hgoesOn : ∀ result, service ≠ .ends result) : Serviced Log all a g h s service := by
  refine .sofar .nil ?_ hholds hgoesOn
  rw [List.flatMap_nil, List.append_nil, List.append_nil]
  exact hlog

omit [Remote ω ρ] [Experiment E] [WorkerWorld ω] in
/-- A worker that breaks off before it says anything. -/
theorem serviced_silent {heard : Bytes} {result : Except WorkerError Unit} (hread : h <+: all)
    (hlog : Log s.link.remote g heard) : Serviced Log all a g h s (.ends result) := by
  rw [← List.append_nil g] at hlog
  refine .ended .nil ?_ List.prefix_rfl hlog
  rw [List.flatMap_nil, List.append_nil]
  exact hread

theorem encode_append (h : Bytes) (q : Request) :
    h ++ q.tag.toBytes ++ q.body = h ++ [q].flatMap Request.encode := by
  simp [Request.encode]

theorem replies_one (hanswer : Answer a q reply) : Replies a [q] reply := by
  have hone : Replies a [q] (reply ++ []) := .cons hanswer .nil
  rwa [List.append_nil] at hone

theorem serviced_serveOne (hserve : serveOne c s w = (service, s', w')) (hkeep : KeepsLog ω Log)
    (hall : ∀ x g h, Log x g h → h <+: all) (hlog : Link.Logs Log s.link g h)
    (hholds : s.Holds a) : Serviced Log all a g h s' service := by
  have hread : h <+: all := (List.prefix_append h s.link.unread).trans (hall _ _ _ hlog)
  unfold serveOne at hserve
  rcases htag : perform (onLink Link.recvTag) s w with ⟨x, s₁, w₁⟩
  rw [htag] at hserve
  rcases meets_onLink.1 (perform_eq_iff.1 htag) with ⟨l, hrecv, rfl⟩
  rcases x with (e | _) | tag
  · -- however the session ends in place of a tag, nothing was said
    rcases Link.receives_recvTag.silent hkeep hlog hrecv with ⟨heard, hheard⟩
    dsimp only at hserve
    split at hserve
    · cases hserve
      exact serviced_silent hread hheard
    · cases hserve
      exact serviced_silent hread hheard
  · cases hserve
    exact serviced_refl hlog hholds fun _ hends => by cases hends
  · have hlog₁ := Link.logs_recvTag hkeep hlog hrecv
    dsimp only at hserve
    rcases hanswer : perform (answer c tag : SessionM ω ρ E Bool) _ _ with ⟨y, s₂, w₂⟩
    rw [hanswer] at hserve
    have hserves := serves_answer (perform_eq_iff.1 hanswer) hkeep hlog₁ hholds
    cases hserves with
    | answered isTag hreply log holds =>
      subst isTag
      cases hserve
      rw [encode_append] at log
      exact .sofar (replies_one hreply) log holds fun _ hends => by cases hends
    | silent log hends =>
      rcases y with (e | _) | _ | _
      · cases hserve
        exact serviced_silent hread log
      · -- a request that is not complete is put back
        cases hserve
        exact serviced_refl hlog hholds fun _ hends => by cases hends
      · cases hserve
        exact serviced_silent hread log
      · exact absurd rfl hends
    | @begun e _ _ _ isTag hreply begins log =>
      subst isTag
      -- an answer that is begun but not finished may be the last thing that is said
      rcases e with e | _
      · cases hserve
        rw [encode_append] at log
        have hsent := (List.prefix_append _ _).trans (hall _ _ _ log)
        exact .ended (replies_one hreply) hsent begins log
      · cases hserve
        exact serviced_refl hlog hholds fun _ hends => by cases hends

/-- A worker that serves any number of requests follows the protocol. -/
theorem serviced_serve {requests : ℕ} (hserve : serve c requests s w = (service, s', w'))
    (hkeep : KeepsLog ω Log) (hall : ∀ x g h, Log x g h → h <+: all)
    (hlog : Link.Logs Log s.link g h) (hholds : s.Holds a) :
    Serviced Log all a g h s' service := by
  induction requests generalizing s w a g h with
  | zero =>
    cases hserve
    exact serviced_refl hlog hholds fun _ hends => by cases hends
  | succ requests ih =>
    rw [serve] at hserve
    rcases hone : serveOne c s w with ⟨service₁, s₁, w₁⟩
    rw [hone] at hserve
    have hfirst := serviced_serveOne hone hkeep hall hlog hholds
    cases service₁ with
    | goesOn =>
      -- what was served first has left the log and the session ready for the rest
      cases hfirst with
      | sofar replies log holds _ => exact (ih hserve log holds).append replies
    | ends result =>
      cases hserve
      exact hfirst
    | stalled =>
      cases hserve
      exact hfirst

end Worker

end FleetEstimate
