import FleetEstimate.Proofs.Wire.Encodings
import FleetEstimate.Rehearsal.Player

/-!
# The protocol of workers

A worker answers requests one after the other. What it answers depends on what it holds:
the text of a system, once it was given one, and the parameter that was set since. A
coordinator that has read the answers to some requests, and reads on, gets the answer to
the next one and to no other.
-/

namespace FleetEstimate

/-! ## Requests -/

namespace Request

def tag : Request → Tag
  | .name => .getName
  | .busyTime => .getCpuTime
  | .die => .die
  | _ => .work

/-- What follows the tag of a request. -/
def body : Request → Bytes
  | .work => Text.frame workCall
  | .system text => Text.frame receiveSystemCall ++ Text.frame text
  | .parameter value => Text.frame receiveParameterCall ++ value.toBytes
  | .other call => Text.frame call
  | _ => []

/-- The bytes of a request. -/
def encode (q : Request) : Bytes := q.tag.toBytes ++ q.body

/-- A request that workers know, with a text that is not too long. -/
def Travels : Request → Prop
  | .system text => text.utf8ByteSize ≤ maxPayload
  | .other _ => False
  | _ => True

theorem encode_ne_nil (q : Request) : q.encode ≠ [] := by
  intro h
  have hlen := congrArg List.length h
  rw [encode, List.length_append, Tag.length_toBytes] at hlen
  simp at hlen

theorem size_calls :
    workCall.utf8ByteSize ≤ maxPayload ∧ receiveSystemCall.utf8ByteSize ≤ maxPayload ∧
      receiveParameterCall.utf8ByteSize ≤ maxPayload := by decide

theorem calls_ne :
    workCall ≠ receiveSystemCall ∧ workCall ≠ receiveParameterCall ∧
      receiveSystemCall ≠ receiveParameterCall := by decide

theorem encode_append_inj {q q' : Request} {x y : Bytes} (hq : q.Travels) (hq' : q'.Travels)
    (h : q.encode ++ x = q'.encode ++ y) : q = q' ∧ x = y := by
  unfold encode at h
  rw [List.append_assoc, List.append_assoc] at h
  rcases Tag.toBytes_append_inj h with ⟨htag, hbody⟩
  rcases size_calls with ⟨hwork, hsystem, hparameter⟩
  rcases calls_ne with ⟨hws, hwp, hsp⟩
  -- requests of different tags are told apart at once; of those that share the tag of a call, the
  -- name of the call tells
  cases q <;> cases q' <;> simp only [tag, reduceCtorEq] at htag <;>
    simp only [body, List.append_assoc] at hbody
  case other.other | other.work | other.system | other.parameter => exact hq.elim
  case work.other | system.other | parameter.other => exact hq'.elim
  case name.name | busyTime.busyTime | die.die => exact ⟨rfl, hbody⟩
  case work.work => exact ⟨rfl, (Text.frame_append_inj hwork hwork hbody).2⟩
  case system.system t u =>
    have hargument := (Text.frame_append_inj hsystem hsystem hbody).2
    rcases Text.frame_append_inj hq hq' hargument with ⟨rfl, hxy⟩
    exact ⟨rfl, hxy⟩
  case parameter.parameter a b =>
    have hargument := (Text.frame_append_inj hparameter hparameter hbody).2
    rcases Real64.toBytes_append_inj hargument with ⟨rfl, hxy⟩
    exact ⟨rfl, hxy⟩
  case work.system => exact absurd (Text.frame_append_inj hwork hsystem hbody).1 hws
  case work.parameter => exact absurd (Text.frame_append_inj hwork hparameter hbody).1 hwp
  case system.work => exact absurd (Text.frame_append_inj hsystem hwork hbody).1 hws.symm
  case system.parameter => exact absurd (Text.frame_append_inj hsystem hparameter hbody).1 hsp
  case parameter.work => exact absurd (Text.frame_append_inj hparameter hwork hbody).1 hwp.symm
  case parameter.system =>
    exact absurd (Text.frame_append_inj hparameter hsystem hbody).1 hsp.symm

/-- What was asked first can be told from the bytes. -/
theorem isPrefix_of_flatMap_encode {rs qs : List Request} (hrs : ∀ q ∈ rs, q.Travels)
    (hqs : ∀ q ∈ qs, q.Travels) (h : rs.flatMap encode <+: qs.flatMap encode) : rs <+: qs := by
  induction rs generalizing qs with
  | nil => exact List.nil_prefix
  | cons r rs ih =>
    rcases h with ⟨x, hx⟩
    cases qs with
    | nil =>
      rw [List.flatMap_cons, List.flatMap_nil, List.append_assoc, List.append_eq_nil_iff] at hx
      exact absurd hx.1 (encode_ne_nil r)
    | cons q qs =>
      rw [List.flatMap_cons, List.flatMap_cons, List.append_assoc] at hx
      have hr : r.Travels := hrs r List.mem_cons_self
      have hq : q.Travels := hqs q List.mem_cons_self
      -- the first requests are equal, and the others by induction
      rcases encode_append_inj hr hq hx with ⟨rfl, hrest⟩
      have hrs' : ∀ q ∈ rs, q.Travels := fun q hq => hrs q (List.mem_cons_of_mem r hq)
      have hqs' : ∀ q ∈ qs, q.Travels := fun q hq => hqs q (List.mem_cons_of_mem r hq)
      exact (List.prefix_cons_inj r).2 (ih hrs' hqs' ⟨x, hrest⟩)

end Request

/-! ## Answers -/

/-- What a worker holds: the text of its system and the parameter set since, if any. -/
structure Holding where
  system : Option String
  parameter : Option Real64
deriving DecidableEq

namespace Holding

/-- A worker before its first request. -/
def nothing : Holding := ⟨none, none⟩

/-- What a worker holds after another request. -/
def after (a : Holding) : Request → Holding
  | .system text => ⟨some text, none⟩
  | .parameter value => { a with parameter := some value }
  | _ => a

end Holding

/-- What a worker holds after some requests. -/
def held (rs : List Request) : Holding := rs.foldl Holding.after .nothing

/-- A worker that holds `a` answers the request `q` with these bytes. -/
inductive Answer (a : Holding) : Request → Bytes → Prop
  | name (name : String) (size : name.utf8ByteSize ≤ maxPayload) : Answer a .name (Text.frame name)
  | busyTime (time : Real64) : Answer a .busyTime time.toBytes
  | system (text : String) (size : text.utf8ByteSize ≤ maxPayload) : Answer a (.system text) []
  | parameter (value : Real64) (ready : a.system ≠ none) : Answer a (.parameter value) []
  | work (text : String) (r : WorkResult) (holds : a.system = some text) (travels : r.Travels)
      (digest : r.digest = (Digest.of (Text.toBytes text)).toHex) : Answer a .work r.encode

/-- A worker that holds `a` answers some requests with these bytes. -/
inductive Replies : Holding → List Request → Bytes → Prop
  | nil {a : Holding} : Replies a [] []
  | cons {a : Holding} {q : Request} {rs : List Request} {reply out : Bytes}
      (answer : Answer a q reply) (rest : Replies (a.after q) rs out) :
      Replies a (q :: rs) (reply ++ out)

/-- A worker that was given some bytes and has said others follows the protocol: it has
answered requests that it was given, perhaps not all of them, and what it has said so far
begins its answers. -/
def FollowsProtocol (given said : Bytes) : Prop :=
  ∃ rs out, rs.flatMap Request.encode <+: given ∧ Replies .nothing rs out ∧ said <+: out

section Replies

variable {a : Holding} {q : Request} {rs rs' : List Request} {c c' x y out : Bytes}

theorem Answer.travels (h : Answer a q c) : q.Travels := by
  cases h with
  | system text size => exact size
  | _ => exact trivial

theorem Replies.travels (h : Replies a rs out) : ∀ q ∈ rs, q.Travels := by
  induction h with
  | nil =>
    intro q hq
    cases hq
  | cons answer _ ih =>
    intro q hq
    rcases List.mem_cons.1 hq with rfl | hq
    · exact answer.travels
    · exact ih q hq

theorem replies_append_iff :
    Replies a (rs ++ rs') out ↔ ∃ first last, out = first ++ last ∧ Replies a rs first ∧
      Replies (rs.foldl Holding.after a) rs' last := by
  -- over the first requests; what is held after them is what the others are answered from
  induction rs generalizing a out with
  | nil =>
    constructor
    · intro h
      exact ⟨[], out, rfl, .nil, h⟩
    · intro h
      rcases h with ⟨first, last, rfl, hfirst, hlast⟩
      cases hfirst
      exact hlast
  | cons q rs ih =>
    constructor
    · intro h
      cases h with
      | cons answer rest =>
        rcases ih.1 rest with ⟨first, last, rfl, hfirst, hlast⟩
        exact ⟨_, last, (List.append_assoc _ _ _).symm, .cons answer hfirst, hlast⟩
    · intro h
      rcases h with ⟨first, last, rfl, hfirst, hlast⟩
      cases hfirst with
      | cons answer rest =>
        rw [List.append_assoc]
        exact .cons answer (ih.2 ⟨_, last, rfl, rest, hlast⟩)

theorem Replies.snoc (h : Replies .nothing rs out) (answer : Answer (held rs) q c) :
    Replies .nothing (rs ++ [q]) (out ++ c) := by
  refine replies_append_iff.2 ⟨out, c, rfl, h, ?_⟩
  have hone := Replies.cons answer .nil
  rwa [List.append_nil] at hone

theorem held_append (rs : List Request) (q : Request) : held (rs ++ [q]) = (held rs).after q := by
  rw [held, List.foldl_append]
  rfl

/-- The form of the answers to a request, whatever a worker holds. -/
def Request.Form : Request → Bytes → Prop
  | .name, c => ∃ name : String, name.utf8ByteSize ≤ maxPayload ∧ c = Text.frame name
  | .busyTime, c => ∃ time : Real64, c = time.toBytes
  | .work, c => ∃ r : WorkResult, r.Travels ∧ c = r.encode
  | _, c => c = []

/-- A request with a reply that can be seen. -/
def Request.HasReply : Request → Prop
  | .name | .busyTime | .work => True
  | _ => False

theorem Request.Form.ne_nil (h : q.Form c) (hq : q.HasReply) : c ≠ [] := by
  intro hnil
  cases q with
  | name =>
    rcases h with ⟨name, -, rfl⟩
    have hlen := congrArg List.length hnil
    rw [Text.frame, List.length_append, Bytes.length_bigEndian] at hlen
    simp at hlen
  | busyTime =>
    rcases h with ⟨time, rfl⟩
    have hlen := time.length_toBytes
    rw [hnil] at hlen
    cases hlen
  | work =>
    rcases h with ⟨r, -, rfl⟩
    exact r.encode_ne_nil hnil
  -- the others have no reply
  | _ => exact hq.elim

theorem Answer.form (h : Answer a q c) : q.Form c := by
  cases h with
  | name name size => exact ⟨name, size, rfl⟩
  | busyTime time => exact ⟨time, rfl⟩
  | system => exact rfl
  | parameter => exact rfl
  | work text r holds travels digest => exact ⟨r, travels, rfl⟩

theorem Request.Form.unique (h : q.Form c) (h' : q.Form c') (heq : c ++ x = c' ++ y) :
    c = c' ∧ x = y := by
  cases q with
  | name =>
    rcases h with ⟨n, hn, rfl⟩
    rcases h' with ⟨n', hn', rfl⟩
    rcases Text.frame_append_inj hn hn' heq with ⟨rfl, hxy⟩
    exact ⟨rfl, hxy⟩
  | busyTime =>
    rcases h with ⟨t, rfl⟩
    rcases h' with ⟨t', rfl⟩
    rcases Real64.toBytes_append_inj heq with ⟨rfl, hxy⟩
    exact ⟨rfl, hxy⟩
  | work =>
    rcases h with ⟨r, hr, rfl⟩
    rcases h' with ⟨r', hr', rfl⟩
    rcases WorkResult.encode_append_inj hr hr' heq with ⟨rfl, hxy⟩
    exact ⟨rfl, hxy⟩
  | _ =>
    -- a request without a reply
    obtain rfl : c = [] := h
    obtain rfl : c' = [] := h'
    exact ⟨rfl, heq⟩

/-- The last of some requests has a reply. Whoever has read it knows that all of them were
served, also those that have no reply. -/
def Confirmed (qs : List Request) : Prop := ∀ q ∈ qs.getLast?, q.HasReply

theorem confirmed_nil : Confirmed [] := by
  intro q hq
  cases hq

theorem confirmed_append (qs : List Request) (hq : q.HasReply) : Confirmed (qs ++ [q]) := by
  intro q' hq'
  rw [List.getLast?_concat] at hq'
  cases hq'
  exact hq

theorem Confirmed.tail (h : Confirmed (q :: rs)) : Confirmed rs := by
  cases rs with
  | nil => exact confirmed_nil
  | cons q' rs =>
    intro q'' hq''
    refine h q'' ?_
    rw [List.getLast?_cons_cons]
    exact hq''

theorem Replies.ne_nil (h : Replies a rs out) (hconfirmed : Confirmed rs) (hne : rs ≠ []) :
    out ≠ [] := by
  rcases List.eq_nil_or_concat rs with hnil | ⟨before, q, hconcat⟩
  · exact absurd hnil hne
  · rw [List.concat_eq_append] at hconcat
    subst hconcat
    have hreply : q.HasReply := hconfirmed q List.getLast?_concat
    rcases replies_append_iff.1 h with ⟨first, last, rfl, -, hlast⟩
    cases hlast with
    | cons answer _ =>
      intro hnil
      rw [List.append_eq_nil_iff, List.append_eq_nil_iff] at hnil
      exact answer.form.ne_nil hreply hnil.2.1

/-- The answers to some requests end where they end, also for a worker that holds
something else. -/
theorem Replies.unique {b : Holding} {out' : Bytes} (h : Replies a rs out)
    (h' : Replies b rs out') (heq : out ++ x = out' ++ y) : out = out' ∧ x = y := by
  induction h generalizing b out' with
  | nil =>
    cases h'
    exact ⟨rfl, heq⟩
  | cons answer _ ih =>
    cases h' with
    | cons answer' rest' =>
      rw [List.append_assoc, List.append_assoc] at heq
      rcases answer.form.unique answer'.form heq with ⟨hreply, hrest⟩
      rcases ih rest' hrest with ⟨hout, hxy⟩
      exact ⟨by rw [hreply, hout], hxy⟩

end Replies

/-! ## What is still to be read -/

section Reading

variable {done owed : List Request} {h u c : Bytes} {q : Request}

/-- Behind the answers to the requests that are done, nothing comes but answers to those
that are owed. -/
theorem FollowsProtocol.unread (hdone : Replies .nothing done h) (howed : ∀ q ∈ owed, q.Travels)
    (hfollows : FollowsProtocol ((done ++ owed).flatMap Request.encode) (h ++ u)) :
    ∃ answered out, answered <+: owed ∧ Replies (held done) answered out ∧ u <+: out := by
  rcases hfollows with ⟨rs, out, hgiven, hreplies, rest, hsaid⟩
  have htravels : ∀ q ∈ done ++ owed, q.Travels := by
    intro q hq
    rcases List.mem_append.1 hq with hq | hq
    · exact hdone.travels q hq
    · exact howed q hq
  have hprefix : rs <+: done ++ owed :=
    Request.isPrefix_of_flatMap_encode hreplies.travels htravels hgiven
  rcases List.prefix_or_prefix_of_prefix hprefix (List.prefix_append done owed) with
    ⟨more, hmore⟩ | ⟨answered, hanswered⟩
  · -- the worker is still busy with what is done: these answers are all there is
    subst hmore
    rcases replies_append_iff.1 hdone with ⟨first, last, rfl, hfirst, hlast⟩
    have heq : first ++ (last ++ u ++ rest) = out ++ [] := by
      rw [List.append_nil, ← hsaid]
      simp only [List.append_assoc]
    have hnone := (hfirst.unique hreplies heq).2
    simp only [List.append_eq_nil_iff] at hnone
    rcases hnone with ⟨⟨-, rfl⟩, -⟩
    exact ⟨[], [], List.nil_prefix, .nil, List.prefix_rfl⟩
  · -- the worker has gone on: behind the answers to what is done come further ones
    subst hanswered
    rcases replies_append_iff.1 hreplies with ⟨first, last, rfl, hfirst, hlast⟩
    rw [List.append_assoc] at hsaid
    have hrest := (hdone.unique hfirst hsaid).2
    exact ⟨answered, last, (List.prefix_append_right_inj done).1 hprefix, hlast, rest, hrest⟩

theorem FollowsProtocol.unread_eq_nil (hdone : Replies .nothing done h)
    (hfollows : FollowsProtocol (done.flatMap Request.encode) (h ++ u)) : u = [] := by
  rw [← List.append_nil done] at hfollows
  rcases hfollows.unread hdone (fun _ hq => absurd hq List.not_mem_nil) with
    ⟨answered, out, hanswered, hreplies, hu⟩
  obtain rfl := List.prefix_nil.1 hanswered
  cases hreplies
  exact List.prefix_nil.1 hu

/-- What is read in the form of an answer to the only owed request is that answer, and
nothing comes behind it. -/
theorem FollowsProtocol.answer (hdone : Replies .nothing done h) (hq : q.Travels)
    (hfollows : FollowsProtocol ((done ++ [q]).flatMap Request.encode) (h ++ (c ++ u)))
    (hform : q.Form c) (hne : c ≠ []) : Answer (held done) q c ∧ u = [] := by
  have howed : ∀ r ∈ [q], r.Travels := by
    intro r hr
    rw [List.mem_singleton.1 hr]
    exact hq
  rcases hfollows.unread hdone howed with ⟨answered, out, hanswered, hreplies, hu⟩
  rcases hu with ⟨rest, hout⟩
  cases hreplies with
  | nil =>
    -- without an answer nothing could have been read
    rw [List.append_eq_nil_iff, List.append_eq_nil_iff] at hout
    exact absurd hout.1.1 hne
  | @cons _ q' rs reply out answer rest' =>
    rcases hanswered with ⟨more, hmore⟩
    rw [List.cons_append, List.cons.injEq, List.append_eq_nil_iff] at hmore
    rcases hmore with ⟨rfl, rfl, -⟩
    cases rest'
    have heq : c ++ (u ++ rest) = reply ++ [] := by
      rw [← hout, List.append_assoc]
    rcases hform.unique answer.form heq with ⟨rfl, hnone⟩
    exact ⟨answer, (List.append_eq_nil_iff.1 hnone).1⟩

end Reading

end FleetEstimate
