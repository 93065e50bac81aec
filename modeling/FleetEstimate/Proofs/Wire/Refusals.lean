import FleetEstimate.Proofs.Wire.RoundTrip
import FleetEstimate.Proofs.Wire.Shortage

/-!
# What a refused message leaves behind

A message is sent part by part, and whether a part is too long is looked at when its turn
comes. A text or a vector is one part: if it is refused, nothing of it has been written. A
call has its tag in front of the name, and a work result its digest and parameter in front of
its vectors, and these parts have been written when a later one is refused. They are whole, so
that whoever reads them is at the beginning of the next part.
-/

namespace FleetEstimate.Message

/-- What a message is sent as, part by part. -/
def parts : Message → List Message
  | .call name => [.tag .work, .text name]
  | .result r => [.text r.digest, .real r.parameter, .reals r.batch.sum, .reals r.batch.sumSq,
      .doubleWord r.batch.samples]
  | m => [m]

/-- The bytes in the body of a text or a vector. -/
def bodySize : Message → ℕ
  | .text t => t.utf8ByteSize
  | .reals xs => 8 * xs.length
  | _ => 0

variable {m p : Message} {before after : List Message}

theorem fits_iff_parts : m.Fits ↔ ∀ p ∈ m.parts, p.Fits := by
  cases m with
  | call name =>
    simp only [parts, List.forall_mem_cons, List.not_mem_nil, false_implies, implies_true, and_true]
    exact (and_iff_right trivial).symm
  | result r =>
    simp only [parts, List.forall_mem_cons, List.not_mem_nil, false_implies, implies_true, and_true]
    constructor
    · intro h
      exact ⟨h.digest, trivial, h.sum, h.sumSq, trivial⟩
    · intro h
      exact ⟨h.1, h.2.2.1, h.2.2.2.1⟩
  | tag | word | doubleWord | real | plain | text | reals =>
    simp only [parts, List.forall_mem_singleton]

section Sending

variable {ω ρ : Type} [Remote ω ρ]

theorem sendAll_parts (m : Message) : (sendAll m.parts : LinkM ω ρ Unit) = m.send := by
  -- the returns at the ends of the two sequences are all that differs
  have hlast (act : LinkM ω ρ Unit) : (do act; return) = act := bind_pure act
  cases m with
  | call name =>
    show (do Link.sendTag .work; Link.sendText name; return : LinkM ω ρ Unit) = _
    rw [hlast]
    rfl
  | result r =>
    show (do Link.sendText r.digest; Link.sendReal r.parameter; Link.sendReals r.batch.sum
             Link.sendReals r.batch.sumSq; Link.sendUInt64 r.batch.samples; return
          : LinkM ω ρ Unit) = _
    rw [hlast]
    rfl
  | tag | word | doubleWord | real | plain | text | reals => exact hlast _

theorem sendAll_append (ms ms' : List Message) :
    (sendAll (ms ++ ms') : LinkM ω ρ Unit) = (do sendAll ms; sendAll ms') := by
  induction ms with
  | nil => exact (pure_bind () fun _ => (sendAll ms' : LinkM ω ρ Unit)).symm
  | cons m ms ih => rw [List.cons_append, sendAll, sendAll, ih, bind_assoc]

/-- A part that is too long is refused before anything is written. -/
theorem send_part (hp : p ∈ m.parts) (hlong : ¬ p.Fits) :
    (p.send : LinkM ω ρ Unit) = Link.fail (.tooLong p.bodySize maxPayload) := by
  cases p with
  | text t => exact if_neg hlong
  | reals xs => exact if_neg hlong
  | call name => cases m <;> simp [parts] at hp
  | result r => cases m <;> simp [parts] at hp
  | tag | word | doubleWord | real | plain => exact absurd trivial hlong

/-- A message is refused at its first part that is too long, behind the parts in front of it. -/
theorem send_eq_of_parts (hparts : m.parts = before ++ p :: after) (hlong : ¬ p.Fits) :
    (m.send : LinkM ω ρ Unit) = (do
      sendAll before
      Link.fail (.tooLong p.bodySize maxPayload)) := by
  have hp : p ∈ m.parts := by simp [hparts]
  rw [← sendAll_parts, hparts, sendAll_append, sendAll, send_part hp hlong]
  rfl

end Sending

/-- A message that is refused has a first part that is too long. -/
theorem exists_parts_of_not_fits (hm : ¬ m.Fits) :
    ∃ before p after, m.parts = before ++ p :: after ∧ (∀ q ∈ before, q.Fits) ∧ ¬ p.Fits := by
  rw [fits_iff_parts] at hm
  rcases hfind : m.parts.find? (fun p => decide (¬ p.Fits)) with _ | p
  · refine absurd (fun p hp => ?_) hm
    simpa using List.find?_eq_none.1 hfind p hp
  · rcases List.find?_eq_some_iff_append.1 hfind with ⟨hp, before, after, hparts, hbefore⟩
    refine ⟨before, p, after, hparts, fun q hq => ?_, by simpa using hp⟩
    simpa using hbefore q hq

/-- Only a plain value without width has no bytes. -/
theorem eq_plain_of_encode_eq_nil (h : m.encode = []) : m = .plain [] := by
  -- whatever has a head or a fixed length has bytes
  have hframe {head : ℕ} {body : Bytes} (hnil : Bytes.bigEndian 8 head ++ body = []) : False := by
    have hlen := Bytes.length_bigEndian 8 head
    rw [(List.append_eq_nil_iff.1 hnil).1] at hlen
    cases hlen
  have hfixed {n : ℕ} {bytes : Bytes} (hlen : bytes.length = n + 1) (hnil : bytes = []) : False :=
    List.ne_nil_of_length_eq_add_one hlen hnil
  cases m with
  | tag t => exact (hfixed t.length_toBytes h).elim
  | word n => exact (hfixed (Bytes.length_littleEndian 4 _) h).elim
  | doubleWord n => exact (hfixed (Bytes.length_littleEndian 8 _) h).elim
  | real x => exact (hfixed x.length_toBytes h).elim
  | plain bytes => exact congrArg plain h
  | text t => exact (hframe h).elim
  | reals xs => exact (hframe h).elim
  | call name => exact (hframe (List.append_eq_nil_iff.1 h).2).elim
  | result r => exact (r.encode_ne_nil h).elim

/-- Of the parts of a message that is refused, none is sent without bytes. -/
theorem encode_part_ne_nil (hm : ¬ m.Fits) (hp : p ∈ m.parts) : p.encode ≠ [] := by
  intro hnil
  rw [eq_plain_of_encode_eq_nil hnil] at hp
  cases m with
  | plain bytes => exact hm trivial
  | tag | word | doubleWord | real | text | reals | call | result => simp [parts] at hp

/-! ## Both ends -/

section Ends

variable {ω ρ : Type} [Remote ω ρ] {Room : ρ → Bytes → ℕ → Prop} {Rest : ρ → Bytes → Prop}
variable {ending : Ending} {l : Link ρ} {w : ω} {c given rest : Bytes} {room : ℕ}

omit [Remote ω ρ] in
/-- What is refused behind other bytes is not written, and these are written if there is room
for them. -/
theorem meets_fail_behind {act : LinkM ω ρ Unit} (hact : Fills Room act c) (e : LinkError)
    (hroom : Room l.remote given room) :
    ∃ l' w', Meets (do act; Link.fail e : LinkM ω ρ Unit) l w
        (.error (.failed (if c.length ≤ room then e else .bare .writeZero))) l' w' ∧
      Room l'.remote (given ++ c.take room) (room - c.length) := by
  rcases hact (w := w) hroom with ⟨l', w', hm, hroom'⟩
  refine ⟨l', w', ?_, hroom'⟩
  unfold outcome at hm
  split
  · rename_i hfits
    rw [if_pos hfits] at hm
    rw [meets_bind_of_ok hm]
    exact meets_throw.2 ⟨rfl, rfl, rfl⟩
  · -- no room for what comes before: that is what fails
    rename_i hshort
    rw [if_neg hshort] at hm
    exact meets_bind_of_error hm

theorem heard_of_no_looks (rest : Bytes) (ms : List Message) :
    heard rest (ms.map fun m => (0, m)) = ms.map fun m => ([], m) := by
  induction ms with
  | nil => rfl
  | cons m ms ih => rw [List.map_cons, heard, ih, List.replicate_zero, List.map_cons]

/-- Messages in a row are received, also by who takes no look before any of them. -/
theorem meets_recvAll_of_kinds (hs : Supplies ω Rest ending) {ms : List Message}
    (hms : ∀ m ∈ ms, m.Fits) (hoffers : Link.Offers Rest l (ms.flatMap encode ++ rest)) :
    ∃ l', Meets (Kind.recvAll (ms.map fun m => (0, m.kind))) l w
        (.ok (ms.map fun m => ([], m))) l' w ∧ Link.Offers Rest l' rest := by
  have hturns : ∀ t ∈ ms.map (fun m => (0, m)), t.2.Fits := by
    simpa using hms
  -- nobody looks before any of them
  have hlooks : ∀ x ∈ heard rest (ms.map fun m => (0, m)), false ∉ x.1 := by
    intro x hx
    rw [heard_of_no_looks] at hx
    rcases List.mem_map.1 hx with ⟨m, -, rfl⟩
    exact List.not_mem_nil
  have hbytes : (ms.map fun m => (0, m)).flatMap (fun t => t.2.encode) = ms.flatMap encode := by
    rw [List.flatMap_map]
  rw [← hbytes] at hoffers
  rcases meets_recvAll (w := w) hs hturns (.inr hlooks) hoffers with ⟨l', hm, hoffers'⟩
  rw [List.map_map, heard_of_no_looks] at hm
  exact ⟨l', hm, hoffers'⟩

end Ends

/-! ## A refused message -/

/-- A name with one letter more than can be sent. -/
def lengthyName : String := String.ofList (List.replicate (maxPayload + 1) 'a')

theorem size_lengthyName : lengthyName.utf8ByteSize = maxPayload + 1 := by
  have hone : Char.utf8Size 'a' = 1 := rfl
  rw [lengthyName, ← Text.length_toBytes, Text.toBytes_ofList]
  simp [List.length_flatMap, hone]

theorem lengthyName_too_long : ¬ lengthyName.utf8ByteSize ≤ maxPayload := by
  rw [size_lengthyName]
  omega

/-- A message with a part that is too long is refused at the first such part. Behind the parts
in front of it nothing is written, and these parts are whole, unless the far end has no room
for them: who receives them gets each of them, and then whatever is sent next. So a refused
message leaves no trace exactly if its first part is the one that is too long, as it is with a
text or a vector. -/
theorem refused_behind_whole_parts (hm : ¬ m.Fits) :
    ∃ before p after, m.parts = before ++ p :: after ∧ (∀ q ∈ before, q.Fits) ∧ ¬ p.Fits ∧
      (before.flatMap encode = [] ↔ before = []) ∧
      (∀ {ω ρ : Type} [Remote ω ρ], (m.send : LinkM ω ρ Unit) = (do
        sendAll before
        Link.fail (.tooLong p.bodySize maxPayload))) ∧
      (∀ {ω ρ : Type} [Remote ω ρ] {Room : ρ → Bytes → ℕ → Prop} {l : Link ρ} {given : Bytes}
        {room : ℕ} (w : ω), Takes ω Room → Room l.remote given room →
        ∃ l' w', Meets m.send l w (.error (.failed
            (if (before.flatMap encode).length ≤ room then .tooLong p.bodySize maxPayload
              else .bare .writeZero))) l' w' ∧
          Room l'.remote (given ++ (before.flatMap encode).take room)
            (room - (before.flatMap encode).length)) ∧
      ∀ {ω ρ : Type} [Remote ω ρ] {Rest : ρ → Bytes → Prop} {ending : Ending} {l : Link ρ}
        {next : Bytes} (w : ω), Supplies ω Rest ending →
        Link.Offers Rest l (before.flatMap encode ++ next) →
        ∃ l', Meets (Kind.recvAll (before.map fun q => (0, q.kind))) l w
            (.ok (before.map fun q => ([], q))) l' w ∧ Link.Offers Rest l' next := by
  -- the first part that is too long is the one that counts
  rcases exists_parts_of_not_fits hm with ⟨before, p, after, hparts, hbefore, hlong⟩
  have hsend {ω ρ : Type} [Remote ω ρ] := send_eq_of_parts (ω := ω) (ρ := ρ) hparts hlong
  refine ⟨before, p, after, hparts, hbefore, hlong, ?_, hsend, ?_, ?_⟩
  · constructor
    · intro hnil
      rw [List.flatMap_eq_nil_iff] at hnil
      refine List.eq_nil_iff_forall_not_mem.2 fun q hq => ?_
      -- a message of several parts has no empty one
      have hpart : q ∈ m.parts := by simp [hparts, hq]
      exact encode_part_ne_nil hm hpart (hnil q hq)
    · rintro rfl
      rfl
  · intro ω ρ _ Room l given room w htakes hroom
    rw [hsend]
    exact meets_fail_behind ((sends_sendAll hbefore).fills htakes) _ hroom
  · intro ω ρ _ Rest ending l next w hs hoffers
    exact meets_recvAll_of_kinds hs hbefore hoffers

/-- Over a far end that takes three bytes at a time, and twenty in all, a call with a name that
is too long leaves its tag and nothing else. -/
theorem lengthy_call_refused : ¬ (call lengthyName).Fits ∧
    ∃ l', Meets (send (.call lengthyName)) (Link.new narrow) ()
        (.error (.failed (.tooLong (maxPayload + 1) maxPayload))) l' () ∧
      l'.remote.output = Tag.work.toBytes := by
  have hroom : Stream.Limited (Link.new narrow).remote [] 20 := ⟨rfl, nofun, rfl⟩
  refine ⟨lengthyName_too_long, ?_⟩
  rcases refused_behind_whole_parts (m := .call lengthyName) lengthyName_too_long with
    ⟨before, p, after, hparts, hbefore, hlong, -, -, hsent, -⟩
  rcases hsent () (Stream.takes_limited Unit) hroom with ⟨l', w', hm, hroom'⟩
  -- the tag is not too long, so the name is the first part that is
  rcases before with _ | ⟨first, _ | ⟨second, before⟩⟩
  · cases hparts
    exact absurd trivial hlong
  · cases hparts
    have hsize : bodySize (text lengthyName) = maxPayload + 1 := size_lengthyName
    rw [hsize] at hm
    exact ⟨l', hm, hroom'.written⟩
  · have hlen := congrArg List.length hparts
    simp [parts] at hlen

/-- A call that is refused is begun all the same. -/
theorem tag_of_refused_call :
    ∃ l', Meets (Link.call lengthyName) (Link.new (Stream.ofPieces [] .closed)) ()
        (.error (.failed (.tooLong (maxPayload + 1) maxPayload))) l' () ∧
      l'.remote.output = [0, 0, 0, 0xfe] := by
  have htag : Sends (Link.sendTag .work : LinkM Unit Stream Unit) Tag.work.toBytes :=
    Link.sends_sendTag .work
  have hoffers : Link.Offers (Stream.Says .closed []) (.new (.ofPieces [] .closed)) [] :=
    Link.offers_new (Stream.says_ofPieces [] .closed)
  rcases htag.writes (w := ()) hoffers with ⟨l', hm, _, -, hstream⟩
  refine ⟨l', ?_, hstream.written⟩
  -- the tag is sent before the name is looked at
  have hname : (Link.sendText lengthyName : LinkM Unit Stream Unit) =
      Link.fail (.tooLong (maxPayload + 1) maxPayload) := by
    rw [← size_lengthyName]
    exact if_neg lengthyName_too_long
  rw [Link.call, hname, meets_bind_of_ok hm]
  exact meets_throw.2 ⟨rfl, rfl, rfl⟩

end FleetEstimate.Message
