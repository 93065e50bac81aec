import FleetEstimate.Proofs.Wire.Reading

/-!
# Forms of messages

What a receiver makes of the bytes of a stream that is closed behind them depends on their
form: whether they begin with a message, and if not, what is wrong with them and what is read
of them. A receiver of several messages goes by their forms in turn.
-/

namespace FleetEstimate

/-! ## Lengths and bodies -/

/-- The number that the first eight bytes hold, the highest byte first. -/
def announced (b : Bytes) : ℕ := Bytes.ofBigEndian (b.take 8)

/-- An announced number of elements, which make `size` bytes, is within the limit, and so many
bytes are there. -/
structure HasBody (size : ℕ → ℕ) (b : Bytes) : Prop where
  head : 8 ≤ b.length
  fits : size (announced b) ≤ maxPayload
  whole : 8 + size (announced b) ≤ b.length

/-- The announced bytes. -/
def bodyOf (size : ℕ → ℕ) (b : Bytes) : Bytes := (b.drop 8).take (size (announced b))

def behindBody (size : ℕ → ℕ) (b : Bytes) : Bytes := b.drop (8 + size (announced b))

/-- What is wrong with bytes that have no body, and what is left of them. Of a body that is
too long nothing but the length is read. -/
inductive LengthFault (size : ℕ → ℕ) (b : Bytes) : LinkError → (left : Bytes) → Prop
  | cutHead (hcut : b.length < 8) : LengthFault size b .earlyEnd []
  | tooLong (hhead : 8 ≤ b.length) (hlong : maxPayload < size (announced b)) :
    LengthFault size b (.tooLong (min (size (announced b)) (UInt64.size - 1)) maxPayload)
      (b.drop 8)
  | cutBody (hhead : 8 ≤ b.length) (hfits : size (announced b) ≤ maxPayload)
    (hcut : b.length < 8 + size (announced b)) : LengthFault size b .earlyEnd []

theorem hasBody_or_fault (size : ℕ → ℕ) (b : Bytes) :
    HasBody size b ∨ ∃ e left, LengthFault size b e left := by
  by_cases hhead : 8 ≤ b.length
  · by_cases hfits : size (announced b) ≤ maxPayload
    · by_cases hwhole : 8 + size (announced b) ≤ b.length
      · exact .inl ⟨hhead, hfits, hwhole⟩
      · exact .inr ⟨_, _, .cutBody hhead hfits (by omega)⟩
    · exact .inr ⟨_, _, .tooLong hhead (by omega)⟩
  · exact .inr ⟨_, _, .cutHead (by omega)⟩

theorem announced_lt (b : Bytes) : announced b < 256 ^ 8 := by
  have hlt := Bytes.ofBigEndian_lt (b.take 8)
  have hpow : 256 ^ (b.take 8).length ≤ 256 ^ 8 :=
    Nat.pow_le_pow_right (by decide) (List.length_take_le 8 b)
  exact lt_of_lt_of_le hlt hpow

/-- Bytes that hold a text: its characters in UTF-8. -/
def IsUtf8 (bs : Bytes) : Prop := ∃ cs : List Char, cs.flatMap String.utf8EncodeChar = bs

theorem isUtf8_iff {bs : Bytes} : IsUtf8 bs ↔ ∃ t, Text.ofBytes bs = .ok t := by
  constructor
  · intro h
    rcases h with ⟨cs, rfl⟩
    refine ⟨String.ofList cs, ?_⟩
    rw [← Text.toBytes_ofList, Text.ofBytes_toBytes]
  · intro h
    rcases h with ⟨t, ht⟩
    refine ⟨t.toList, ?_⟩
    rw [← Text.toBytes_ofList, String.ofList_toList, Text.toBytes_of_ofBytes ht]

namespace Tag

variable {bs : Bytes}

/-- The numbers that stand for a tag. -/
def reserved : List ℕ := [0xfa, 0xfb, 0xfe, 0xff]

theorem ofBytes_of_reserved (h : Bytes.ofBigEndian bs ∈ reserved) : ∃ t, ofBytes bs = .ok t := by
  unfold reserved at h
  simp only [List.mem_cons, List.not_mem_nil, or_false] at h
  unfold ofBytes
  rcases h with h | h | h | h
  · exact ⟨.getName, by rw [h]; rfl⟩
  · exact ⟨.getCpuTime, by rw [h]; rfl⟩
  · exact ⟨.work, by rw [h]; rfl⟩
  · exact ⟨.die, by rw [h]; rfl⟩

theorem ofBytes_of_not_reserved (hlen : bs.length = 4) (h : Bytes.ofBigEndian bs ∉ reserved) :
    ofBytes bs = .error (.unexpectedTag (UInt32.ofNat (Bytes.ofBigEndian bs))) := by
  have hlt : Bytes.ofBigEndian bs < 2 ^ 32 := by
    have hlt := Bytes.ofBigEndian_lt bs
    rwa [hlen] at hlt
  -- the four bytes are not cut down, so they hold no number of a tag either
  have hne {n : UInt32} (hn : n.toNat ∈ reserved) : UInt32.ofNat (Bytes.ofBigEndian bs) ≠ n := by
    intro heq
    rw [← heq, UInt32.toNat_ofNat_of_lt' hlt] at hn
    exact h hn
  unfold ofBytes ofValue
  rw [if_neg (hne (by decide)), if_neg (hne (by decide)), if_neg (hne (by decide)),
    if_neg (hne (by decide))]

end Tag

/-! ## Forms -/

/-- The form of a message: any bytes begin with one, or are refused. -/
structure Form where
  /-- Bytes that begin with such a message, and what is behind it. -/
  takes : Bytes → (behind : Bytes) → Prop
  /-- Bytes that do not, why they are refused, and what is left of them. -/
  fails : Bytes → LinkError → (left : Bytes) → Prop
  total : ∀ b, (∃ behind, takes b behind) ∨ ∃ e left, fails b e left

namespace Form

/-- A message of this form, and then one of that form. -/
def andThen (this that : Form) : Form where
  takes b behind := ∃ between, this.takes b between ∧ that.takes between behind
  fails b e left := this.fails b e left ∨ ∃ between, this.takes b between ∧
    that.fails between e left
  total b := by
    rcases this.total b with ⟨between, hthis⟩ | ⟨e, left, hthis⟩
    · rcases that.total between with ⟨behind, hthat⟩ | ⟨e, left, hthat⟩
      · exact .inl ⟨behind, between, hthis, hthat⟩
      · exact .inr ⟨e, left, .inr ⟨between, hthis, hthat⟩⟩
    · exact .inr ⟨e, left, .inl hthis⟩

/-- Any bytes, so many. -/
def fixed (n : ℕ) : Form where
  takes b behind := n ≤ b.length ∧ behind = b.drop n
  fails b e left := b.length < n ∧ e = .earlyEnd ∧ left = []
  total b := by
    by_cases hle : n ≤ b.length
    · exact .inl ⟨_, hle, rfl⟩
    · exact .inr ⟨_, _, by omega, rfl, rfl⟩

/-- One of the four reserved numbers in four bytes, the highest byte first. -/
def tag : Form where
  takes b behind := 4 ≤ b.length ∧
    Bytes.ofBigEndian (b.take 4) ∈ Tag.reserved ∧ behind = b.drop 4
  fails b e left := (b.length < 4 ∧ e = .earlyEnd ∧ left = []) ∨
    (4 ≤ b.length ∧ Bytes.ofBigEndian (b.take 4) ∉ Tag.reserved ∧
      e = .ofProtocol (.unexpectedTag (UInt32.ofNat (Bytes.ofBigEndian (b.take 4)))) ∧
      left = b.drop 4)
  total b := by
    by_cases hle : 4 ≤ b.length
    · by_cases hreserved : Bytes.ofBigEndian (b.take 4) ∈ Tag.reserved
      · exact .inl ⟨_, hle, hreserved, rfl⟩
      · exact .inr ⟨_, _, .inr ⟨hle, hreserved, rfl, rfl⟩⟩
    · exact .inr ⟨_, _, .inl ⟨by omega, rfl, rfl⟩⟩

/-- A number of bytes, and then so many that hold a text. -/
def text : Form where
  takes b behind := HasBody id b ∧ IsUtf8 (bodyOf id b) ∧ behind = behindBody id b
  fails b e left := LengthFault id b e left ∨
    (HasBody id b ∧ ¬ IsUtf8 (bodyOf id b) ∧ left = behindBody id b ∧
      ∃ why, Text.ofBytes (bodyOf id b) = .error why ∧ e = .invalidText why)
  total b := by
    rcases hasBody_or_fault id b with hbody | ⟨e, left, hfault⟩
    · cases htext : Text.ofBytes (bodyOf id b) with
      | ok t => exact .inl ⟨_, hbody, isUtf8_iff.2 ⟨t, htext⟩, rfl⟩
      | error why =>
        refine .inr ⟨_, _, .inr ⟨hbody, ?_, rfl, why, rfl, rfl⟩⟩
        intro hvalid
        rcases isUtf8_iff.1 hvalid with ⟨t, ht⟩
        rw [ht] at htext
        cases htext
    · exact .inr ⟨e, left, .inl hfault⟩

/-- A number of elements, and then eight bytes for each. -/
def reals : Form where
  takes b behind := HasBody (8 * ·) b ∧ behind = behindBody (8 * ·) b
  fails b e left := LengthFault (8 * ·) b e left
  total b := by
    rcases hasBody_or_fault (8 * ·) b with hbody | hfault
    · exact .inl ⟨_, hbody, rfl⟩
    · exact .inr hfault

/-- The five parts of a work result. -/
def result : Form := text.andThen ((fixed 8).andThen (reals.andThen (reals.andThen (fixed 8))))

end Form

/-! ## Receivers that go by a form -/

section Judging

variable {ω ρ α β : Type} [Remote ω ρ] {Rest : ρ → Bytes → Prop} {l : Link ρ} {w : ω}
variable {b : Bytes} {size : ℕ → ℕ}

/-- Over links that offer nothing behind what can be read, an exchange succeeds on the bytes
that its form takes, and fails on those that it refuses. -/
structure Judges (Rest : ρ → Bytes → Prop) (act : LinkM ω ρ α) (form : Form) : Prop where
  takes : ∀ ⦃l w b behind⦄, Link.Offers Rest l b → form.takes b behind →
    ∃ a l', Meets act l w (.ok a) l' w ∧ Link.Offers Rest l' behind
  fails : ∀ ⦃l w b e left⦄, Link.Offers Rest l b → form.fails b e left →
    ∃ l', Meets act l w (.error (.failed e)) l' w ∧ Link.Offers Rest l' left

omit [Remote ω ρ] in
/-- Where nothing comes behind what can be read, nobody waits for it. -/
theorem Judges.not_stalled {act : LinkM ω ρ α} {form : Form} (hact : Judges Rest act form)
    (hoffers : Link.Offers Rest l b) {l' : Link ρ} {w' : ω} :
    ¬ Meets act l w (.error .stalled) l' w' := by
  intro hm
  rcases form.total b with ⟨behind, htakes⟩ | ⟨e, left, hfails⟩
  · rcases hact.takes (w := w) hoffers htakes with ⟨a, l₁, hok, -⟩
    cases (hm.unique hok).1
  · rcases hact.fails (w := w) hoffers hfails with ⟨l₁, hfailed, -⟩
    cases (hm.unique hfailed).1

omit [Remote ω ρ] in
/-- What is behind a message can still be read. -/
theorem Judges.offers {act : LinkM ω ρ α} {form : Form} (hact : Judges Rest act form)
    (hoffers : Link.Offers Rest l b) {a : α} {l' : Link ρ} {w' : ω}
    (hm : Meets act l w (.ok a) l' w') : ∃ behind, Link.Offers Rest l' behind := by
  rcases form.total b with ⟨behind, htakes⟩ | ⟨e, left, hfails⟩
  · rcases hact.takes (w := w) hoffers htakes with ⟨a, l₁, hok, hbehind⟩
    rcases hm.unique hok with ⟨-, rfl, -⟩
    exact ⟨behind, hbehind⟩
  · rcases hact.fails (w := w) hoffers hfails with ⟨l₁, hfailed, -⟩
    cases (hm.unique hfailed).1

omit [Remote ω ρ] in
theorem Judges.bind {act : LinkM ω ρ α} {next : α → LinkM ω ρ β} {this that : Form}
    (hact : Judges Rest act this) (hnext : ∀ a, Judges Rest (next a) that) :
    Judges Rest (act >>= next) (this.andThen that) := by
  constructor
  · intro l w b behind hoffers htakes
    rcases htakes with ⟨between, hthis, hthat⟩
    rcases hact.takes (w := w) hoffers hthis with ⟨a, l₁, hfirst, hoffers₁⟩
    rcases (hnext a).takes (w := w) hoffers₁ hthat with ⟨y, l', hrest, hoffers'⟩
    exact ⟨y, l', (meets_bind_of_ok hfirst).2 hrest, hoffers'⟩
  · intro l w b e left hoffers hfails
    -- it is the first part or the second that fails
    rcases hfails with hthis | ⟨between, hthis, hthat⟩
    · rcases hact.fails (w := w) hoffers hthis with ⟨l', hfirst, hoffers'⟩
      exact ⟨l', meets_bind_of_error hfirst, hoffers'⟩
    · rcases hact.takes (w := w) hoffers hthis with ⟨a, l₁, hfirst, hoffers₁⟩
      rcases (hnext a).fails (w := w) hoffers₁ hthat with ⟨l', hrest, hoffers'⟩
      exact ⟨l', (meets_bind_of_ok hfirst).2 hrest, hoffers'⟩

omit [Remote ω ρ] in
theorem Judges.map {act : LinkM ω ρ α} {form : Form} (f : α → β) (hact : Judges Rest act form) :
    Judges Rest (act >>= fun a => pure (f a)) form := by
  constructor
  · intro l w b behind hoffers htakes
    rcases hact.takes (w := w) hoffers htakes with ⟨a, l', hm, hoffers'⟩
    exact ⟨f a, l', (meets_bind_of_ok hm).2 (meets_pure.2 ⟨rfl, rfl, rfl⟩), hoffers'⟩
  · intro l w b e left hoffers hfails
    rcases hact.fails (w := w) hoffers hfails with ⟨l', hm, hoffers'⟩
    exact ⟨l', meets_bind_of_error hm, hoffers'⟩

theorem judges_receive (hs : Supplies ω Rest .closed) (n : ℕ) :
    Judges Rest (Link.receive n : LinkM ω ρ Bytes) (.fixed n) := by
  constructor
  · intro l w b behind hoffers htakes
    rcases htakes with ⟨hle, rfl⟩
    exact ⟨_, meets_receive_of_le hs hoffers hle⟩
  · intro l w b e left hoffers hfails
    rcases hfails with ⟨hlt, rfl, rfl⟩
    exact meets_receive_of_lt hs hoffers hlt

namespace Link

theorem meets_recvLength (hs : Supplies ω Rest .closed) (hoffers : Offers Rest l b)
    (hhead : 8 ≤ b.length) :
    ∃ l', Meets recvLength l w (.ok (announced b)) l' w ∧ Offers Rest l' (b.drop 8) := by
  rcases meets_receive_of_le (w := w) hs hoffers hhead with ⟨l', hm, hoffers'⟩
  exact ⟨l', (meets_bind_of_ok hm).2 (meets_pure.2 ⟨rfl, rfl, rfl⟩), hoffers'⟩

/-- Receives a length and then the body that it announces. -/
def recvBody (size : ℕ → ℕ) (refusal : ℕ → LinkError) (next : ℕ → Bytes → LinkM ω ρ α) :
    LinkM ω ρ α := do
  let count ← recvLength
  if maxPayload < size count then fail (refusal count)
  else next count (← receive (size count))

variable {refusal : ℕ → LinkError} {next : ℕ → Bytes → LinkM ω ρ α}

/-- With a body, it is for what follows to succeed or to fail. -/
theorem meets_recvBody (hs : Supplies ω Rest .closed) (hoffers : Offers Rest l b)
    (hbody : HasBody size b) :
    ∃ l₁, Offers Rest l₁ (behindBody size b) ∧ ∀ {r l'},
      Meets (next (announced b) (bodyOf size b)) l₁ w r l' w →
        Meets (recvBody size refusal next) l w r l' w := by
  rcases meets_recvLength (w := w) hs hoffers hbody.head with ⟨l₁, hlength, hoffers₁⟩
  -- behind the head there is a whole body
  have hwhole : size (announced b) ≤ (b.drop 8).length := by
    have hle := hbody.whole
    rw [List.length_drop]
    omega
  rcases meets_receive_of_le (w := w) hs hoffers₁ hwhole with ⟨l₂, hbytes, hoffers₂⟩
  rw [List.drop_drop] at hoffers₂
  refine ⟨l₂, hoffers₂, ?_⟩
  intro r l' hm
  have hfits : ¬ maxPayload < size (announced b) := not_lt.2 hbody.fits
  unfold recvBody
  rw [meets_bind_of_ok hlength, if_neg hfits, meets_bind_of_ok hbytes]
  exact hm

/-- Without a body, nothing follows. -/
theorem meets_recvBody_of_fault (hs : Supplies ω Rest .closed) (hoffers : Offers Rest l b)
    (hrefusal : refusal (announced b) =
      .tooLong (min (size (announced b)) (UInt64.size - 1)) maxPayload)
    {e : LinkError} {left : Bytes} (hfault : LengthFault size b e left) :
    ∃ l', Meets (recvBody size refusal next) l w (.error (.failed e)) l' w ∧
      Offers Rest l' left := by
  unfold recvBody
  -- the head is cut, or it announces too much, or the body behind it is cut
  cases hfault with
  | cutHead hcut =>
    rcases meets_receive_of_lt (w := w) hs hoffers hcut with ⟨l', hm, hoffers'⟩
    exact ⟨l', meets_bind_of_error (meets_bind_of_error hm), hoffers'⟩
  | tooLong hhead hlong =>
    rcases meets_recvLength (w := w) hs hoffers hhead with ⟨l', hlength, hoffers'⟩
    refine ⟨l', ?_, hoffers'⟩
    rw [meets_bind_of_ok hlength, if_pos hlong, hrefusal]
    exact meets_throw.2 ⟨rfl, rfl, rfl⟩
  | cutBody hhead hfits hcut =>
    rcases meets_recvLength (w := w) hs hoffers hhead with ⟨l₁, hlength, hoffers₁⟩
    have hshort : (b.drop 8).length < size (announced b) := by
      rw [List.length_drop]
      omega
    rcases meets_receive_of_lt (w := w) hs hoffers₁ hshort with ⟨l', hm, hoffers'⟩
    refine ⟨l', ?_, hoffers'⟩
    rw [meets_bind_of_ok hlength, if_neg (not_lt.2 hfits)]
    exact meets_bind_of_error hm

theorem judges_recvTag (hs : Supplies ω Rest .closed) :
    Judges Rest (recvTag : LinkM ω ρ Tag) .tag := by
  constructor
  · intro l w b behind hoffers htakes
    rcases htakes with ⟨hle, hreserved, rfl⟩
    rcases Tag.ofBytes_of_reserved hreserved with ⟨t, ht⟩
    rcases meets_receive_of_le (w := w) hs hoffers hle with ⟨l', hm, hoffers'⟩
    refine ⟨t, l', (meets_bind_of_ok hm).2 ?_, hoffers'⟩
    rw [ht]
    exact meets_pure.2 ⟨rfl, rfl, rfl⟩
  · intro l w b e left hoffers hfails
    rcases hfails with ⟨hlt, rfl, rfl⟩ | ⟨hle, hother, rfl, rfl⟩
    · rcases meets_receive_of_lt (w := w) hs hoffers hlt with ⟨l', hm, hoffers'⟩
      exact ⟨l', meets_bind_of_error hm, hoffers'⟩
    · -- four bytes that are no tag are consumed all the same
      have hlen : (b.take 4).length = 4 := List.length_take_of_le hle
      rcases meets_receive_of_le (w := w) hs hoffers hle with ⟨l', hm, hoffers'⟩
      refine ⟨l', (meets_bind_of_ok hm).2 ?_, hoffers'⟩
      rw [Tag.ofBytes_of_not_reserved hlen hother]
      exact meets_throw.2 ⟨rfl, rfl, rfl⟩

/-- The text that some bytes hold, if they hold one. -/
def textOf (bytes : Bytes) : LinkM ω ρ String :=
  match Text.ofBytes bytes with
  | .ok text => return text
  | .error e => fail (.invalidText e)

theorem judges_recvText (hs : Supplies ω Rest .closed) :
    Judges Rest (recvText : LinkM ω ρ String) .text := by
  have hrecv : (recvText : LinkM ω ρ String) =
      recvBody id (fun length => .tooLong length maxPayload) fun _ bytes => textOf bytes := rfl
  rw [hrecv]
  constructor
  · intro l w b behind hoffers htakes
    rcases htakes with ⟨hbody, hvalid, rfl⟩
    rcases isUtf8_iff.1 hvalid with ⟨t, ht⟩
    rcases meets_recvBody hs hoffers hbody with ⟨l', hoffers', hmeets⟩
    refine ⟨t, l', hmeets ?_, hoffers'⟩
    unfold textOf
    rw [ht]
    exact meets_pure.2 ⟨rfl, rfl, rfl⟩
  · intro l w b e left hoffers hfails
    rcases hfails with hfault | ⟨hbody, -, rfl, why, hwhy, rfl⟩
    · refine meets_recvBody_of_fault hs hoffers ?_ hfault
      -- eight bytes announce no length that would have to be cut down
      have hlt := announced_lt b
      have hsize : UInt64.size = 256 ^ 8 := by decide
      have hmin : min (id (announced b)) (UInt64.size - 1) = announced b := by
        rw [id]
        omega
      rw [hmin]
    · rcases meets_recvBody hs hoffers hbody with ⟨l', hoffers', hmeets⟩
      refine ⟨l', hmeets ?_, hoffers'⟩
      unfold textOf
      rw [hwhy]
      exact meets_throw.2 ⟨rfl, rfl, rfl⟩

theorem judges_recvReals (hs : Supplies ω Rest .closed) :
    Judges Rest (recvReals : LinkM ω ρ (List Real64)) .reals := by
  have hrecv : (recvReals : LinkM ω ρ (List Real64)) =
      recvBody (8 * ·) (fun count => .tooLong (min (8 * count) (UInt64.size - 1)) maxPayload)
        fun count bytes => pure (realsOf count bytes) := rfl
  rw [hrecv]
  constructor
  · intro l w b behind hoffers htakes
    rcases htakes with ⟨hbody, rfl⟩
    rcases meets_recvBody hs hoffers hbody with ⟨l', hoffers', hmeets⟩
    exact ⟨_, l', hmeets (meets_pure.2 ⟨rfl, rfl, rfl⟩), hoffers'⟩
  · intro l w b e left hoffers hfault
    exact meets_recvBody_of_fault hs hoffers rfl hfault

end Link

theorem WorkResult.judges_recv (hs : Supplies ω Rest .closed) :
    Judges Rest (recv : LinkM ω ρ WorkResult) .result := by
  refine (Link.judges_recvText hs).bind fun digest => ?_
  refine ((judges_receive hs 8).map _).bind fun parameter => ?_
  refine (Link.judges_recvReals hs).bind fun sum => ?_
  refine (Link.judges_recvReals hs).bind fun sumSq => ?_
  exact ((judges_receive hs 8).map _).map _

end Judging

end FleetEstimate
