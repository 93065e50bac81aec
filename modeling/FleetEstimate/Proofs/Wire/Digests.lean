import FleetEstimate.Proofs.Real64.Sums
import FleetEstimate.Proofs.Wire.Encodings

/-!
# The texts of a digest

A digest is written in lower case and read in either case. So the texts that are read as a digest
are told by what they are in lower case: the one text that the digest is written as. Lengths are
counted in bytes and digits are bytes, which makes no difference to texts that are accepted, as
their characters are single bytes. Every other text is refused, for its length or else for its
first byte that is no digit.
-/

namespace FleetEstimate

/-! ## Hexadecimal digits -/

namespace Bytes

/-- A hexadecimal digit in either case. -/
def IsHexDigit (b : UInt8) : Prop :=
  0x30 ≤ b ∧ b ≤ 0x39 ∨ 0x61 ≤ b ∧ b ≤ 0x66 ∨ 0x41 ≤ b ∧ b ≤ 0x46

instance : DecidablePred IsHexDigit := fun _ => inferInstanceAs (Decidable (_ ∨ _))

/-- A hexadecimal digit in lower case. -/
def IsLowerHexDigit (c : Char) : Prop := '0' ≤ c ∧ c ≤ '9' ∨ 'a' ≤ c ∧ c ≤ 'f'

instance : DecidablePred IsLowerHexDigit := fun _ => inferInstanceAs (Decidable (_ ∨ _))

/-- The character that a byte is on its own. -/
def char (b : UInt8) : Char := Char.ofNat b.toNat

/-- The two digits that a byte is written as. -/
def digits (b : UInt8) : List Char := [hexDigit (b.toNat / 16), hexDigit (b.toNat % 16)]

variable {a b v : UInt8} {ds bs : Bytes}

theorem forall_byte {P : UInt8 → Prop} (h : ∀ n < 256, P (.ofNat n)) (b : UInt8) : P b := by
  have hb := h b.toNat b.toNat_lt
  rwa [UInt8.ofNat_toNat] at hb

theorem isLowerHexDigit_hexDigit : ∀ n < 16, IsLowerHexDigit (hexDigit n) := by decide

theorem hexDigit_inj : ∀ m < 16, ∀ n < 16, hexDigit m = hexDigit n → m = n := by decide

theorem hexValue?_eq_none_iff : hexValue? b = none ↔ ¬ IsHexDigit b := by
  unfold hexValue? IsHexDigit
  grind

theorem exists_hexValue? (h : IsHexDigit b) : ∃ v, hexValue? b = some v :=
  Option.ne_none_iff_exists'.mp fun hnone => hexValue?_eq_none_iff.mp hnone h

/-- A digit has the value that its lower case stands for. -/
theorem hexDigit_of_hexValue? (h : hexValue? b = some v) :
    v.toNat < 16 ∧ hexDigit v.toNat = (char b).toLower := by
  have hall : ∀ b, (hexValue? b).all fun v =>
      decide (v.toNat < 16 ∧ hexDigit v.toNat = (char b).toLower) :=
    forall_byte (by decide +kernel)
  have hb := hall b
  rw [h, Option.all_some] at hb
  exact of_decide_eq_true hb

theorem hexValue?_eq_some_iff :
    hexValue? b = some v ↔ IsHexDigit b ∧ v.toNat < 16 ∧ hexDigit v.toNat = (char b).toLower := by
  constructor
  · intro h
    refine ⟨?_, hexDigit_of_hexValue? h⟩
    by_contra hnot
    rw [hexValue?_eq_none_iff.mpr hnot] at h
    cases h
  · rintro ⟨hdigit, hlt, hchar⟩
    obtain ⟨v', hv'⟩ := exists_hexValue? hdigit
    obtain ⟨hlt', hchar'⟩ := hexDigit_of_hexValue? hv'
    have hsame := hexDigit_inj _ hlt' _ hlt (hchar'.trans hchar.symm)
    rw [hv', UInt8.toNat_inj.mp hsame]

/-- Two digits make the byte that is written as their lower case. -/
theorem byte_of_hexValue? {x y : UInt8} (hx : x.toNat < 16) (hy : y.toNat < 16) :
    x * 16 + y = b ↔ x.toNat = b.toNat / 16 ∧ y.toNat = b.toNat % 16 := by
  rw [← UInt8.toNat_inj, UInt8.toNat_add, UInt8.toNat_mul]
  have hsixteen : (16 : UInt8).toNat = 16 := rfl
  rw [hsixteen]
  omega

/-- Two digits are read as a byte exactly if it is written as their lower case. -/
theorem exists_hexValue?_iff {c : UInt8} :
    (∃ x y, hexValue? a = some x ∧ hexValue? b = some y ∧ x * 16 + y = c) ↔
      IsHexDigit a ∧ IsHexDigit b ∧ [(char a).toLower, (char b).toLower] = digits c := by
  constructor
  · rintro ⟨x, y, hx, hy, hc⟩
    obtain ⟨ha, hxlt, hxchar⟩ := hexValue?_eq_some_iff.mp hx
    obtain ⟨hb, hylt, hychar⟩ := hexValue?_eq_some_iff.mp hy
    obtain ⟨hhigh, hlow⟩ := (byte_of_hexValue? hxlt hylt).mp hc
    refine ⟨ha, hb, ?_⟩
    rw [digits, ← hhigh, ← hlow, hxchar, hychar]
  · rintro ⟨ha, hb, hchars⟩
    obtain ⟨x, hx⟩ := exists_hexValue? ha
    obtain ⟨y, hy⟩ := exists_hexValue? hb
    obtain ⟨hxlt, hxchar⟩ := hexDigit_of_hexValue? hx
    obtain ⟨hylt, hychar⟩ := hexDigit_of_hexValue? hy
    rw [← hxchar, ← hychar] at hchars
    have hlt := c.toNat_lt
    -- two digits are equal if they are written alike
    obtain ⟨hhigh, hlow⟩ : hexDigit x.toNat = hexDigit (c.toNat / 16) ∧
        hexDigit y.toNat = hexDigit (c.toNat % 16) := by simpa [digits] using hchars
    refine ⟨x, y, hx, hy, (byte_of_hexValue? hxlt hylt).mpr ⟨?_, ?_⟩⟩
    · exact hexDigit_inj _ hxlt _ (by omega) hhigh
    · exact hexDigit_inj _ hylt _ (by omega) hlow

/-- Digits in pairs begin with two. -/
theorem exists_pair {n : ℕ} (hlen : ds.length = 2 * (n + 1)) :
    ∃ a b rest, ds = a :: b :: rest ∧ rest.length = 2 * n := by
  obtain _ | ⟨a, _ | ⟨b, rest⟩⟩ := ds
  · simp at hlen
  · rw [List.length_singleton] at hlen
    omega
  · refine ⟨a, b, rest, rfl, ?_⟩
    rw [List.length_cons, List.length_cons] at hlen
    omega

theorem ofHexDigits_cons_eq_ok_iff :
    ofHexDigits (a :: b :: ds) = .ok bs ↔
      ∃ x y rest, hexValue? a = some x ∧ hexValue? b = some y ∧ ofHexDigits ds = .ok rest ∧
        bs = (x * 16 + y) :: rest := by
  rw [ofHexDigits]
  cases hexValue? a with
  | none => simp
  | some x =>
    cases hexValue? b with
    | none => simp
    | some y => cases ofHexDigits ds <;> simp [Except.map, eq_comm]

/-- Digits are read as the bytes that are written as their lower case. -/
theorem ofHexDigits_eq_ok_iff (hlen : ds.length = 2 * bs.length) :
    ofHexDigits ds = .ok bs ↔
      (∀ a ∈ ds, IsHexDigit a) ∧ ds.map (fun a => (char a).toLower) = bs.flatMap digits := by
  -- pair by pair, each of which is a byte
  induction bs generalizing ds with
  | nil =>
    obtain rfl : ds = [] := List.length_eq_zero_iff.mp hlen
    simp [ofHexDigits]
  | cons c bs ih =>
    obtain ⟨a, b, ds, rfl, hrest⟩ := exists_pair hlen
    have hpair := exists_hexValue?_iff (a := a) (b := b) (c := c)
    simp only [digits, List.cons.injEq, and_true] at hpair
    simp only [ofHexDigits_cons_eq_ok_iff, List.forall_mem_cons, List.map_cons,
      List.flatMap_cons, digits, List.cons_append, List.nil_append, List.cons.injEq]
    constructor
    · rintro ⟨x, y, _, hx, hy, hds, rfl, rfl⟩
      obtain ⟨ha, hb, hhigh, hlow⟩ := hpair.mp ⟨x, y, hx, hy, rfl⟩
      obtain ⟨hall, hmap⟩ := (ih hrest).mp hds
      exact ⟨⟨ha, hb, hall⟩, hhigh, hlow, hmap⟩
    · rintro ⟨⟨ha, hb, hall⟩, hhigh, hlow, hmap⟩
      obtain ⟨x, y, hx, hy, hc⟩ := hpair.mpr ⟨ha, hb, hhigh, hlow⟩
      exact ⟨x, y, bs, hx, hy, (ih hrest).mpr ⟨hall, hmap⟩, hc.symm, rfl⟩

/-- Digits in pairs are refused for the first that is none. -/
theorem ofHexDigits_eq_error_iff {n : ℕ} (hlen : ds.length = 2 * n) :
    ofHexDigits ds = .error b ↔ ds.find? (fun a => ¬ IsHexDigit a) = some b := by
  -- pair by pair: the first digit that is none is in the first pair or in a later one
  induction n generalizing ds with
  | zero =>
    obtain rfl : ds = [] := List.length_eq_zero_iff.mp hlen
    simp [ofHexDigits]
  | succ n ih =>
    obtain ⟨high, low, ds, rfl, hrest⟩ := exists_pair hlen
    rw [ofHexDigits, List.find?_cons, List.find?_cons]
    cases hhigh : hexValue? high with
    | none => simp [hexValue?_eq_none_iff.mp hhigh]
    | some x =>
      have hx := (hexValue?_eq_some_iff.mp hhigh).1
      cases hlow : hexValue? low with
      | none => simp [hexValue?_eq_none_iff.mp hlow, hx]
      | some y =>
        have hy := (hexValue?_eq_some_iff.mp hlow).1
        simp only [hx, hy, not_true, decide_false, ← ih hrest]
        cases ofHexDigits ds <;> simp [Except.map]

theorem length_of_ofHexDigits {n : ℕ} (hlen : ds.length = 2 * n) (h : ofHexDigits ds = .ok bs) :
    bs.length = n := by
  induction n generalizing ds bs with
  | zero =>
    obtain rfl : ds = [] := List.length_eq_zero_iff.mp hlen
    cases h
    rfl
  | succ n ih =>
    obtain ⟨a, b, ds, rfl, hrest⟩ := exists_pair hlen
    obtain ⟨x, y, rest, -, -, hds, rfl⟩ := ofHexDigits_cons_eq_ok_iff.mp h
    rw [List.length_cons, ih hrest hds]

/-! ## Characters and bytes -/

theorem utf8EncodeChar_char : IsHexDigit b → String.utf8EncodeChar (char b) = [b] := by
  revert b
  apply forall_byte
  decide +kernel

/-- Only a digit is a digit in lower case, and it is a single byte. -/
theorem exists_byte_of_toLower {c : Char} (h : IsLowerHexDigit c.toLower) :
    ∃ b, String.utf8EncodeChar c = [b] ∧ IsHexDigit b := by
  -- only ASCII characters have a lower case that is a digit
  have hascii : c.toNat < 128 := by
    unfold IsLowerHexDigit Char.toLower at h
    simp only [Char.le_def, UInt32.le_iff_toNat_le] at h
    split at h
    · rename_i hupper
      exact Nat.lt_of_le_of_lt hupper.2 (by decide)
    · rcases h with ⟨-, hle⟩ | ⟨-, hle⟩
      · exact Nat.lt_of_le_of_lt hle (by decide)
      · exact Nat.lt_of_le_of_lt hle (by decide)
  -- and those can be tried out
  have hall : ∀ n < 128, IsLowerHexDigit (Char.ofNat n).toLower →
      String.utf8EncodeChar (Char.ofNat n) = [.ofNat n] ∧ IsHexDigit (.ofNat n) := by
    decide +kernel
  have hc := hall c.toNat hascii
  rw [Char.ofNat_toNat] at hc
  exact ⟨_, hc h⟩

end Bytes

namespace Text

open Bytes

variable {text : String}

theorem toBytes_eq_flatMap (text : String) :
    toBytes text = text.toList.flatMap String.utf8EncodeChar := by
  rw [← toBytes_ofList, String.ofList_toList]

/-- A text of digits has a character for every byte. -/
theorem toList_of_digits (h : ∀ b ∈ toBytes text, IsHexDigit b) :
    text.toList = (toBytes text).map char := by
  -- the characters that stand for the bytes make a text of the same bytes
  have hback : ((toBytes text).map char).flatMap String.utf8EncodeChar = toBytes text := by
    rw [List.flatMap_map]
    calc (toBytes text).flatMap (fun b => String.utf8EncodeChar (char b))
        = (toBytes text).flatMap (fun b => [b]) :=
          List.flatMap_congr fun b hb => utf8EncodeChar_char (h b hb)
      _ = toBytes text := by simp
  have hsame : String.ofList ((toBytes text).map char) = text := by
    apply toBytes_injective
    rw [toBytes_ofList, hback]
  conv_lhs => rw [← hsame]
  exact String.toList_ofList

theorem toList_toLower (text : String) : text.toLower.toList = text.toList.map Char.toLower :=
  String.toList_map

/-- A text that consists of digits once it is in lower case does so before. -/
theorem digits_of_toLower (h : ∀ c ∈ text.toLower.toList, IsLowerHexDigit c) :
    (toBytes text).length = text.toLower.toList.length ∧ ∀ b ∈ toBytes text, IsHexDigit b := by
  rw [toList_toLower, toBytes_eq_flatMap, List.length_map]
  rw [toList_toLower, List.forall_mem_map] at h
  generalize text.toList = cs at h
  -- character by character, one byte each
  induction cs with
  | nil => simp
  | cons c cs ih =>
    obtain ⟨hc, hcs⟩ := List.forall_mem_cons.mp h
    obtain ⟨b, hb, hdigit⟩ := exists_byte_of_toLower hc
    obtain ⟨hlen, hall⟩ := ih hcs
    rw [List.flatMap_cons, hb]
    refine ⟨?_, List.forall_mem_cons.mpr ⟨hdigit, hall⟩⟩
    simp [hlen]

end Text

/-! ## Digests -/

namespace Digest

open Bytes

variable {text : String} {d : Digest}

theorem toList_toHex (d : Digest) : d.toHex.toList = d.bytes.toList.flatMap digits := by
  rw [toHex, Bytes.toHex, String.toList_ofList]
  rfl

/-- Sixty-four digits in lower case. -/
theorem toHex_digits (d : Digest) :
    d.toHex.toList.length = 64 ∧ ∀ c ∈ d.toHex.toList, IsLowerHexDigit c := by
  rw [toList_toHex]
  constructor
  · simp [digits]
  · intro c hc
    obtain ⟨b, -, hb⟩ := List.mem_flatMap.mp hc
    have hlt := b.toNat_lt
    simp only [digits, List.mem_cons, List.not_mem_nil, or_false] at hb
    obtain rfl | rfl := hb
    · exact isLowerHexDigit_hexDigit _ (by omega)
    · exact isLowerHexDigit_hexDigit _ (by omega)

theorem toHex_injective : Function.Injective toHex := by
  intro d d' h
  have hread := ofHex_toHex d
  rw [h, ofHex_toHex] at hread
  exact (Except.ok.inj hread).symm

/-- A text that is a digest in lower case has the right length and digits. -/
theorem digits_of_toLower_eq (h : text.toLower = d.toHex) :
    (Text.toBytes text).length = 64 ∧ ∀ b ∈ Text.toBytes text, IsHexDigit b := by
  obtain ⟨hlen, hall⟩ := d.toHex_digits
  rw [← h] at hlen hall
  obtain ⟨hbytes, hdigits⟩ := Text.digits_of_toLower hall
  exact ⟨hbytes.trans hlen, hdigits⟩

theorem ofHex_of_length (hlen : (Text.toBytes text).length = 64) :
    ofHex text = .ok d ↔ ofHexDigits (Text.toBytes text) = .ok d.bytes.toList := by
  unfold ofHex
  rw [if_pos hlen]
  cases hread : ofHexDigits (Text.toBytes text) with
  | error digit => simp
  | ok bs =>
    have hsize : bs.toArray.size = 32 := length_of_ofHexDigits (n := 32) hlen hread
    -- a digest is the list of its bytes
    have hsame : (⟨bs.toArray, hsize⟩ : Vector UInt8 32) = d.bytes ↔ bs = d.bytes.toList := by
      rw [← Vector.toArray_inj, ← Array.toList_inj]
      rfl
    simp only [dif_pos hsize, Except.ok.injEq, ← hsame]
    constructor
    · rintro rfl
      rfl
    · intro h
      rw [h]

theorem ofHex_of_length_ne (hlen : (Text.toBytes text).length ≠ 64) :
    ofHex text = .error (.length (Text.toBytes text).length) :=
  if_neg hlen

/-- A text of sixty-four digits is the digest that is written as its lower case. -/
theorem ofHex_of_digits (hlen : (Text.toBytes text).length = 64)
    (hdigits : ∀ b ∈ Text.toBytes text, IsHexDigit b) :
    ofHex text = .ok d ↔ text.toLower = d.toHex := by
  have hpairs : (Text.toBytes text).length = 2 * d.bytes.toList.length := by
    rw [hlen, Vector.length_toList]
  rw [ofHex_of_length hlen, ofHexDigits_eq_ok_iff hpairs, and_iff_right hdigits,
    ← String.toList_inj, Text.toList_toLower, Text.toList_of_digits hdigits, toList_toHex,
    List.map_map]
  rfl

theorem ofHex_eq_ok_iff : ofHex text = .ok d ↔ text.toLower = d.toHex := by
  constructor
  · intro h
    by_cases hlen : (Text.toBytes text).length = 64
    · have hpairs : (Text.toBytes text).length = 2 * d.bytes.toList.length := by
        rw [hlen, Vector.length_toList]
      obtain ⟨hdigits, -⟩ := (ofHexDigits_eq_ok_iff hpairs).mp ((ofHex_of_length hlen).mp h)
      exact (ofHex_of_digits hlen hdigits).mp h
    · rw [ofHex_of_length_ne hlen] at h
      cases h
  · intro h
    obtain ⟨hlen, hdigits⟩ := digits_of_toLower_eq h
    exact (ofHex_of_digits hlen hdigits).mpr h

/-- A text of the right length is refused for its first byte that is no digit. -/
theorem ofHex_eq_error_iff {e : DigestError} (hlen : (Text.toBytes text).length = 64) :
    ofHex text = .error e ↔
      ∃ b, e = .digit b ∧ (Text.toBytes text).find? (fun a => ¬ IsHexDigit a) = some b := by
  have hpairs : (Text.toBytes text).length = 2 * 32 := hlen
  simp only [← ofHexDigits_eq_error_iff hpairs]
  rw [ofHex, if_pos hlen]
  cases hread : ofHexDigits (Text.toBytes text) with
  | error a => simp [eq_comm]
  | ok bs =>
    have hsize : bs.toArray.size = 32 := length_of_ofHexDigits (n := 32) hlen hread
    simp only [dif_pos hsize]
    simp

end Digest

/-! ## Matching results -/

namespace WorkResult

variable {r : WorkResult} {d : Digest} {x : Real64}

theorem matches_iff_toLower : r.Matches d x ↔
    r.digest.toLower = d.toHex ∧ (r.parameter == x) = true := by
  rw [← Digest.ofHex_eq_ok_iff, Matches]
  cases Digest.ofHex r.digest <;> simp [Except.toOption]

end WorkResult

/-- A text is read as a digest exactly if it has sixty-four bytes that are all digits and is, in
lower case, the text of the digest. That text itself consists of sixty-four lower case digits and
belongs to no other digest. Hence a result matches a digest and a parameter exactly if its text is
that of the digest but for the case of letters and its parameter is the same number, where the two
zeros are one; a text that is too short or too long, or that has a byte that is no digit anywhere,
matches nothing. It is refused for its length if that is wrong, and else for the first such byte. -/
theorem Digest.text_names_digest :
    (∀ text d, ofHex text = .ok d ↔ (Text.toBytes text).length = 64 ∧
      (∀ b ∈ Text.toBytes text, Bytes.IsHexDigit b) ∧ text.toLower = d.toHex) ∧
    (∀ d : Digest, (Text.toBytes d.toHex).length = 64 ∧ d.toHex.length = 64 ∧
      ∀ c ∈ d.toHex.toList, Bytes.IsLowerHexDigit c) ∧
    Function.Injective toHex ∧
    (∀ (r : WorkResult) d x, r.Matches d x ↔ r.digest.toLower = d.toHex ∧
      r.parameter.isNaN = false ∧ x.isNaN = false ∧
        (r.parameter = x ∨ r.parameter.IsZero ∧ x.IsZero)) ∧
    (∀ r : WorkResult, (Text.toBytes r.digest).length ≠ 64 ∨
      (∃ b ∈ Text.toBytes r.digest, ¬ Bytes.IsHexDigit b) → ∀ d x, ¬ r.Matches d x) ∧
    (∀ text e, ofHex text = .error e ↔
      (Text.toBytes text).length ≠ 64 ∧ e = .length (Text.toBytes text).length ∨
      (Text.toBytes text).length = 64 ∧ ∃ b, e = .digit b ∧
        (Text.toBytes text).find? (fun a => ¬ Bytes.IsHexDigit a) = some b) := by
  refine ⟨?accepted, ?written, toHex_injective, ?matching, ?malformed, ?refused⟩
  case accepted =>
    intro text d
    rw [ofHex_eq_ok_iff]
    constructor
    · intro h
      obtain ⟨hlen, hdigits⟩ := digits_of_toLower_eq h
      exact ⟨hlen, hdigits, h⟩
    · rintro ⟨-, -, h⟩
      exact h
  case written =>
    intro d
    obtain ⟨hlen, hlower⟩ := d.toHex_digits
    have hsame : d.toHex.toLower = d.toHex := ofHex_eq_ok_iff.mp (ofHex_toHex d)
    exact ⟨(digits_of_toLower_eq hsame).1, hlen, hlower⟩
  case matching =>
    intro r d x
    rw [WorkResult.matches_iff_toLower, Real64.beq_iff_eq]
  case malformed =>
    intro r hbad d x hmatches
    obtain ⟨hlen, hdigits⟩ := digits_of_toLower_eq (WorkResult.matches_iff_toLower.mp hmatches).1
    obtain hne | ⟨b, hb, hnot⟩ := hbad
    · exact hne hlen
    · exact hnot (hdigits b hb)
  case refused =>
    intro text e
    by_cases hlen : (Text.toBytes text).length = 64
    · rw [ofHex_eq_error_iff hlen]
      simp [hlen]
    · rw [ofHex_of_length_ne hlen]
      simp [hlen, eq_comm]

-- sixty-four bytes, but thirty-two characters
example : Digest.ofHex (String.ofList (List.replicate 32 'é')) = .error (.digit 0xc3) := rfl

end FleetEstimate
