import Mathlib
import FleetEstimate.Json.Value
import FleetEstimate.Proofs.Decimal.Numerals

/-!
# Reading what is written plainly

A value is written plainly if there are no blanks in it and every character of a string stands
for itself. Whole numbers, strings and objects that are written so are read as what they say,
whatever follows them, as long as it does not continue a number.
-/

namespace FleetEstimate.Json

open Decimal (IsDigit digit?)

variable {calls depth n : ℕ} {cs ds rest name s : List Char} {c : Char}
variable {read members : List (String × Json)} {value : Json}

/-! ## Strings -/

def IsBlank (c : Char) : Prop := c = ' ' ∨ c = '\n' ∨ c = '\t' ∨ c = '\r'

instance : DecidablePred IsBlank := fun _ => inferInstanceAs (Decidable (_ ∨ _))

theorem skipBlanks_cons (h : ¬ IsBlank c) : skipBlanks (c :: cs) = c :: cs := by
  have hc : (c = ' ' || c = '\n' || c = '\t' || c = '\r') = false := by
    simpa [IsBlank, and_assoc] using h
  rw [skipBlanks, List.dropWhile_cons, hc]
  rfl

/-- A character that stands for itself inside a string. -/
def IsPlain (c : Char) : Prop := c ≠ '"' ∧ c ≠ '\\' ∧ 0x20 ≤ c.toNat

instance : DecidablePred IsPlain := fun _ => inferInstanceAs (Decidable (_ ∧ _))

theorem readString_cons {read : List Char} (h : IsPlain c) :
    readString read (c :: cs) = readString (c :: read) cs := by
  obtain ⟨hquote, hescape, hcontrol⟩ := h
  have hplain : ¬ (c.toNat < 0x20 ∨ c = '\\') := by
    simp [hescape]
    omega
  rw [readString.eq_def]
  split
  case h_5 heq =>
    cases heq
    rw [if_neg hplain]
  -- an end of the text, the closing quote and the escapes begin with another character
  all_goals simp_all

theorem readString_of_plain {read : List Char} (h : ∀ c ∈ s, IsPlain c) :
    readString read (s ++ '"' :: rest) = some (String.ofList (read.reverse ++ s), rest) := by
  induction s generalizing read with
  | nil => rw [List.nil_append, readString, List.append_nil]
  | cons c s ih =>
    rw [List.cons_append, readString_cons (h c List.mem_cons_self),
      ih fun c' hc' => h c' (List.mem_cons_of_mem c hc')]
    simp

/-! ## Whole numbers -/

/-- No part of a number comes next. -/
def EndsNumber (rest : List Char) : Prop :=
  ∀ c ∈ rest.head?, ¬ IsDigit c ∧ c ≠ '.' ∧ c ≠ 'e' ∧ c ≠ 'E'

theorem spanDigits_append (hdigits : ∀ c ∈ ds, IsDigit c)
    (hrest : ∀ c ∈ rest.head?, ¬ IsDigit c) : spanDigits (ds ++ rest) = (ds, rest) := by
  have hall : ∀ c ∈ ds, (digit? c).isSome = true := by
    intro c hc
    rw [Decimal.digit?_eq_some_iff.mpr ⟨hdigits c hc, rfl⟩]
    rfl
  -- what follows starts with no digit, so the span ends there
  have hnone : rest.takeWhile (fun c => (digit? c).isSome) = [] ∧
      rest.dropWhile (fun c => (digit? c).isSome) = rest := by
    cases rest with
    | nil => exact ⟨rfl, rfl⟩
    | cons c rest =>
      have hc : digit? c = none := Decimal.digit?_eq_none_iff.mpr (hrest c rfl)
      simp [hc]
  rw [spanDigits, List.span_eq_takeWhile_dropWhile, List.takeWhile_append_of_pos hall,
    List.dropWhile_append_of_pos hall, hnone.1, hnone.2, List.append_nil]

/-- A zero in front would be a whole number part of its own. -/
theorem readWholePart_toDigits (hrest : ∀ c ∈ rest.head?, ¬ IsDigit c) :
    readWholePart (Nat.toDigits 10 n ++ rest) = some (Nat.toDigits 10 n, rest) := by
  have hspan := spanDigits_append (fun c => Decimal.isDigit_of_mem_toDigits (n := n)) hrest
  rw [readWholePart, hspan]
  split
  case h_1 heq => simp at heq
  case h_2 c cs _ heq =>
    have hlead : Nat.toDigits 10 n = '0' :: c :: cs := congrArg Prod.fst heq
    -- no number but zero is written with a leading zero
    by_cases hn : n = 0
    · simp [hn] at hlead
    · exact absurd (by rw [hlead]; rfl) (Decimal.head?_toDigits hn)
  case h_3 => rfl

theorem readFraction_of_ends (h : EndsNumber rest) : readFraction rest = some ([], rest) := by
  cases rest with
  | nil => rfl
  | cons c rest =>
    obtain ⟨-, hpoint, -⟩ := h c rfl
    simp [readFraction.eq_def, hpoint]

theorem readExponent_of_ends (h : EndsNumber rest) : readExponent rest = some (none, rest) := by
  cases rest with
  | nil => rfl
  | cons c rest =>
    obtain ⟨-, -, hlower, hupper⟩ := h c rfl
    simp [readExponent.eq_def, hlower, hupper]

theorem readUnsigned_toDigits (hn : n < UInt64.size) (hrest : EndsNumber rest) :
    readUnsigned false (Nat.toDigits 10 n ++ rest) = some (.whole (UInt64.ofNat n), rest) := by
  have hwhole := readWholePart_toDigits (n := n) fun c hc => (hrest c hc).1
  simp [readUnsigned, hwhole, readFraction_of_ends hrest, readExponent_of_ends hrest,
    Decimal.digitsValue_toDigits, hn]

theorem readNumber_toDigits (hn : n < UInt64.size) (hrest : EndsNumber rest) :
    readNumber (Nat.toDigits 10 n ++ rest) = some (.whole (UInt64.ofNat n), rest) := by
  obtain ⟨c, cs, hcons, hc⟩ := Decimal.exists_toDigits_eq_cons n
  rw [← readUnsigned_toDigits hn hrest, hcons, List.cons_append, readNumber.eq_def]
  split
  case h_1 heq =>
    cases heq
    exact absurd hc (by unfold IsDigit; decide)
  case h_2 => rfl

/-! ## Values -/

theorem readValue_toDigits (hn : n < UInt64.size) (hrest : EndsNumber rest) :
    readValue (calls + 1) depth (Nat.toDigits 10 n ++ rest) =
      some (.whole (UInt64.ofNat n), rest) := by
  obtain ⟨c, cs, hcons, hc⟩ := Decimal.exists_toDigits_eq_cons n
  have hblank : ¬ IsBlank c := by
    rintro (rfl | rfl | rfl | rfl) <;> exact absurd hc (by unfold IsDigit; decide)
  rw [← readNumber_toDigits hn hrest, hcons, List.cons_append, readValue, skipBlanks_cons hblank]
  split
  case h_7 => rfl
  -- the other values begin with characters that are no digits
  all_goals
    rename_i heq
    cases heq
    exact absurd hc (by unfold IsDigit; decide)

theorem readValue_string (h : ∀ c ∈ s, IsPlain c) :
    readValue (calls + 1) depth ('"' :: (s ++ '"' :: rest)) =
      some (.string (String.ofList s), rest) := by
  have hquote : ¬ IsBlank '"' := by decide
  simp [readValue, skipBlanks_cons hquote, readString_of_plain h]

/-- What stands behind the value of a member tells whether another one follows. -/
theorem readMembers_member (hname : ∀ c ∈ name, IsPlain c)
    (hvalue : readValue calls depth cs = some (value, rest)) :
    readMembers (calls + 1) depth read ('"' :: (name ++ '"' :: ':' :: cs)) =
      match skipBlanks rest with
      | ',' :: cs => readMembers calls depth ((String.ofList name, value) :: read) cs
      | '\x7d' :: cs => some (((String.ofList name, value) :: read).reverse, cs)
      | _ => none := by
  -- neither the quote nor the colon is a blank to be skipped
  have hquote : ¬ IsBlank '"' := by decide
  have hcolon : ¬ IsBlank ':' := by decide
  simp only [readMembers, skipBlanks_cons hquote, readString_of_plain hname,
    skipBlanks_cons hcolon, hvalue]
  rfl

theorem readMembers_cons (hname : ∀ c ∈ name, IsPlain c)
    (hvalue : readValue calls depth cs = some (value, ',' :: rest)) :
    readMembers (calls + 1) depth read ('"' :: (name ++ '"' :: ':' :: cs)) =
      readMembers calls depth ((String.ofList name, value) :: read) rest := by
  rw [readMembers_member hname hvalue, skipBlanks_cons (by decide)]
  rfl

theorem readMembers_last (hname : ∀ c ∈ name, IsPlain c)
    (hvalue : readValue calls depth cs = some (value, '\x7d' :: rest)) :
    readMembers (calls + 1) depth read ('"' :: (name ++ '"' :: ':' :: cs)) =
      some (((String.ofList name, value) :: read).reverse, rest) := by
  rw [readMembers_member hname hvalue, skipBlanks_cons (by decide)]
  rfl

theorem readValue_object
    (hmembers : readMembers calls depth [] ('"' :: cs) = some (members, rest)) :
    readValue (calls + 1) (depth + 1) ('\x7b' :: '"' :: cs) = some (.object members, rest) := by
  have hquote : ¬ IsBlank '"' := by decide
  have hbrace : ¬ IsBlank '\x7b' := by decide
  simp [readValue, skipBlanks_cons hbrace, skipBlanks_cons hquote, hmembers]

end FleetEstimate.Json
