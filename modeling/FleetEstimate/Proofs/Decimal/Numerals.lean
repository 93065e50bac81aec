import Mathlib
import FleetEstimate.Decimal.Read

/-!
# Numerals

A whole number is written with one or more decimal digits behind an optional plus sign.
`Decimal.readNat` reads exactly these texts up to its limit. Zeros in front count for
nothing, so a numeral may be longer than its limit. The digits that a number is written with
have its value, and no zero in front.
-/

namespace FleetEstimate.Decimal

/-- An ASCII decimal digit. -/
def IsDigit (c : Char) : Prop := '0' ≤ c ∧ c ≤ '9'

def digitValue (c : Char) : Nat := c.toNat - '0'.toNat

/-- The number that digits stand for, the greatest place first. -/
def valueOf (ds : List Char) : Nat := Nat.ofDigits 10 (ds.map digitValue).reverse

/-- The text denotes the number `n` in decimal. -/
def IsNumeral (text : String) (n : Nat) : Prop :=
  ∃ ds, (text.toList = ds ∨ text.toList = '+' :: ds) ∧ ds ≠ [] ∧ (∀ c ∈ ds, IsDigit c) ∧
    valueOf ds = n

variable {limit n k d : Nat} {c : Char} {cs : List Char} {text : String}

theorem digit?_eq_some_iff : digit? c = some d ↔ IsDigit c ∧ digitValue c = d := by
  unfold digit? IsDigit digitValue
  split <;> simp_all

theorem digit?_eq_none_iff : digit? c = none ↔ ¬ IsDigit c := by
  simp only [digit?, IsDigit, ite_eq_right_iff, reduceCtorEq, imp_false]

@[simp]
theorem valueOf_nil : valueOf [] = 0 := rfl

theorem valueOf_cons : valueOf (c :: cs) = digitValue c * 10 ^ cs.length + valueOf cs := by
  simp [valueOf, Nat.ofDigits_append, add_comm, mul_comm]

theorem not_isDigit_plus : ¬ IsDigit '+' := by
  unfold IsDigit
  decide

/-! ## Reading -/

/-- By induction on the digits. Every number on the way is at most the last one, so that
the limit need only hold at the end. -/
theorem readDigits_eq_ok_iff (hn : n ≤ limit) :
    readDigits limit n cs = .ok k ↔
      (∀ c ∈ cs, IsDigit c) ∧ n * 10 ^ cs.length + valueOf cs = k ∧ k ≤ limit := by
  induction cs generalizing n with
  | nil =>
    constructor
    · intro h
      cases h
      simpa using hn
    · rintro ⟨-, hk, -⟩
      rw [← hk]
      simp [readDigits]
  | cons c cs ih =>
    -- a digit more is ten times the number so far, and the digit
    have hvalue : n * 10 ^ (c :: cs).length + valueOf (c :: cs) =
        (10 * n + digitValue c) * 10 ^ cs.length + valueOf cs := by
      rw [valueOf_cons, List.length_cons, pow_succ]
      ring
    rw [hvalue, List.forall_mem_cons, readDigits]
    cases hd : digit? c with
    | none =>
      have hc : ¬ IsDigit c := digit?_eq_none_iff.mp hd
      simp [hc]
    | some d =>
      obtain ⟨hc, rfl⟩ := digit?_eq_some_iff.mp hd
      simp only [hc, true_and]
      split
      case isTrue hover =>
        -- over the limit once, the number only grows
        have hle : 10 * n + digitValue c ≤ (10 * n + digitValue c) * 10 ^ cs.length :=
          Nat.le_mul_of_pos_right _ (by positivity)
        constructor
        · intro h
          cases h
        · rintro ⟨-, hk, hlimit⟩
          omega
      case isFalse hover => exact ih (not_lt.mp hover)

theorem readDigits_zero_eq_ok_iff :
    readDigits limit 0 cs = .ok k ↔ (∀ c ∈ cs, IsDigit c) ∧ valueOf cs = k ∧ k ≤ limit := by
  simpa using readDigits_eq_ok_iff (Nat.zero_le limit)

/-- The numerals up to the limit are read, each as its number, and nothing else is. -/
theorem readNat_eq_ok_iff : readNat limit text = .ok n ↔ IsNumeral text n ∧ n ≤ limit := by
  -- the text is empty, a lone plus, a plus with more behind it, or without a plus
  unfold readNat IsNumeral
  split
  case h_1 htext => simp [htext]
  case h_2 htext => simp [htext, not_isDigit_plus]
  case h_3 cs hcs htext =>
    simp [htext, readDigits_zero_eq_ok_iff, not_isDigit_plus, show cs ≠ [] from hcs, and_assoc]
  case h_4 hempty _ hsign =>
    rw [readDigits_zero_eq_ok_iff]
    constructor
    · rintro ⟨hdigits, hvalue, hle⟩
      exact ⟨⟨text.toList, .inl rfl, hempty, hdigits, hvalue⟩, hle⟩
    · rintro ⟨⟨ds, hds | hds, -, hdigits, hvalue⟩, hle⟩
      · rw [hds]
        exact ⟨hdigits, hvalue, hle⟩
      · exact absurd hds (hsign ds)

theorem readNat_eq_error_iff :
    (∃ e, readNat limit text = .error e) ↔ ¬ ∃ n ≤ limit, IsNumeral text n := by
  -- it is read or it is not, and what is read is told
  cases h : readNat limit text with
  | error e =>
    have hnone : ¬ ∃ n ≤ limit, IsNumeral text n := by
      rintro ⟨n, hle, hn⟩
      simp [readNat_eq_ok_iff.mpr ⟨hn, hle⟩] at h
    simp [hnone]
  | ok n =>
    obtain ⟨hn, hle⟩ := readNat_eq_ok_iff.mp h
    have hsome : ∃ n ≤ limit, IsNumeral text n := ⟨n, hle, hn⟩
    simp [hsome]

/-- A numeral has no other characters than digits and a plus sign. -/
theorem IsNumeral.mem (hn : IsNumeral text n) (hc : c ∈ text.toList) : c = '+' ∨ IsDigit c := by
  obtain ⟨ds, htext | htext, -, hdigits, -⟩ := hn
  · exact .inr (hdigits c (htext ▸ hc))
  · rw [htext, List.mem_cons] at hc
    exact hc.imp_right (hdigits c)

/-! ## The digits of a number -/

theorem isDigit_of_mem_toDigits (h : c ∈ Nat.toDigits 10 n) : IsDigit c := by
  have hdigit : c.isDigit = true := Nat.isDigit_of_mem_toDigits (by decide) (by decide) h
  simpa [Char.isDigit, IsDigit, Char.le_def] using hdigit

theorem exists_toDigits_eq_cons (n : Nat) : ∃ c cs, Nat.toDigits 10 n = c :: cs ∧ IsDigit c := by
  obtain ⟨c, cs, hcons⟩ := List.exists_cons_of_ne_nil (Nat.toDigits_ne_nil (n := n) (b := 10))
  refine ⟨c, cs, hcons, isDigit_of_mem_toDigits (n := n) ?_⟩
  rw [hcons]
  exact List.mem_cons_self

/-- No zero stands in front of the digits of a number. -/
theorem head?_toDigits (h : n ≠ 0) : (Nat.toDigits 10 n).head? ≠ some '0' := by
  have hsingle : ∀ d < 10, d ≠ 0 → Nat.digitChar d ≠ '0' := by decide
  induction n using Nat.strong_induction_on with
  | _ n ih =>
    rcases Nat.lt_or_ge n 10 with hlt | hge
    · rw [Nat.toDigits_of_lt_base hlt]
      simpa using hsingle n hlt h
    · have hne : n / 10 ≠ 0 := by omega
      rw [Nat.toDigits_of_base_le (by decide) hge,
        List.head?_append_of_ne_nil _ Nat.toDigits_ne_nil]
      exact ih (n / 10) (by omega) hne

theorem digitsValue_of_isDigit (h : ∀ c ∈ cs, IsDigit c) :
    digitsValue cs = Nat.ofDigitChars 10 cs 0 := by
  rw [Nat.ofDigitChars_eq_foldl, digitsValue]
  refine List.foldl_ext _ _ _ ?_
  intro n c hc
  rw [digit?_eq_some_iff.mpr ⟨h c hc, rfl⟩]
  rfl

theorem digitsValue_toDigits (n : Nat) : digitsValue (Nat.toDigits 10 n) = n := by
  rw [digitsValue_of_isDigit fun _ => isDigit_of_mem_toDigits]
  exact Nat.ofDigitChars_toDigits (by decide) (by decide)

end FleetEstimate.Decimal
