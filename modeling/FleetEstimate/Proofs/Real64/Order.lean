import FleetEstimate.Proofs.Real64.Parts

/-!
# The order of numbers

Numbers are compared by their place: the class first, then the exponent, then the
significand. A NaN has no place, so that every comparison with it is false; all other
numbers have one, on a line.
-/

namespace FleetEstimate.Real64

open Float.Model (UnpackedFloat)

/-- Where parts stand among all others. -/
def place : UnpackedFloat → Option (ℤ ×ₗ ℤ ×ₗ ℤ)
  | .notANumber => none
  | .infinity .negative => some (toLex (-2, toLex (0, 0)))
  | .finite .negative m e _ => some (toLex (-1, toLex (-e, -(m : ℤ))))
  | .zero _ => some (toLex (0, toLex (0, 0)))
  | .finite .positive m e _ => some (toLex (1, toLex (e, (m : ℤ))))
  | .infinity .positive => some (toLex (2, toLex (0, 0)))

theorem place_eq_none_iff (u : UnpackedFloat) : place u = none ↔ u = .notANumber := by
  rcases u with (_ | _) | _ | _ | ⟨_ | _, m, e, h⟩ <;> simp [place]

theorem compare_then_eq (e₁ e₂ : ℤ) (m₁ m₂ : ℕ) :
    (compare e₁ e₂).then (compare m₁ m₂) =
      if e₁ < e₂ ∨ e₁ = e₂ ∧ m₁ < m₂ then .lt else if e₁ = e₂ ∧ m₁ = m₂ then .eq else .gt := by
  simp only [compare, compareOfLessAndEq]
  grind [Ordering.then]

theorem unpacked_le_iff (u v : UnpackedFloat) :
    u.le v = true ↔ ∃ p q, place u = some p ∧ place v = some q ∧ p ≤ q := by
  unfold UnpackedFloat.le
  rcases u with (_ | _) | _ | _ | ⟨_ | _, m₁, e₁, h₁⟩ <;>
  rcases v with (_ | _) | _ | _ | ⟨_ | _, m₂, e₂, h₂⟩ <;>
    simp [UnpackedFloat.compare, place, Prod.Lex.toLex_le_toLex, compare_then_eq]
  -- what simp leaves open are the two infinities, and finite numbers of one sign
  case infinity.negative.infinity.negative => rfl
  case infinity.negative.infinity.positive => rfl
  case infinity.positive.infinity.negative => rfl
  case infinity.positive.infinity.positive => rfl
  case finite.negative.finite.negative => grind [Ordering.isGE]
  case finite.positive.finite.positive => grind [Ordering.isLE]

theorem unpacked_lt_iff (u v : UnpackedFloat) :
    u.lt v = true ↔ ∃ p q, place u = some p ∧ place v = some q ∧ p < q := by
  unfold UnpackedFloat.lt
  rcases u with (_ | _) | _ | _ | ⟨_ | _, m₁, e₁, h₁⟩ <;>
  rcases v with (_ | _) | _ | _ | ⟨_ | _, m₂, e₂, h₂⟩ <;>
    simp [UnpackedFloat.compare, place, Prod.Lex.toLex_lt_toLex, compare_then_eq]
  case infinity.negative.infinity.positive => decide
  case finite.negative.finite.negative => grind
  case finite.positive.finite.positive => grind

theorem unpacked_beq_iff (u v : UnpackedFloat) :
    u.beq v = true ↔ ∃ p, place u = some p ∧ place v = some p := by
  unfold UnpackedFloat.beq
  rcases u with (_ | _) | _ | _ | ⟨_ | _, m₁, e₁, h₁⟩ <;>
  rcases v with (_ | _) | _ | _ | ⟨_ | _, m₂, e₂, h₂⟩ <;>
    simp [UnpackedFloat.compare, place, compare_then_eq]
  case infinity.negative.infinity.negative => rfl
  case infinity.positive.infinity.positive => rfl
  case finite.negative.finite.negative => grind
  case finite.positive.finite.positive => grind

/-! ## Comparisons -/

variable {x y z : Real64}

theorem le_iff : x ≤ y ↔ ∃ p q, place x.parts = some p ∧ place y.parts = some q ∧ p ≤ q :=
  decide_eq_true_iff.trans (unpacked_le_iff x.parts y.parts)

theorem lt_iff : x < y ↔ ∃ p q, place x.parts = some p ∧ place y.parts = some q ∧ p < q :=
  decide_eq_true_iff.trans (unpacked_lt_iff x.parts y.parts)

theorem beq_iff : (x == y) = true ↔ ∃ p, place x.parts = some p ∧ place y.parts = some p :=
  unpacked_beq_iff x.parts y.parts

/-- Only a NaN has no place. -/
theorem isNaN_eq_false_iff : x.isNaN = false ↔ ∃ p, place x.parts = some p := by
  rw [← Option.isSome_iff_exists, Option.isSome_iff_ne_none, Ne, place_eq_none_iff, ← isNaN_iff]
  simp

/-- Every number equals itself, and a NaN nothing. -/
theorem beq_self_iff : (x == x) = true ↔ x.isNaN = false := by
  rw [beq_iff, isNaN_eq_false_iff]
  simp only [and_self]

theorem isNaN_of_le (h : x ≤ y) : x.isNaN = false ∧ y.isNaN = false := by
  rcases le_iff.1 h with ⟨p, q, hp, hq, -⟩
  exact ⟨isNaN_eq_false_iff.2 ⟨p, hp⟩, isNaN_eq_false_iff.2 ⟨q, hq⟩⟩

theorem isNaN_of_lt (h : x < y) : x.isNaN = false ∧ y.isNaN = false := by
  rcases lt_iff.1 h with ⟨p, q, hp, hq, -⟩
  exact ⟨isNaN_eq_false_iff.2 ⟨p, hp⟩, isNaN_eq_false_iff.2 ⟨q, hq⟩⟩

theorem le_trans (h : x ≤ y) (h' : y ≤ z) : x ≤ z := by
  rcases le_iff.1 h with ⟨p, q, hp, hq, hpq⟩
  rcases le_iff.1 h' with ⟨q', r, hq', hr, hqr⟩
  obtain rfl : q = q' := Option.some.inj (hq.symm.trans hq')
  exact le_iff.2 ⟨p, r, hp, hr, hpq.trans hqr⟩

theorem lt_of_le_of_lt (h : x ≤ y) (h' : y < z) : x < z := by
  rcases le_iff.1 h with ⟨p, q, hp, hq, hpq⟩
  rcases lt_iff.1 h' with ⟨q', r, hq', hr, hqr⟩
  obtain rfl : q = q' := Option.some.inj (hq.symm.trans hq')
  exact lt_iff.2 ⟨p, r, hp, hr, hpq.trans_lt hqr⟩

theorem le_of_lt (h : x < y) : x ≤ y := by
  rcases lt_iff.1 h with ⟨p, q, hp, hq, hpq⟩
  exact le_iff.2 ⟨p, q, hp, hq, hpq.le⟩

/-- Of two numbers that are not NaNs, one is at most the other. -/
theorem lt_of_not_le (hx : x.isNaN = false) (hy : y.isNaN = false) (h : ¬ x ≤ y) : y < x := by
  rcases isNaN_eq_false_iff.1 hx with ⟨p, hp⟩
  rcases isNaN_eq_false_iff.1 hy with ⟨q, hq⟩
  refine lt_iff.2 ⟨q, p, hq, hp, ?_⟩
  by_contra hle
  exact h (le_iff.2 ⟨p, q, hp, hq, not_lt.1 hle⟩)

theorem not_le_of_lt (h : x < y) : ¬ y ≤ x := by
  intro hle
  rcases lt_iff.1 h with ⟨p, q, hp, hq, hpq⟩
  rcases le_iff.1 hle with ⟨q', p', hq', hp', hqp⟩
  obtain rfl : p = p' := Option.some.inj (hp.symm.trans hp')
  obtain rfl : q = q' := Option.some.inj (hq.symm.trans hq')
  exact not_le_of_gt hpq hqp

theorem le_of_not_lt (hx : x.isNaN = false) (hy : y.isNaN = false) (h : ¬ x < y) : y ≤ x := by
  by_contra hle
  exact h (lt_of_not_le hy hx hle)

/-! ## The larger of two numbers -/

theorem larger_isNaN : (larger x y).isNaN = (x.isNaN && y.isNaN) := by
  unfold larger
  by_cases hx : x.isNaN = true
  · simp [hx]
  · simp only [hx, Bool.false_eq_true, if_false, Bool.false_and]
    split
    · rename_i hlt
      exact (isNaN_of_lt hlt).2
    · simpa using hx

/-- The larger of two numbers is above both of them that are not NaNs. -/
theorem le_larger (h : larger x y ≤ z) :
    (x.isNaN = false → x ≤ z) ∧ (y.isNaN = false → y ≤ z) := by
  unfold larger at h
  -- a NaN on the left is passed over; otherwise they are compared
  by_cases hx : x.isNaN = true
  · rw [if_pos hx] at h
    exact ⟨fun h' => absurd hx (by simp [h']), fun _ => h⟩
  · rw [if_neg hx] at h
    split at h
    · rename_i hlt
      exact ⟨fun _ => le_trans (le_of_lt hlt) h, fun _ => h⟩
    · rename_i hlt
      refine ⟨fun _ => h, fun hy => le_trans (le_of_not_lt (by simpa using hx) hy hlt) h⟩

/-- What bounds the largest of some numbers bounds each of them that is not a NaN. A NaN
among them is lost. -/
theorem le_of_foldl_larger (xs : List Real64) :
    ∀ {x}, xs.foldl larger x ≤ z → (x.isNaN = false → x ≤ z) ∧
      ∀ y ∈ xs, y.isNaN = false → y ≤ z := by
  induction xs with
  | nil => exact fun h => ⟨fun _ => h, by simp⟩
  | cons y ys ih =>
    intro x h
    rcases ih h with ⟨hhead, htail⟩
    -- the larger of the two is a NaN only if both are, and then nothing is claimed
    have hxy : (x.isNaN = false → x ≤ z) ∧ (y.isNaN = false → y ≤ z) := by
      by_cases hn : (larger x y).isNaN = true
      · rw [larger_isNaN, Bool.and_eq_true] at hn
        exact ⟨fun h' => absurd hn.1 (by simp [h']), fun h' => absurd hn.2 (by simp [h'])⟩
      · exact le_larger (hhead (by simpa using hn))
    refine ⟨hxy.1, fun v hv => ?_⟩
    rcases List.mem_cons.1 hv with rfl | hv
    · exact hxy.2
    · exact htail v hv

end FleetEstimate.Real64
