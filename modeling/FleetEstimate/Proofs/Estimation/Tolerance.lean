import FleetEstimate.Proofs.Real64.Counts
import FleetEstimate.Totals

/-!
# When a tolerance is undefined

A tolerance is the quotient of a half-width and a mean. It is infinite while the mean is
not above zero. With a finite multiplier other than zero it is a NaN exactly if the mean
is one: such a mean is not at most zero either, and every other undefined step is undone
by the clamp of the variance.
-/

namespace FleetEstimate.Real64

open Float.Model (UnpackedFloat Format)
open Float.Model.UnpackedFloat

/-! ## Magnitudes -/

/-- Parts that are not below zero. The two zeros both count. -/
inductive IsMagnitude : UnpackedFloat → Prop
  | zero (s : Sign) : IsMagnitude (.zero s)
  | finite (m : ℕ) (e : ℤ) (h : 0 < m) : IsMagnitude (.finite .positive m e h)
  | infinity : IsMagnitude (.infinity .positive)

theorem IsMagnitude.repack {u : UnpackedFloat} (h : IsMagnitude u) : IsMagnitude (repack u) := by
  cases h with
  | zero s =>
    rw [repack_zero]
    exact .zero s
  | finite m e h =>
    -- a finite number may be rounded to zero or to infinity
    rcases repack_finite .positive m e h with h' | h' | ⟨m', e', h₀, h'⟩ <;> rw [h']
    · exact .infinity
    · exact .zero _
    · exact .finite m' e' h₀
  | infinity =>
    rw [repack_infinity]
    exact .infinity

theorem isMagnitude_round (m : ℕ) (e : ℤ) (acc : Accuracy) :
    IsMagnitude (roundWithAccuracy .binary64 .positive m e acc) := by
  unfold roundWithAccuracy
  dsimp only
  split
  · exact .zero _
  · exact .finite _ _ _

theorem IsMagnitude.sqrt {u : UnpackedFloat} (h : IsMagnitude u) :
    IsMagnitude (UnpackedFloat.sqrt .binary64 u) := by
  cases h with
  | zero s => exact .zero s
  | finite m e h => exact isMagnitude_round _ _ _
  | infinity => exact .infinity

/-- The clamp at zero. -/
theorem isMagnitude_larger_zero (x : Real64) : IsMagnitude (larger x 0).parts := by
  have hzero : (0 : Real64).parts = .zero .positive := rfl
  unfold larger
  split
  · rw [hzero]
    exact .zero _
  · rename_i hx
    split
    · rw [hzero]
      exact .zero _
    · rename_i hlt
      rw [lt_iff, hzero] at hlt
      rw [isNaN_eq] at hx
      -- a negative number would be below zero, and a NaN was told before
      rcases hp : x.parts with (_ | _) | _ | s | ⟨_ | _, m, e, h⟩
      · exact absurd ⟨_, _, by rw [hp, place], rfl, by decide⟩ hlt
      · exact .infinity
      · rw [hp] at hx
        exact absurd rfl hx
      · exact .zero s
      · refine absurd ⟨_, _, by rw [hp, place], rfl, ?_⟩ hlt
        simp [Prod.Lex.toLex_lt_toLex]
      · exact .finite m e h

theorem isNaN_round (s : Sign) (m : ℕ) (e : ℤ) (acc : Accuracy) :
    (roundWithAccuracy .binary64 s m e acc).isNaN = false := by
  unfold roundWithAccuracy
  dsimp only
  split <;> rfl

/-! ## Products and quotients -/

variable {x y : Real64}

theorem isNaN_div_left (h : x.isNaN = true) : (x / y).isNaN = true := by
  rw [isNaN_eq, parts_div, isNaN_iff.1 h, repack_isNaN, repack_isNaN]
  rfl

theorem isNaN_div_right (h : y.isNaN = true) : (x / y).isNaN = true := by
  rw [isNaN_eq, parts_div, isNaN_iff.1 h, repack_isNaN, repack_isNaN]
  cases x.parts <;> rfl

/-- A finite number other than zero has a significand. -/
theorem parts_of_isFinite (hfin : x.isFinite = true) (hzero : (x == 0) = false) :
    ∃ s m e h, x.parts = .finite s m e h := by
  rw [isFinite_eq] at hfin
  have hbeq : (x == 0) = UnpackedFloat.beq x.parts (.zero .positive) := rfl
  rw [hbeq] at hzero
  -- it is no zero, and the two kinds that are left are not finite
  cases hp : x.parts with
  | finite s m e h => exact ⟨s, m, e, h, rfl⟩
  | zero s =>
    rw [hp] at hzero
    exact absurd hzero (by cases s <;> decide)
  | infinity s =>
    rw [hp] at hfin
    exact absurd hfin (by simp [UnpackedFloat.isFinite])
  | notANumber =>
    rw [hp] at hfin
    exact absurd hfin (by simp [UnpackedFloat.isFinite])

/-- A finite number other than zero times a magnitude is defined. -/
theorem isNaN_mul_magnitude (hfin : x.isFinite = true) (hzero : (x == 0) = false)
    (hy : IsMagnitude y.parts) : (x * y).isNaN = false := by
  rcases parts_of_isFinite hfin hzero with ⟨s, m, e, h, hx⟩
  rw [isNaN_eq, parts_mul, repack_isNaN, repack_isNaN, hx]
  generalize y.parts = v at hy
  cases hy with
  | zero s' => rfl
  | finite m' e' h' => exact isNaN_round _ _ _ _
  | infinity => rfl

theorem isFinite_mul_zero {s : Sign} (hfin : x.isFinite = true) (hzero : (x == 0) = false)
    (hy : y.parts = .zero s) : (x * y).isFinite = true := by
  rcases parts_of_isFinite hfin hzero with ⟨s', m, e, h, hx⟩
  have hmul : mul .binary64 (.finite s' m e h) (.zero s) = .zero (s' * s) := rfl
  rw [isFinite_eq, parts_mul, hx, hy, hmul, repack_zero, repack_zero]
  rfl

/-- A number that is not at most zero, and no NaN, is positive. -/
theorem parts_of_not_le_zero (hx : x.isNaN = false) (h : ¬ x ≤ 0) :
    (∃ m e h, x.parts = .finite .positive m e h) ∨ x.parts = .infinity .positive := by
  have hzero : (0 : Real64).parts = .zero .positive := rfl
  rw [le_iff, hzero] at h
  rw [isNaN_eq] at hx
  -- all that is not positive is at most zero, or a NaN
  rcases hp : x.parts with (_ | _) | _ | s | ⟨_ | _, m, e, h₀⟩
  · exact absurd ⟨_, _, by rw [hp, place], rfl, by decide⟩ h
  · exact .inr rfl
  · rw [hp] at hx
    exact absurd hx (by decide)
  · exact absurd ⟨_, _, by rw [hp, place], rfl, le_refl _⟩ h
  · refine absurd ⟨_, _, by rw [hp, place], rfl, ?_⟩ h
    simp [Prod.Lex.toLex_le_toLex]
  · exact .inl ⟨m, e, h₀, rfl⟩

/-- Only an infinite number over an infinite one is undefined. -/
theorem isNaN_div_positive (hx : x.isNaN = false)
    (hy : (∃ m e h, y.parts = .finite .positive m e h) ∨
      y.parts = .infinity .positive ∧ x.isFinite = true) : (x / y).isNaN = false := by
  rw [isNaN_eq] at hx
  rw [isNaN_eq, parts_div, repack_isNaN, repack_isNaN]
  -- over a finite number only a NaN gives a NaN, and what is over an infinite one is finite
  rcases hy with ⟨m, e, h, hy⟩ | ⟨hy, hfin⟩
  · rw [hy]
    cases hp : x.parts with
    | notANumber =>
      rw [hp] at hx
      exact absurd hx (by decide)
    | infinity s => rfl
    | zero s => rfl
    | finite s m' e' h' => exact isNaN_round _ _ _ _
  · rw [isFinite_eq] at hfin
    rw [hy]
    cases hp : x.parts with
    | notANumber =>
      rw [hp] at hx
      exact absurd hx (by decide)
    | infinity s =>
      rw [hp] at hfin
      exact absurd hfin (by simp [UnpackedFloat.isFinite])
    | zero s => rfl
    | finite s m' e' h' => rfl

/-! ## Infinite means -/

/-- Parts that the clamp takes to zero. -/
def IsClamped (u : UnpackedFloat) : Prop := u = .notANumber ∨ u = .infinity .negative

theorem IsClamped.repack {u : UnpackedFloat} (h : IsClamped u) : IsClamped (repack u) := by
  rcases h with rfl | rfl
  · exact .inl rfl
  · exact .inr rfl

/-- Nothing is above zero after an infinite number is taken from it. -/
theorem isClamped_sub_infinity (hy : y.parts = .infinity .positive) :
    IsClamped (x - y).parts := by
  rw [parts_sub, hy]
  refine IsClamped.repack (IsClamped.repack ?_)
  rcases x.parts with (_ | _) | _ | s | ⟨s, m, e, h⟩
  · exact .inr rfl
  · exact .inl rfl
  · exact .inl rfl
  · exact .inr rfl
  · exact .inr rfl

theorem IsClamped.div (hx : IsClamped x.parts) (hy : sign? y.parts = some .positive) :
    IsClamped (x / y).parts := by
  rw [parts_div]
  refine IsClamped.repack (IsClamped.repack ?_)
  -- a NaN stays one, and over anything positive a negative infinity stays or becomes a NaN
  rcases hx with hx | hx <;> rw [hx]
  · exact .inl rfl
  · revert hy
    rcases y.parts with s | _ | s | ⟨s, m, e, h⟩ <;> intro hy
    · exact .inl rfl
    · cases hy
    · cases hy
      exact .inr rfl
    · cases hy
      exact .inr rfl

theorem IsClamped.larger_zero (hx : IsClamped x.parts) : larger x 0 = 0 := by
  have hzero : (0 : Real64).parts = .zero .positive := rfl
  unfold larger
  rcases hx with hx | hx
  · rw [if_pos (isNaN_iff.2 hx)]
  · have hnum : x.isNaN ≠ true := by
      rw [isNaN_eq, hx]
      decide
    have hlt : x < 0 := lt_iff.2 ⟨_, _, by rw [hx, place], by rw [hzero, place], by decide⟩
    rw [if_neg hnum, if_pos hlt]

end FleetEstimate.Real64

namespace FleetEstimate

open Real64

/-! ## Tolerances -/

section

variable {α : Type} [Scalar α] {sum sumSq multiplier : α} {n : UInt64}

/-- Fewer than two samples, or a mean that is at most zero, say nothing. -/
theorem tolerance_eq_infinity (h : n < 2 ∨ sum / Scalar.ofCount n ≤ 0) :
    tolerance sum sumSq n multiplier = Scalar.infinity := by
  have hnone : tolerance? sum sumSq n multiplier = none := by
    unfold tolerance?
    rcases h with h | h
    · rw [if_pos h]
    · split
      · rfl
      · exact if_pos h
  rw [tolerance, hnone, Option.getD_none]

theorem tolerance_eq_quotient (hn : ¬ n < 2) (hmean : ¬ sum / Scalar.ofCount n ≤ 0) :
    tolerance sum sumSq n multiplier =
      multiplier * Scalar.sqrt (Scalar.larger ((sumSq / Scalar.ofCount n -
        sum / Scalar.ofCount n * (sum / Scalar.ofCount n)) / (Scalar.ofCount n - 1)) 0) /
          (sum / Scalar.ofCount n) := by
  unfold tolerance tolerance?
  rw [if_neg hn]
  dsimp only
  rw [if_neg hmean]
  rfl

end

variable {sum sumSq multiplier : Real64} {n : UInt64}

theorem isNaN_infinity : (Scalar.infinity : Real64).isNaN = false := rfl

/-- The mean of the squares less the square of the mean, over the number of samples less
one. -/
def meanVariance (sum sumSq : Real64) (n : UInt64) : Real64 :=
  (sumSq / Scalar.ofCount n - sum / Scalar.ofCount n * (sum / Scalar.ofCount n)) /
    (Scalar.ofCount n - 1)

theorem tolerance_eq (hn : ¬ n < 2) (hmean : ¬ sum / Scalar.ofCount n ≤ 0) :
    tolerance sum sumSq n multiplier =
      multiplier * Scalar.sqrt (larger (meanVariance sum sumSq n) 0) /
        (sum / Scalar.ofCount n) := tolerance_eq_quotient hn hmean

/-- The tolerance around a mean that is a NaN is a NaN. -/
theorem isNaN_tolerance_of_mean (hn : ¬ n < 2) (hmean : (sum / Scalar.ofCount n).isNaN = true) :
    (tolerance sum sumSq n multiplier).isNaN = true := by
  have hle : ¬ sum / Scalar.ofCount n ≤ 0 := fun h => by
    rw [(isNaN_of_le h).1] at hmean
    exact absurd hmean (by decide)
  rw [tolerance_eq hn hle]
  exact isNaN_div_right hmean

/-- An infinite mean leaves no variance. -/
theorem larger_meanVariance_of_infinite (hn : ¬ n < 2)
    (hmean : (sum / Scalar.ofCount n).parts = .infinity .positive) :
    larger (meanVariance sum sumSq n) 0 = 0 := by
  -- what is taken from the mean of the squares is infinite too
  have hsquare : (sum / Scalar.ofCount n * (sum / Scalar.ofCount n)).parts =
      .infinity .positive := by
    rw [parts_mul, hmean]
    rfl
  have hpos : 0 < n.toNat := by
    rw [UInt64.lt_iff_toNat_lt] at hn
    have htwo : (2 : UInt64).toNat = 2 := rfl
    omega
  exact ((isClamped_sub_infinity hsquare).div (sign_ofCount_sub_one hpos)).larger_zero

/-- With a finite multiplier other than zero no other tolerance is a NaN. -/
theorem isNaN_mean_of_tolerance (hfin : multiplier.isFinite = true)
    (hzero : (multiplier == 0) = false) (h : (tolerance sum sumSq n multiplier).isNaN = true) :
    ¬ n < 2 ∧ (sum / Scalar.ofCount n).isNaN = true := by
  by_cases hinf : n < 2 ∨ sum / Scalar.ofCount n ≤ 0
  · rw [tolerance_eq_infinity hinf, isNaN_infinity] at h
    exact absurd h (by decide)
  · rcases not_or.1 hinf with ⟨hn, hle⟩
    refine ⟨hn, ?_⟩
    by_contra hmean
    rw [tolerance_eq hn hle] at h
    -- the clamp leaves a root that is defined, and so is the half-width
    have hroot : IsMagnitude (Scalar.sqrt (larger (meanVariance sum sumSq n) 0)).parts := by
      rw [parts_sqrt]
      exact (isMagnitude_larger_zero _).sqrt.repack.repack
    have hhalf := isNaN_mul_magnitude hfin hzero hroot
    have hdefined : (multiplier * Scalar.sqrt (larger (meanVariance sum sumSq n) 0) /
        (sum / Scalar.ofCount n)).isNaN = false := by
      refine isNaN_div_positive hhalf ?_
      rcases parts_of_not_le_zero (by simpa using hmean) hle with hmean | hmean
      · exact .inl hmean
      · -- the half-width around an infinite mean is zero
        have hsqrt : (Scalar.sqrt (0 : Real64)).parts = .zero .positive := rfl
        refine .inr ⟨hmean, ?_⟩
        rw [larger_meanVariance_of_infinite hn hmean]
        exact isFinite_mul_zero hfin hzero hsqrt
    rw [hdefined] at h
    exact absurd h (by decide)

/-- A tolerance of at most a number below infinity is one around a positive mean. -/
theorem mean_pos_of_tolerance_le {bound : Real64} (hbound : bound < 1)
    (h : tolerance sum sumSq n multiplier ≤ bound) :
    ¬ n < 2 ∧ 0 < sum / Scalar.ofCount n := by
  -- an infinite tolerance is not within the bound, and neither is one that is a NaN
  by_cases hinf : n < 2 ∨ sum / Scalar.ofCount n ≤ 0
  · rw [tolerance_eq_infinity hinf] at h
    exact absurd (lt_of_le_of_lt h hbound) (by decide)
  · rcases not_or.1 hinf with ⟨hn, hle⟩
    refine ⟨hn, lt_of_not_le ?_ rfl hle⟩
    by_contra hmean
    have hnan : (tolerance sum sumSq n multiplier).isNaN = true :=
      isNaN_tolerance_of_mean hn (by simpa using hmean)
    rw [(isNaN_of_le h).1] at hnan
    exact absurd hnan (by decide)

end FleetEstimate
