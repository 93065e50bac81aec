import FleetEstimate.Proofs.Estimation.Splitting
import FleetEstimate.Proofs.Estimation.Tolerance

/-!
# Tolerances without rounding

The statistics ask no more of their numbers than the operations of `Scalar`, which the real
numbers have too once there is something above them all to stand for what is not known. There a
tolerance is what it is meant to be: a multiple of the deviation of the mean, over the mean. It is
not negative, it shrinks as samples with the same mean and the same mean square are added, and it
is infinite exactly where it says nothing.
-/

namespace FleetEstimate

/-- The real numbers, with an infinity above them and another below. -/
noncomputable instance Scalar.extendedReal : Scalar EReal where
  ofCount n := ((n.toNat : ℝ) : EReal)
  sqrt x := if x = ⊤ then ⊤ else ((√x.toReal : ℝ) : EReal)
  abs x := max x (-x)
  larger := max
  smaller := min
  infinity := ⊤
  decidableLe := inferInstance

instance exact_extendedReal : Exact EReal := ⟨add_assoc, add_comm, add_zero⟩

theorem Scalar.ofCount_coe (n : UInt64) : (Scalar.ofCount n : EReal) = ((n.toNat : ℝ) : EReal) :=
  rfl

theorem Scalar.sqrt_coe (x : ℝ) : Scalar.sqrt (x : EReal) = ((√x : ℝ) : EReal) := by
  change (if (x : EReal) = ⊤ then ⊤ else ((√(x : EReal).toReal : ℝ) : EReal)) = _
  rw [if_neg (EReal.coe_ne_top x), EReal.toReal_coe]

theorem Scalar.larger_coe (x y : ℝ) :
    Scalar.larger (x : EReal) (y : EReal) = ((max x y : ℝ) : EReal) :=
  EReal.coe_strictMono.monotone.map_max.symm

/-- The square of the deviation of a mean: the mean of the squares less the square of the mean,
over the number of samples less one. -/
noncomputable def exactVariance (sum sumSq : ℝ) (n : ℕ) : ℝ :=
  (sumSq / n - sum / n * (sum / n)) / (n - 1)

variable {n : UInt64}

theorem variance_coe (sum sumSq : ℝ) (n : UInt64) :
    ((sumSq : EReal) / Scalar.ofCount n -
        (sum : EReal) / Scalar.ofCount n * ((sum : EReal) / Scalar.ofCount n)) /
      (Scalar.ofCount n - 1) = (exactVariance sum sumSq n.toNat : EReal) := by
  rw [Scalar.ofCount_coe, ← EReal.coe_div, ← EReal.coe_div, ← EReal.coe_mul, ← EReal.coe_sub,
    ← EReal.coe_one, ← EReal.coe_sub, ← EReal.coe_div]
  rfl

theorem mean_coe_le_zero_iff (sum : ℝ) (n : UInt64) :
    (sum : EReal) / Scalar.ofCount n ≤ 0 ↔ sum / n.toNat ≤ 0 := by
  rw [Scalar.ofCount_coe, ← EReal.coe_div, ← EReal.coe_zero, EReal.coe_le_coe_iff]

theorem tolerance_coe {sum sumSq z : ℝ} (hn : ¬ n < 2) (hmean : ¬ sum / n.toNat ≤ 0) :
    tolerance (sum : EReal) (sumSq : EReal) n (z : EReal) =
      ((z * √(max (exactVariance sum sumSq n.toNat) 0) / (sum / n.toNat) : ℝ) : EReal) := by
  have hcoe : ¬ (sum : EReal) / Scalar.ofCount n ≤ 0 := by
    rw [mean_coe_le_zero_iff]
    exact hmean
  rw [tolerance_eq_quotient hn hcoe, variance_coe, Scalar.ofCount_coe, ← EReal.coe_zero,
    Scalar.larger_coe, Scalar.sqrt_coe, ← EReal.coe_mul, ← EReal.coe_div, ← EReal.coe_div]

/-! ## A fixed mean and a fixed mean square -/

/-- The tolerance of `n` samples whose mean is `m` and whose mean square is `q`. -/
noncomputable def toleranceOfMean (m q z : ℝ) (n : UInt64) : EReal :=
  tolerance ((m : EReal) * Scalar.ofCount n) ((q : EReal) * Scalar.ofCount n) n (z : EReal)

variable {m q z : ℝ}

theorem one_lt_of_two_le (hn : 2 ≤ n) : (1 : ℝ) < n.toNat := by
  have hle : 2 ≤ n.toNat := UInt64.le_iff_toNat_le.1 hn
  exact_mod_cast hle

theorem exactVariance_mul {k : ℕ} (hk : (k : ℝ) ≠ 0) :
    exactVariance (m * k) (q * k) k = (q - m * m) / (k - 1) := by
  unfold exactVariance
  rw [mul_div_cancel_right₀ m hk, mul_div_cancel_right₀ q hk]

theorem toleranceOfMean_eq (hm : 0 < m) (hn : 2 ≤ n) :
    toleranceOfMean m q z n = ((z * √(max ((q - m * m) / (n.toNat - 1)) 0) / m : ℝ) : EReal) := by
  have hne : (n.toNat : ℝ) ≠ 0 := (zero_lt_one.trans (one_lt_of_two_le hn)).ne'
  have hmean : m * n.toNat / n.toNat = m := mul_div_cancel_right₀ m hne
  have hpos : ¬ m * n.toNat / n.toNat ≤ 0 := by
    rw [hmean]
    exact not_le.2 hm
  unfold toleranceOfMean
  rw [Scalar.ofCount_coe, ← EReal.coe_mul, ← EReal.coe_mul, tolerance_coe (UInt64.not_lt.2 hn) hpos,
    exactVariance_mul hne, hmean]

theorem toleranceOfMean_eq_top_iff : toleranceOfMean m q z n = ⊤ ↔ n < 2 ∨ m ≤ 0 := by
  constructor
  · intro htop
    by_contra hsays
    rcases not_or.1 hsays with ⟨hn, hm⟩
    -- with enough samples and a positive mean it is a real number
    rw [toleranceOfMean_eq (not_le.1 hm) (UInt64.not_lt.1 hn)] at htop
    exact EReal.coe_ne_top _ htop
  · intro hnothing
    refine tolerance_eq_infinity ?_
    by_cases hn : n < 2
    · exact .inl hn
    · have hm : m ≤ 0 := hnothing.resolve_left hn
      have hne : (n.toNat : ℝ) ≠ 0 :=
        (zero_lt_one.trans (one_lt_of_two_le (UInt64.not_lt.1 hn))).ne'
      rw [Scalar.ofCount_coe, ← EReal.coe_mul, ← Scalar.ofCount_coe, mean_coe_le_zero_iff,
        mul_div_cancel_right₀ m hne]
      exact .inr hm

/-- The clamped variance shrinks with the number of samples. -/
theorem clamped_div_le {d a b : ℝ} (ha : 0 < a) (hab : a ≤ b) :
    max (d / b) 0 ≤ max (d / a) 0 := by
  rcases le_total 0 d with hd | hd
  · exact max_le_max_right 0 (div_le_div_of_nonneg_left hd ha hab)
  · -- below zero the larger quotient is the one by `b`, but both are clamped
    have hneg : d / b ≤ 0 := div_nonpos_of_nonpos_of_nonneg hd (ha.le.trans hab)
    rw [max_eq_right hneg]
    exact le_max_right _ _

theorem clamped_div_lt {d a b : ℝ} (hd : 0 < d) (ha : 0 < a) (hab : a < b) :
    max (d / b) 0 < max (d / a) 0 := by
  have hb : 0 ≤ d / b := div_nonneg hd.le (ha.trans hab).le
  have hlt : d / b < d / a := div_lt_div_of_pos_left hd ha hab
  rw [max_eq_left hb, max_eq_left (hb.trans hlt.le)]
  exact hlt

/-- Without rounding a tolerance is infinite exactly for fewer than two samples and for a mean that
is not above zero. Every other one is not negative, and with the mean and the mean square it does
not grow as samples are added; it gets smaller unless the mean square is at most the square of the
mean, where it is zero all along. -/
theorem tolerance_shrinks (hz : 0 < z) :
    (∀ n₁ n₂, 0 < m → 2 ≤ n₁ → n₁ < n₂ →
      0 ≤ toleranceOfMean m q z n₂ ∧ toleranceOfMean m q z n₂ ≤ toleranceOfMean m q z n₁ ∧
        (m ^ 2 < q → toleranceOfMean m q z n₂ < toleranceOfMean m q z n₁) ∧
        (q ≤ m ^ 2 → toleranceOfMean m q z n₁ = 0)) ∧
    ∀ n, toleranceOfMean m q z n = ⊤ ↔ n < 2 ∨ m ≤ 0 := by
  refine ⟨fun n₁ n₂ hm hn₁ hlt => ?_, fun n => toleranceOfMean_eq_top_iff⟩
  have hn₂ : 2 ≤ n₂ := UInt64.le_trans hn₁ (UInt64.le_of_lt hlt)
  have hone : (0 : ℝ) < n₁.toNat - 1 := sub_pos.2 (one_lt_of_two_le hn₁)
  have hcounts : (n₁.toNat : ℝ) - 1 < n₂.toNat - 1 :=
    sub_lt_sub_right (Nat.cast_lt.2 (UInt64.lt_iff_toNat_lt.1 hlt)) 1
  -- both tolerances as real numbers: only the count under the root differs
  rw [toleranceOfMean_eq hm hn₁, toleranceOfMean_eq hm hn₂, ← EReal.coe_zero, EReal.coe_le_coe_iff,
    EReal.coe_le_coe_iff, EReal.coe_lt_coe_iff, EReal.coe_eq_coe_iff]
  refine ⟨by positivity, ?_, fun hq => ?_, fun hq => ?_⟩
  · -- more samples divide the spread by more
    have hvar := clamped_div_le (d := q - m * m) hone hcounts.le
    gcongr
  · -- the spread is above zero, so the clamp takes nothing away
    have hspread : 0 < q - m * m := by
      rw [sub_pos, ← sq]
      exact hq
    have hvar := clamped_div_lt hspread hone hcounts
    have hroot := Real.sqrt_lt_sqrt (le_max_right _ _) hvar
    gcongr
  · -- no spread is left, and the clamp makes it zero
    have hnone : (q - m * m) / ((n₁.toNat : ℝ) - 1) ≤ 0 := by
      refine div_nonpos_of_nonpos_of_nonneg ?_ hone.le
      rw [sub_nonpos, ← sq]
      exact hq
    rw [max_eq_right hnone, Real.sqrt_zero, mul_zero, zero_div]

/-- Two samples with the mean 1/2 and the mean square 1/2, such as zero and one, and one more. -/
theorem tolerance_of_three_lt :
    (0 : ℝ) < 2 ∧ (0 : ℝ) < 1 / 2 ∧ (2 : UInt64) ≤ 2 ∧ (2 : UInt64) < 3 ∧
      (1 / 2 : ℝ) ^ 2 < 1 / 2 ∧
      toleranceOfMean (1 / 2) (1 / 2) 2 3 < toleranceOfMean (1 / 2) (1 / 2) 2 2 := by
  have hz : (0 : ℝ) < 2 := by norm_num
  have hm : (0 : ℝ) < 1 / 2 := by norm_num
  have hq : (1 / 2 : ℝ) ^ 2 < 1 / 2 := by norm_num
  have hn : (2 : UInt64) ≤ 2 := by decide
  have hlt : (2 : UInt64) < 3 := by decide
  rcases (tolerance_shrinks hz).1 2 3 hm hn hlt with ⟨-, -, hless, -⟩
  exact ⟨hz, hm, hn, hlt, hq, hless hq⟩

end FleetEstimate
