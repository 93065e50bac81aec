import FleetEstimate.Proofs.Real64.Sums

/-!
# Tallies

A count below `2 ^ 53` fits into a significand, so nothing is rounded when it becomes a number or
when two such counts are added. A tally is kept by adding ones to zero. It is the count until that
is `2 ^ 53`; from there on a one is lost in the rounding, and the tally stays. The quotient of two
counts is rounded, but never to zero.
-/

namespace FleetEstimate.Real64

open Float.Model (UnpackedFloat Format totalExponent)
open Float.Model.UnpackedFloat

/-! ## What is not rounded -/

/-- Zeros are shifted out without a trace. -/
theorem shiftRight_exact (m k : ℕ) :
    ExtendedMantissa.ofMantissaAndAccuracy (m * 2 ^ k) .exact >>> k =
      ExtendedMantissa.ofMantissaAndAccuracy m .exact := by
  induction k generalizing m with
  | zero =>
    rw [pow_zero, mul_one]
    rfl
  | succ k ih =>
    -- by induction on the shift: the last bit that is shifted out is a zero
    have hstep : ∀ x : ExtendedMantissa, x >>> (k + 1) = (x >>> k).shiftRightOne := fun _ => rfl
    have hdouble : m * 2 ^ (k + 1) = m * 2 * 2 ^ k := by
      rw [pow_succ, mul_assoc, mul_comm (2 ^ k)]
    rw [hstep, hdouble, ih]
    simp [ExtendedMantissa.ofMantissaAndAccuracy, ExtendedMantissa.shiftRightOne]

theorem log2_mul_two_pow {n : ℕ} (hn : 0 < n) (k : ℕ) : (n * 2 ^ k).log2 = n.log2 + k := by
  refine (Nat.log2_eq_iff (by positivity)).2 ⟨?_, ?_⟩
  · rw [pow_add]
    exact Nat.mul_le_mul_right _ (Nat.log2_self_le hn.ne')
  · rw [show n.log2 + k + 1 = n.log2 + 1 + k by omega, pow_add]
    exact Nat.mul_lt_mul_of_pos_right Nat.lt_log2_self (by positivity)

variable {m n : ℕ} {e : ℤ}

theorem log2_eq_of_bounds (hm : 2 ^ 52 ≤ m) (hm' : m < 2 ^ 53) : m.log2 = 52 :=
  (Nat.log2_eq_iff (by omega)).2 ⟨hm, hm'⟩

theorem shiftToTargetExponent_exact (hm : 2 ^ 52 ≤ m) (hm' : m < 2 ^ 53) (he : -1074 ≤ e)
    (k : ℕ) : shiftToTargetExponent .binary64 (m * 2 ^ k) e .exact =
      (.ofMantissaAndAccuracy m .exact, e + k) := by
  -- the zeros behind the significand are exactly what is too long
  have htarget : (Format.binary64.targetExponent (totalExponent (m * 2 ^ k) e) - e).toNat = k := by
    have hlog := log2_mul_two_pow (by omega : 0 < m) k
    rw [log2_eq_of_bounds hm hm'] at hlog
    simp only [Format.targetExponent, totalExponent, Format.mantissaBits, Format.minExponent, hlog]
    norm_num
    omega
  unfold shiftToTargetExponent shiftToExponent
  dsimp only
  rw [htarget, shiftRight_exact]

theorem roundWithAccuracy_exact (s : Sign) (hm : 2 ^ 52 ≤ m) (hm' : m < 2 ^ 53)
    (he : -1074 ≤ e) (k : ℕ) : roundWithAccuracy .binary64 s (m * 2 ^ k) e .exact =
      .finite s m (e + k) (Nat.lt_of_lt_of_le (by decide) hm) := by
  have hround : (ExtendedMantissa.ofMantissaAndAccuracy m .exact).roundedMantissa = m := rfl
  -- what has 53 bits is not shifted once more
  have hagain := shiftToTargetExponent_exact (e := e + k) hm hm' (by omega) 0
  rw [pow_zero, mul_one, Nat.cast_zero, add_zero] at hagain
  unfold roundWithAccuracy
  rw [shiftToTargetExponent_exact hm hm' he]
  dsimp only
  rw [hround, hagain]
  exact dif_neg (by change ¬ m = 0; omega)

/-- How far a count is shifted to have 53 bits. -/
def lead (n : ℕ) : ℕ := 52 - n.log2

theorem lead_le (n : ℕ) : lead n ≤ 52 := Nat.sub_le _ _

/-- The significand of a count. -/
def significand (n : ℕ) : ℕ := n * 2 ^ lead n

theorem significand_bounds (hn : 0 < n) (hn' : n < 2 ^ 53) :
    2 ^ 52 ≤ significand n ∧ significand n < 2 ^ 53 := by
  have hlog : n.log2 < 53 := (Nat.log2_lt hn.ne').2 hn'
  have hlead := log2_mul_two_pow hn (lead n)
  rw [show n.log2 + lead n = 52 by unfold lead; omega] at hlead
  exact (Nat.log2_eq_iff (by unfold significand; positivity)).1 hlead

/-- A count is rounded to itself, however many places it is given behind the point. -/
theorem round_count (s : Sign) (hn : 0 < n) (hn' : n < 2 ^ 53) {j : ℕ} (hj : j ≤ 1074) :
    ∃ h, UnpackedFloat.round .binary64 s (n * 2 ^ j) (-j) =
      .finite s (significand n) (-lead n) h := by
  rcases significand_bounds hn hn' with ⟨hlow, hhigh⟩
  have hlog : n.log2 < 53 := (Nat.log2_lt hn.ne').2 hn'
  have hshift : (-(j : ℤ) - Format.binary64.targetExponent (totalExponent (n * 2 ^ j) (-j))).toNat =
      lead n - j := by
    simp only [Format.targetExponent, totalExponent, Format.mantissaBits, Format.minExponent,
      log2_mul_two_pow hn]
    unfold lead
    norm_num
    omega
  -- the zeros behind the count are made more, or they are more than a significand has
  have hzeros : (n * 2 ^ j) <<< (lead n - j) = significand n * 2 ^ (j - lead n) := by
    rw [Nat.shiftLeft_eq, significand, mul_assoc, mul_assoc, ← pow_add, ← pow_add]
    congr 2
    omega
  have hlead := lead_le n
  refine ⟨by omega, ?_⟩
  unfold UnpackedFloat.round decreaseExponent
  dsimp only
  rw [hshift, hzeros, roundWithAccuracy_exact s hlow hhigh (by omega)]
  congr 1
  omega

/-! ## Counts below `2 ^ 53` -/

theorem ofNat_count (hn : 0 < n) (hn' : n < 2 ^ 53) :
    ∃ h, ofNat .binary64 n = .finite .positive (significand n) (-lead n) h := by
  have hcount := round_count .positive hn hn' (Nat.zero_le 1074)
  rw [pow_zero, mul_one, Nat.cast_zero, neg_zero] at hcount
  rwa [ofNat_eq_round hn]

variable {a b : ℕ}

theorem toNat_ofNat_count (hn : n ≤ 2 ^ 53) : (UInt64.ofNat n).toNat = n :=
  UInt64.toNat_ofNat_of_lt' (by
    have hsize : UInt64.size = 2 ^ 64 := rfl
    omega)

/-- The parts of a count. -/
theorem parts_count (hn : 0 < n) (hn' : n < 2 ^ 53) :
    ∃ h, (Scalar.ofCount (.ofNat n) : Real64).parts =
      .finite .positive (significand n) (-lead n) h := by
  rcases significand_bounds hn hn' with ⟨hlow, hhigh⟩
  rcases ofNat_count hn hn' with ⟨h, hcount⟩
  have hlead := lead_le n
  have hpacked := repack_normal .positive (e := -lead n) h hlow hhigh (by omega) (by omega)
  refine ⟨h, ?_⟩
  rw [parts_ofCount, toNat_ofNat_count hn'.le, hcount, hpacked, hpacked]

theorem isNaN_count (hn : n < 2 ^ 53) : (Scalar.ofCount (.ofNat n) : Real64).isNaN = false := by
  rcases Nat.eq_zero_or_pos n with rfl | hpos
  · rfl
  · rcases parts_count hpos hn with ⟨h, hparts⟩
    rw [isNaN_eq, hparts]
    rfl

theorem decreaseExponent_significand (n : ℕ) {j : ℕ} (hj : lead n ≤ j) :
    (decreaseExponent (significand n) (-lead n) (-j)).1 = n * 2 ^ j := by
  have hshift : (-(lead n : ℤ) - -(j : ℤ)).toNat = j - lead n := by omega
  unfold decreaseExponent
  dsimp only
  rw [hshift, Nat.shiftLeft_eq, significand, mul_assoc, ← pow_add, Nat.add_sub_cancel' hj]

/-- Significands are added with the zeros of the longer one. -/
theorem add_significands (ha : 0 < a) (hb : 0 < b) (h : a + b < 2 ^ 53)
    (ha' : 0 < significand a) (hb' : 0 < significand b) :
    ∃ h', add .binary64 (.finite .positive (significand a) (-lead a) ha')
        (.finite .positive (significand b) (-lead b) hb') =
      .finite .positive (significand (a + b)) (-lead (a + b)) h' := by
  -- both are brought to the lower exponent, where the sum is exact
  obtain ⟨j, hj⟩ : ∃ j : ℕ, j = max (lead a) (lead b) := ⟨_, rfl⟩
  have hlead := lead_le a
  have hlead' := lead_le b
  have hmin : min (-(lead a : ℤ)) (-(lead b : ℤ)) = -(j : ℤ) := by omega
  have hsum : ((a * 2 ^ j : ℕ) : ℤ) + ((b * 2 ^ j : ℕ) : ℤ) = (((a + b) * 2 ^ j : ℕ) : ℤ) := by
    push_cast
    ring
  have hpos : 0 < (a + b) * 2 ^ j := by positivity
  have hcmp : compare ((((a + b) * 2 ^ j : ℕ) : ℤ)) 0 = .gt := compare_gt_iff_gt.2 (by omega)
  rcases round_count .positive (by omega : 0 < a + b) h (by omega : j ≤ 1074) with ⟨h', hround⟩
  refine ⟨h', ?_⟩
  simp only [add, hmin, Sign.apply]
  rw [decreaseExponent_significand a (by omega), decreaseExponent_significand b (by omega), hsum]
  unfold UnpackedFloat.normalize
  rw [hcmp]
  dsimp only
  rw [Int.toNat_natCast, hround]

/-- Counts are added without rounding while the sum fits into a significand. -/
theorem ofCount_add_ofCount (h : a + b < 2 ^ 53) :
    (Scalar.ofCount (.ofNat a) + Scalar.ofCount (.ofNat b) : Real64) =
      Scalar.ofCount (.ofNat (a + b)) := by
  refine (eq_of_parts (isNaN_count h) ?_).symm
  rw [parts_add, ← repack_parts (Scalar.ofCount (.ofNat (a + b)))]
  congr 1
  -- a zero has no significand, so it is not covered by the sum of two
  rcases Nat.eq_zero_or_pos a with rfl | ha
  · rw [zero_add]
    rcases Nat.eq_zero_or_pos b with rfl | hb
    · rfl
    · rw [(parts_count hb (by omega)).2]
      rfl
  · rcases Nat.eq_zero_or_pos b with rfl | hb
    · rw [add_zero, (parts_count ha (by omega)).2]
      rfl
    · rcases parts_count ha (by omega) with ⟨ha', hparts⟩
      rcases parts_count hb (by omega) with ⟨hb', hparts'⟩
      rw [(parts_count (by omega) h).2, hparts, hparts', (add_significands ha hb h ha' hb').2]

/-! ## Tallies -/

/-- What so many ones make, added to zero one by one. -/
def tally (n : ℕ) : Real64 := Scalar.ofCount (.ofNat (min n (2 ^ 53)))

theorem tally_zero : tally 0 = 0 := rfl

theorem tally_one : tally 1 = 1 := rfl

theorem tally_eq (hn : n ≤ 2 ^ 53) : tally n = Scalar.ofCount (.ofNat n) := by
  rw [tally, min_eq_left hn]

theorem tally_add_tally (h : a + b < 2 ^ 53) : tally a + tally b = tally (a + b) := by
  rw [tally_eq (by omega), tally_eq (by omega), tally_eq h.le, ofCount_add_ofCount h]

/-- One more than a significand holds is lost in the rounding. -/
theorem full_add_one :
    (Scalar.ofCount (.ofNat (2 ^ 53)) + 1 : Real64) = Scalar.ofCount (.ofNat (2 ^ 53)) := rfl

theorem full_add_zero :
    (Scalar.ofCount (.ofNat (2 ^ 53)) + 0 : Real64) = Scalar.ofCount (.ofNat (2 ^ 53)) := rfl

theorem tally_add_one (n : ℕ) : tally n + 1 = tally (n + 1) := by
  rcases lt_trichotomy (n + 1) (2 ^ 53) with hlt | heq | hgt
  · rw [← tally_one, tally_add_tally hlt]
  · have hlast : (Scalar.ofCount (.ofNat (2 ^ 53 - 1)) + 1 : Real64) =
        Scalar.ofCount (.ofNat (2 ^ 53)) := rfl
    rw [heq, tally_eq (by omega), tally_eq le_rfl, show n = 2 ^ 53 - 1 by omega, hlast]
  · rw [tally, tally, min_eq_right (by omega), min_eq_right (by omega)]
    exact full_add_one

theorem tally_add_zero (n : ℕ) : tally n + 0 = tally n := by
  rcases lt_or_ge n (2 ^ 53) with hlt | hge
  · rw [← tally_zero, tally_add_tally hlt, add_zero]
  · rw [tally, min_eq_right hge]
    exact full_add_zero

/-! ## Numbers as real numbers -/

/-- The real number that a number stands for; zero for those that stand for none. -/
noncomputable def value (x : Real64) : ℝ :=
  match x.parts with
  | .finite .positive m e _ => m * 2 ^ e
  | .finite .negative m e _ => -(m * 2 ^ e)
  | _ => 0

theorem value_of_parts {x : Real64} {h : 0 < m} (hx : x.parts = .finite .positive m e h) :
    x.value = m * 2 ^ e := by
  unfold value
  rw [hx]

theorem value_zero : (0 : Real64).value = 0 := by
  unfold value
  rw [parts_zero]

theorem value_significand (n : ℕ) : (significand n : ℝ) * 2 ^ (-lead n : ℤ) = n := by
  rw [significand, Nat.cast_mul, Nat.cast_pow, Nat.cast_ofNat, zpow_neg, zpow_natCast,
    mul_inv_cancel_right₀ (by positivity)]

/-- A tally stands for the number of ones, up to `2 ^ 53`. -/
theorem value_tally (n : ℕ) : (tally n).value = (min n (2 ^ 53) : ℕ) := by
  rcases Nat.eq_zero_or_pos n with rfl | hpos
  · rw [tally_zero, value_zero, Nat.zero_min, Nat.cast_zero]
  · rcases lt_or_ge n (2 ^ 53) with hlt | hge
    · rw [tally_eq hlt.le, value_of_parts (parts_count hpos hlt).2, value_significand,
        min_eq_left hlt.le]
    · have hparts : (Scalar.ofCount (.ofNat (2 ^ 53)) : Real64).parts =
          .finite .positive (2 ^ 52) 1 (by decide) := rfl
      rw [tally, min_eq_right hge, value_of_parts hparts]
      norm_num

theorem value_one : (1 : Real64).value = 1 := by
  rw [← tally_one, value_tally]
  norm_num

/-! ## Quotients of counts -/

theorem divCore_normal {m₁ m₂ : ℕ} {e₁ e₂ : ℤ} (hm₁ : 2 ^ 52 ≤ m₁) (hm₁' : m₁ < 2 ^ 53)
    (hm₂ : 2 ^ 52 ≤ m₂) (hm₂' : m₂ < 2 ^ 53) (he : -1021 ≤ e₁ - e₂) :
    divCore .binary64 m₁ e₁ m₂ e₂ = (m₁ * 2 ^ 53 / m₂, e₁ - e₂ - 53,
      accuracyOfFraction (m₁ * 2 ^ 53 % m₂) m₂) := by
  -- the quotient is computed with 53 bits more than the exponents give
  have htarget : min (e₁ - e₂) (Format.binary64.targetExponent
      (totalExponent m₁ e₁ - totalExponent m₂ e₂)) = e₁ - e₂ - 53 := by
    simp only [Format.targetExponent, totalExponent, Format.mantissaBits, Format.minExponent,
      log2_eq_of_bounds hm₁ hm₁', log2_eq_of_bounds hm₂ hm₂']
    norm_num
    omega
  have hshift : (e₁ - e₂ - (e₁ - e₂ - 53)).toNat = 53 := by omega
  unfold divCore
  dsimp only
  rw [htarget, hshift, Nat.shiftLeft_eq]

/-- The quotient of two positive counts is a positive number. -/
theorem parts_quotient {a b : UInt64} (ha : 0 < a.toNat) (hb : 0 < b.toNat) :
    ∃ m e h, (Scalar.ofCount a / Scalar.ofCount b : Real64).parts = .finite .positive m e h := by
  rcases parts_ofCount_pos ha with ⟨m₁, e₁, h₁, hparts₁, hm₁, hm₁', he₁, he₁'⟩
  rcases parts_ofCount_pos hb with ⟨m₂, e₂, h₂, hparts₂, hm₂, hm₂', he₂, he₂'⟩
  -- the significands are less than a factor of two apart, so the quotient has 53 or 54 bits
  have hlow : 2 ^ 52 ≤ m₁ * 2 ^ 53 / m₂ := by
    refine (Nat.le_div_iff_mul_le h₂).2 ?_
    exact Nat.mul_le_mul hm₁ hm₂'.le
  have hlog : (m₁ * 2 ^ 53 / m₂).log2 < 54 := by
    refine (Nat.log2_lt (by omega)).2 ((Nat.div_lt_iff_lt_mul h₂).2 ?_)
    omega
  rcases roundWithAccuracy_normal .positive (e := e₁ - e₂ - 53) hlow (by omega)
    (accuracyOfFraction (m₁ * 2 ^ 53 % m₂) m₂) with ⟨m, e, h, hround, hm, hm', he, he'⟩
  have hpacked := repack_normal .positive h hm hm' (by omega : -1074 ≤ e) (by omega)
  have hsign : (Sign.positive / Sign.positive : Sign) = .positive := rfl
  refine ⟨m, e, h, ?_⟩
  rw [parts_div, hparts₁, hparts₂]
  simp only [div]
  rw [divCore_normal hm₁ hm₁' hm₂ hm₂' (by omega), hsign]
  dsimp only
  rw [hround, hpacked, hpacked]

theorem isNaN_quotient {a b : UInt64} (ha : 0 < a.toNat) (hb : 0 < b.toNat) :
    (Scalar.ofCount a / Scalar.ofCount b : Real64).isNaN = false := by
  rcases parts_quotient ha hb with ⟨m, e, h, hparts⟩
  rw [isNaN_eq, hparts]
  rfl

theorem quotient_pos {a b : UInt64} (ha : 0 < a.toNat) (hb : 0 < b.toNat) :
    (0 : Real64) < Scalar.ofCount a / Scalar.ofCount b := by
  rcases parts_quotient ha hb with ⟨m, e, h, hparts⟩
  rw [lt_iff, hparts, parts_zero]
  exact ⟨_, _, rfl, rfl, by simp [Prod.Lex.toLex_lt_toLex]⟩

theorem zero_div_ofCount {b : UInt64} (hb : 0 < b.toNat) :
    (Scalar.ofCount 0 / Scalar.ofCount b : Real64) = 0 := by
  rcases parts_ofCount_pos hb with ⟨m, e, h, hparts, -⟩
  have hzero : div .binary64 (.zero .positive) (.finite .positive m e h) = .zero .positive := rfl
  have hcount : (Scalar.ofCount 0 : Real64) = 0 := rfl
  refine (eq_of_parts isNaN_zero ?_).symm
  rw [hcount, parts_div, hparts, parts_zero, hzero, repack_zero, repack_zero]

/-- Counts are divided alike as floats and as numbers with all their bits. -/
theorem ofFloat_quotient {a b : UInt64} (hb : 0 < b.toNat) :
    ofFloat (a.toFloat / b.toFloat) = Scalar.ofCount a / Scalar.ofCount b := by
  have hparts : ∀ n : UInt64, (Scalar.ofCount n : Real64).parts = n.toFloat.toModel.unpack := by
    intro n
    have hcount : (Scalar.ofCount n : Real64).parts = repack n.toFloat.toModel.unpack := rfl
    rw [hcount, repack, repack_model]
  have hquotient : (a.toFloat / b.toFloat).toModel.unpack =
      repack (div .binary64 a.toFloat.toModel.unpack b.toFloat.toModel.unpack) := rfl
  -- a count over a positive count is a number, so its parts tell it
  have hnum : (Scalar.ofCount a / Scalar.ofCount b : Real64).isNaN = false := by
    rcases Nat.eq_zero_or_pos a.toNat with hzero | ha
    · obtain rfl : a = 0 := UInt64.toNat_inj.1 hzero
      rw [zero_div_ofCount hb, isNaN_zero]
    · exact isNaN_quotient ha hb
  refine (eq_of_parts hnum ?_).symm
  rw [parts_div, parts_ofFloat, hparts, hparts, hquotient]

end FleetEstimate.Real64
