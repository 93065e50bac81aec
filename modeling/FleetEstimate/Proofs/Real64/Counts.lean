import FleetEstimate.Proofs.Real64.Order

/-!
# Sample counts as numbers

A count of samples becomes a number by rounding. Rounding never takes a positive count
below one, so that a count less one is not negative.
-/

namespace FleetEstimate.Real64

open Float.Model (UnpackedFloat Format totalExponent)
open Float.Model.UnpackedFloat

/-! ## Rounding normal numbers -/

theorem mantissa_shiftRight (x : ExtendedMantissa) (k : ℕ) :
    (x >>> k).mantissa = x.mantissa / 2 ^ k := by
  induction k with
  | zero => exact (Nat.div_one _).symm
  | succ k ih =>
    have hstep : (x >>> (k + 1)).mantissa = (x >>> k).mantissa / 2 := rfl
    rw [hstep, ih, Nat.div_div_eq_div_mul, Nat.pow_succ]

theorem le_roundedMantissa (x : ExtendedMantissa) :
    x.mantissa ≤ x.roundedMantissa ∧ x.roundedMantissa ≤ x.mantissa + 1 := by
  rcases x with ⟨m, _ | _, _ | _⟩ <;>
    simp only [ExtendedMantissa.roundedMantissa, ExtendedMantissa.accuracy,
      Accuracy.roundToNearestEven] <;>
    omega

/-- Shifted down to 53 bits, a significand has exactly so many. -/
theorem shifted_bounds {m : ℕ} (hm : 2 ^ 52 ≤ m) :
    2 ^ 52 ≤ m / 2 ^ (m.log2 - 52) ∧ m / 2 ^ (m.log2 - 52) < 2 ^ 53 := by
  have hne : m ≠ 0 := by omega
  have hlog : 52 ≤ m.log2 := (Nat.le_log2 hne).2 hm
  have hlow : 2 ^ 52 * 2 ^ (m.log2 - 52) ≤ m := by
    rw [← Nat.pow_add, show 52 + (m.log2 - 52) = m.log2 by omega]
    exact Nat.log2_self_le hne
  have hhigh : m < 2 ^ 53 * 2 ^ (m.log2 - 52) := by
    rw [← Nat.pow_add, show 53 + (m.log2 - 52) = m.log2 + 1 by omega]
    exact Nat.lt_log2_self
  exact ⟨(Nat.le_div_iff_mul_le (by positivity)).2 hlow, (Nat.div_lt_iff_lt_mul (by positivity)).2 hhigh⟩

theorem shiftToTargetExponent_normal {m : ℕ} {e : ℤ} (hm : 2 ^ 52 ≤ m) (he : -1074 ≤ e)
    (acc : Accuracy) :
    (shiftToTargetExponent .binary64 m e acc).1.mantissa = m / 2 ^ (m.log2 - 52) ∧
      (shiftToTargetExponent .binary64 m e acc).2 = e + ((m.log2 - 52 : ℕ) : ℤ) := by
  have hlog : 52 ≤ m.log2 := (Nat.le_log2 (by omega)).2 hm
  -- the exponent is far from the least one, so the target is set by the length
  have htarget : Format.binary64.targetExponent (totalExponent m e) - e = ((m.log2 - 52 : ℕ) : ℤ) := by
    simp only [Format.targetExponent, totalExponent, Format.mantissaBits, Format.minExponent]
    norm_num
    omega
  unfold shiftToTargetExponent shiftToExponent
  dsimp only
  rw [htarget, Int.toNat_natCast, mantissa_shiftRight]
  refine ⟨?_, rfl⟩
  rcases acc with _ | _ | _ | _ <;> rfl

theorem log2_le_of_le {m : ℕ} (hm : 2 ^ 52 ≤ m) (hle : m ≤ 2 ^ 53) : m.log2 ≤ 53 := by
  have hlt : m.log2 < 54 := (Nat.log2_lt (by omega)).2 (by omega)
  omega

/-- A significand of at least 53 bits is rounded to one of exactly 53 bits. -/
theorem roundWithAccuracy_normal (s : Sign) {m : ℕ} {e : ℤ} (hm : 2 ^ 52 ≤ m) (he : -1074 ≤ e)
    (acc : Accuracy) :
    ∃ m' e' h, roundWithAccuracy .binary64 s m e acc = .finite s m' e' h ∧
      2 ^ 52 ≤ m' ∧ m' < 2 ^ 53 ∧ e ≤ e' ∧ e' ≤ e + ((m.log2 - 51 : ℕ) : ℤ) := by
  have hlog : 52 ≤ m.log2 := (Nat.le_log2 (by omega)).2 hm
  -- the first shift cuts, rounding may carry into a 54th bit, the second shift drops it
  rcases shiftToTargetExponent_normal hm he acc with ⟨hcut, hexp⟩
  rcases shifted_bounds hm with ⟨hlow, hhigh⟩
  rw [← hcut] at hlow hhigh
  unfold roundWithAccuracy
  generalize shiftToTargetExponent .binary64 m e acc = first at *
  rcases le_roundedMantissa first.1 with ⟨hr, hr'⟩
  have hround : 2 ^ 52 ≤ first.1.roundedMantissa := by omega
  have hcarry := log2_le_of_le hround (by omega)
  rcases shiftToTargetExponent_normal (e := first.2) hround (by omega) .exact with
    ⟨hcut', hexp'⟩
  rcases shifted_bounds hround with ⟨hlow', hhigh'⟩
  rw [← hcut'] at hlow' hhigh'
  dsimp only
  rw [dif_neg (by omega)]
  exact ⟨_, _, _, rfl, hlow', hhigh', by omega, by omega⟩

theorem toNat_implicitBit {k m : ℕ} (hm : 2 ^ k ≤ m) (hm' : m < 2 ^ (k + 1)) :
    (1#1 ++ BitVec.ofNat k m).toNat = m := by
  have hlt : m - 2 ^ k < 2 ^ k := by
    rw [Nat.pow_succ] at hm'
    omega
  have hrest : m % 2 ^ k = m - 2 ^ k := by
    rw [Nat.mod_eq_sub_mod hm, Nat.mod_eq_of_lt hlt]
  have hor := Nat.two_pow_add_eq_or_of_lt hlt 1
  rw [BitVec.toNat_append, BitVec.toNat_ofNat, BitVec.toNat_ofNat, hrest, Nat.shiftLeft_eq,
    Nat.mul_comm, show 1 % 2 ^ 1 = 1 from rfl, ← hor, Nat.mul_one]
  exact Nat.add_sub_of_le hm

/-- The exponents of finite numbers with 53 bits. -/
theorem biased_ne {b : ℕ} (hb : 0 < b) (hb' : b < 2047) :
    BitVec.ofNat 11 b ≠ -1#11 ∧ BitVec.ofNat 11 b ≠ 0#11 := by
  have hnat : (BitVec.ofNat 11 b).toNat = b := by
    rw [BitVec.toNat_ofNat, Nat.mod_eq_of_lt (by omega)]
  -- neither the exponent of infinities nor that of numbers without a leading bit
  constructor
  · intro heq
    have hneg : (-1#11).toNat = 2047 := rfl
    rw [heq, hneg] at hnat
    omega
  · intro heq
    have hzero : (0#11).toNat = 0 := rfl
    rw [heq, hzero] at hnat
    omega

/-- A number with 53 bits whose exponent fits is packed as it is. -/
theorem repack_normal (s : Sign) {m : ℕ} {e : ℤ} (h : 0 < m) (hm : 2 ^ 52 ≤ m) (hm' : m < 2 ^ 53)
    (he : -1074 ≤ e) (he' : e ≤ 971) : repack (.finite s m e h) = .finite s m e h := by
  have hlog : m.log2 + 1 = 53 := by
    have hle : m.log2 < 53 := (Nat.log2_lt (by omega)).2 hm'
    have hge : 52 ≤ m.log2 := (Nat.le_log2 (by omega)).2 hm
    omega
  -- by the biased exponent, which is a natural number between its ends
  obtain ⟨b, rfl⟩ : ∃ b : ℕ, e = b - 1075 := ⟨(e + 1075).toNat, by omega⟩
  have hpack : pack .binary64 (.finite s m (b - 1075) h) =
      packComponents .binary64 s (BitVec.ofNat 11 b) (BitVec.ofNat 52 m) := by
    have hbiased : ((b - 1075 : ℤ) + (1023 : ℕ) + (52 : ℕ)).toNat = b := by omega
    unfold pack
    simp only [Format.exponentBias, Format.mantissaBits]
    norm_num at hbiased ⊢
    rw [hbiased, if_neg (by omega), if_pos (by omega)]
  -- packed and unpacked: the leading bit is left out and put back
  have hrepack : repack (.finite s m (b - 1075) h) =
      unpack .binary64 (pack .binary64 (.finite s m (b - 1075) h)) := rfl
  rw [hrepack, hpack]
  have hb : (BitVec.ofNat 11 b).toNat = b := by
    rw [BitVec.toNat_ofNat, Nat.mod_eq_of_lt (by omega)]
  rcases biased_ne (by omega : 0 < b) (by omega) with ⟨hall, hnone⟩
  simp only [unpack, unpackExponent_packComponents, unpackMantissa_packComponents,
    unpackSign_packComponents, ofBitVec_toBitVec, if_neg hall, if_neg hnone]
  simp [hb, toNat_implicitBit hm hm', Format.exponentBias]

/-! ## Counts -/

theorem ofNat_eq_round {n : ℕ} (hn : 0 < n) :
    ofNat .binary64 n = UnpackedFloat.round .binary64 .positive n 0 := by
  have hcmp : compare (n : ℤ) 0 = .gt := compare_gt_iff_gt.2 (by omega)
  simp only [ofNat, ofInt, UnpackedFloat.normalize, hcmp, Int.toNat_natCast]

/-- A positive count is at least one as a number. -/
theorem ofNat_positive {n : ℕ} (hn : 0 < n) (hn' : n < 2 ^ 64) :
    ∃ m e h, ofNat .binary64 n = .finite .positive m e h ∧
      2 ^ 52 ≤ m ∧ m < 2 ^ 53 ∧ -52 ≤ e ∧ e ≤ 12 := by
  have hlog : n.log2 < 64 := (Nat.log2_lt (by omega)).2 hn'
  -- a short count is first made 53 bits long
  have htarget : Format.binary64.targetExponent (totalExponent n 0) = (n.log2 : ℤ) - 52 := by
    simp only [Format.targetExponent, totalExponent, Format.mantissaBits, Format.minExponent]
    norm_num
    omega
  have hlong : 2 ^ 52 ≤ n <<< (52 - n.log2) := by
    have hpow : 2 ^ 52 ≤ 2 ^ n.log2 * 2 ^ (52 - n.log2) := by
      rw [← Nat.pow_add]
      exact Nat.pow_le_pow_right (by decide) (by omega)
    rw [Nat.shiftLeft_eq]
    exact hpow.trans (Nat.mul_le_mul_right _ (Nat.log2_self_le (by omega)))
  have hshort : (n <<< (52 - n.log2)).log2 < 64 := by
    refine (Nat.log2_lt (by omega)).2 ?_
    rw [Nat.shiftLeft_eq]
    have hpow : 2 ^ (n.log2 + 1) * 2 ^ (52 - n.log2) ≤ 2 ^ 64 := by
      rw [← Nat.pow_add]
      exact Nat.pow_le_pow_right (by decide) (by omega)
    exact (Nat.mul_lt_mul_of_pos_right Nat.lt_log2_self (by positivity)).trans_le hpow
  obtain ⟨m, e, h, hfin, hm, hm', he, he'⟩ :=
    roundWithAccuracy_normal .positive (e := 0 - ((52 - n.log2 : ℕ) : ℤ)) hlong (by omega) .exact
  refine ⟨m, e, h, ?_, hm, hm', by omega, by omega⟩
  rw [ofNat_eq_round hn, ← hfin]
  simp only [UnpackedFloat.round, decreaseExponent, htarget]
  rw [show (0 - ((n.log2 : ℤ) - 52)).toNat = 52 - n.log2 by omega]

theorem parts_ofCount_pos {n : UInt64} (hn : 0 < n.toNat) :
    ∃ m e h, (Scalar.ofCount n : Real64).parts = .finite .positive m e h ∧
      2 ^ 52 ≤ m ∧ m < 2 ^ 53 ∧ -52 ≤ e ∧ e ≤ 12 := by
  rcases ofNat_positive hn n.toNat_lt with ⟨m, e, h, hcount, hm, hm', he, he'⟩
  have hpacked := repack_normal .positive h hm hm' (by omega : -1074 ≤ e) (by omega)
  refine ⟨m, e, h, ?_, hm, hm', he, he'⟩
  rw [parts_ofCount, hcount, hpacked, hpacked]

theorem sign_roundWithAccuracy (s : Sign) (m : ℕ) (e : ℤ) (acc : Accuracy) :
    sign? (roundWithAccuracy .binary64 s m e acc) = some s := by
  unfold roundWithAccuracy
  dsimp only
  split <;> rfl

theorem sign_normalize {k : ℤ} (hk : 0 ≤ k) (e : ℤ) :
    sign? (UnpackedFloat.normalize .binary64 k e .positive) = some .positive := by
  unfold UnpackedFloat.normalize
  cases h : compare k 0 with
  | lt =>
    have : k < 0 := compare_lt_iff_lt.1 h
    omega
  | eq => rfl
  | gt => exact sign_roundWithAccuracy _ _ _ _

theorem parts_one : (1 : Real64).parts = .finite .positive (2 ^ 52) (-52) (by decide) := rfl

/-- A positive count less one is not negative. -/
theorem sign_ofCount_sub_one {n : UInt64} (hn : 0 < n.toNat) :
    sign? (Scalar.ofCount n - 1 : Real64).parts = some .positive := by
  rcases parts_ofCount_pos hn with ⟨m, e, h, hcount, hm, hm', he, he'⟩
  rw [parts_sub, hcount, parts_one, repack_sign?, repack_sign?]
  have hle : 2 ^ 52 ≤ m <<< (e - min e (-52)).toNat := by
    rw [Nat.shiftLeft_eq]
    exact hm.trans (Nat.le_mul_of_pos_right m (by positivity))
  have hone : (-52 - min e (-52)).toNat = 0 := by omega
  simp only [sub, decreaseExponent, Sign.apply, hone, Nat.shiftLeft_zero]
  exact sign_normalize (by omega) _

end FleetEstimate.Real64
