import FleetEstimate.Proofs.Real64.Counts

/-!
# Sums that start from zero

A sum is the negative zero only if both of its operands are: nothing that is not zero is
rounded to zero by an addition. So a total that starts from zero is never the negative zero,
and then it does not matter whether a number is added to it as it is or as a sum of its own
that starts from zero.
-/

namespace FleetEstimate.Real64

open Float.Model (UnpackedFloat Format totalExponent)
open Float.Model.UnpackedFloat

/-! ## Sums are not rounded to zero -/

theorem mantissa_ofMantissaAndAccuracy (m : ℕ) (acc : Accuracy) :
    (ExtendedMantissa.ofMantissaAndAccuracy m acc).mantissa = m := by
  rcases acc with _ | _ | _ | _ <;> rfl

/-- A significand at its target exponent is still there, and has at most 53 bits. -/
theorem shiftToTargetExponent_bounds {m : ℕ} {e : ℤ} (hm : 0 < m) (he : -1074 ≤ e)
    (acc : Accuracy) :
    0 < (shiftToTargetExponent .binary64 m e acc).1.mantissa ∧
      (shiftToTargetExponent .binary64 m e acc).1.mantissa < 2 ^ 53 ∧
      -1074 ≤ (shiftToTargetExponent .binary64 m e acc).2 := by
  have htarget : (Format.binary64.targetExponent (totalExponent m e) - e).toNat = m.log2 - 52 := by
    simp only [Format.targetExponent, totalExponent, Format.mantissaBits, Format.minExponent]
    norm_num
    omega
  unfold shiftToTargetExponent shiftToExponent
  dsimp only
  rw [htarget, mantissa_shiftRight, mantissa_ofMantissaAndAccuracy]
  by_cases hlong : 2 ^ 52 ≤ m
  · rcases shifted_bounds hlong with ⟨hlow, hhigh⟩
    exact ⟨by omega, hhigh, by omega⟩
  · -- nothing is shifted out of a short significand
    have hlog : m.log2 < 52 := (Nat.log2_lt (by omega)).2 (by omega)
    have hnone : m.log2 - 52 = 0 := by omega
    rw [hnone, Nat.pow_zero, Nat.div_one]
    exact ⟨hm, by omega, by omega⟩

theorem round_finite (s : Sign) {m : ℕ} {e : ℤ} (hm : 0 < m) (he : -1074 ≤ e) :
    ∃ m' e' h, UnpackedFloat.round .binary64 s m e = .finite s m' e' h ∧
      m' < 2 ^ 53 ∧ -1074 ≤ e' := by
  have hmin : -1074 ≤ Format.binary64.targetExponent (totalExponent m e) := by
    have hleast : -1074 ≤ Format.binary64.minExponent := by decide
    exact hleast.trans (le_max_right _ _)
  unfold UnpackedFloat.round decreaseExponent roundWithAccuracy
  dsimp only
  generalize hk : (e - Format.binary64.targetExponent (totalExponent m e)).toNat = k
  have hshifted : 0 < m <<< k := by
    rw [Nat.shiftLeft_eq]
    positivity
  -- both shifts keep the significand, and rounding in between only adds to it
  rcases shiftToTargetExponent_bounds (e := e - k) hshifted (by omega) .exact with
    ⟨hpos, -, hexp⟩
  generalize shiftToTargetExponent .binary64 (m <<< k) (e - k) .exact = first at *
  have hround := (le_roundedMantissa first.1).1
  rcases shiftToTargetExponent_bounds (by omega : 0 < first.1.roundedMantissa) hexp .exact with
    ⟨hpos', hlt', hexp'⟩
  rw [dif_neg (by omega)]
  exact ⟨_, _, _, rfl, hlt', hexp'⟩

/-- A significand of at most 53 bits, at an exponent that there is, is not packed into a zero. -/
theorem repack_ne_zero (s s' : Sign) {m : ℕ} {e : ℤ} (h : 0 < m) (hm : m < 2 ^ 53)
    (he : -1074 ≤ e) : repack (.finite s m e h) ≠ .zero s' := by
  have hrepack : repack (.finite s m e h) =
      unpack .binary64 (pack .binary64 (.finite s m e h)) := rfl
  rw [hrepack]
  intro hzero
  unfold pack at hzero
  simp only [Format.exponentBias, Format.mantissaBits] at hzero
  norm_num at hzero
  split at hzero
  · rename_i hlarge
    have hinf := repack_infinity s
    unfold repack at hinf
    exact absurd (hinf.symm.trans hzero) (by simp)
  · split at hzero
    · rename_i hlarge hnormal
      have hlog : 52 ≤ m.log2 := by omega
      have hpos : 0 < (e + 1023 + 52).toNat := by omega
      rcases biased_ne hpos (by omega) with ⟨hall, hnone⟩
      simp only [unpack, unpackExponent_packComponents, if_neg hall, if_neg hnone,
        reduceCtorEq] at hzero
    · -- a short significand is packed as it is
      rename_i hlarge hshort
      have hlog : m.log2 < 52 := by
        have hlt : m.log2 < 53 := (Nat.log2_lt (by omega)).2 hm
        omega
      have hlt : m < 2 ^ 52 := (Nat.log2_lt (by omega)).1 hlog
      have hsome : BitVec.ofNat 52 m ≠ 0#52 := by
        intro heq
        have hnat := congrArg BitVec.toNat heq
        rw [BitVec.toNat_ofNat, Nat.mod_eq_of_lt hlt] at hnat
        have hzero : (0#52).toNat = 0 := rfl
        omega
      have hall : 0#11 ≠ -1#11 := by decide
      simp only [unpack, unpackExponent_packComponents, unpackMantissa_packComponents,
        if_neg hall, dif_neg hsome, if_true, reduceCtorEq] at hzero

/-! ## Numbers and their parts -/

theorem repack_model (x : Float.Model) : Float.Model.pack x.unpack = x := by
  have hbits := pack_unpack_of_valid x.valid
  rcases x with ⟨⟨b⟩, hvalid⟩
  unfold Float.Model.pack Float.Model.unpack
  simp only [hbits]

/-- A float is told by its parts. -/
theorem float_ext {x y : Float} (h : x.toModel.unpack = y.toModel.unpack) : x = y := by
  have hmodel := congrArg Float.Model.pack h
  rw [repack_model, repack_model] at hmodel
  exact congrArg Float.ofModel hmodel

theorem repack_parts (x : Real64) : repack x.parts = x.parts := by
  unfold repack parts
  rw [repack_model]

theorem repack_repack (u : UnpackedFloat) : repack (repack u) = repack u := by
  unfold repack
  rw [repack_model]

/-- The exponents that there are. -/
theorem exponent_parts {x : Real64} {s : Sign} {m : ℕ} {e : ℤ} {h : 0 < m}
    (hx : x.parts = .finite s m e h) : -1074 ≤ e := by
  have hunpack : x.parts = unpack .binary64 x.toFloat.toModel.toBits.toBitVec := rfl
  rw [hunpack] at hx
  unfold unpack at hx
  simp only [Format.exponentBias] at hx
  -- by the bits of the exponent: all of them set, none of them, or something between
  split at hx
  · split at hx
    · cases hx
    · cases hx
  · split at hx
    · split at hx
      · cases hx
      · cases hx
        norm_num
        omega
    · rename_i hsome
      cases hx
      have hpos := BitVec.toNat_pos_of_ne_zero hsome
      norm_num
      omega

theorem parts_add (x y : Real64) : (x + y).parts = repack (add .binary64 x.parts y.parts) := by
  have htwice : (x + y).parts = repack (repack (add .binary64 x.parts y.parts)) :=
    parts_lift₂ (fun _ _ => rfl) (fun _ => rfl) (fun u => by cases u <;> rfl) x y
  rw [htwice, repack_repack]

/-! ## Totals from zero -/

theorem repack_notANumber : repack .notANumber = .notANumber := rfl

theorem normalize_ne_negZero {k e : ℤ} (he : -1074 ≤ e) :
    repack (UnpackedFloat.normalize .binary64 k e .positive) ≠ .zero .negative := by
  unfold UnpackedFloat.normalize
  -- by the sign of the exact sum; an exact zero is given the positive sign
  cases hk : compare k 0 with
  | lt =>
    have hneg : k < 0 := compare_lt_iff_lt.1 hk
    rcases round_finite .negative (by omega : 0 < (-k).toNat) he with ⟨m, e', h, hround, hm, he'⟩
    dsimp only
    rw [hround]
    exact repack_ne_zero _ _ h hm he'
  | eq =>
    dsimp only
    rw [repack_zero]
    simp
  | gt =>
    have hpos : 0 < k := compare_gt_iff_gt.1 hk
    rcases round_finite .positive (by omega : 0 < k.toNat) he with ⟨m, e', h, hround, hm, he'⟩
    dsimp only
    rw [hround]
    exact repack_ne_zero _ _ h hm he'

/-- A sum is the negative zero only if both of its operands are. -/
theorem parts_add_ne {t : Real64} (ht : t.parts ≠ .zero .negative) (x : Real64) :
    (t + x).parts ≠ .zero .negative := by
  have ht' := repack_parts t
  have hx' := repack_parts x
  rw [parts_add]
  intro hzero
  rcases htp : t.parts with (_ | _) | _ | (_ | _) | ⟨s, m, e, h⟩ <;>
    rcases hxp : x.parts with (_ | _) | _ | (_ | _) | ⟨s', m', e', h'⟩ <;>
    rw [htp, hxp] at hzero <;>
    simp only [add, BEq.rfl, beq_iff_eq, if_true, if_false, repack_notANumber, repack_infinity,
      repack_zero, zero.injEq, reduceCtorEq] at hzero
  -- what is left are sums with a finite number other than zero, and of negative zeros
  case finite.finite =>
    have hmin : -1074 ≤ min e e' := le_min (exponent_parts htp) (exponent_parts hxp)
    exact normalize_ne_negZero hmin hzero
  case zero.positive.finite =>
    rw [hxp] at hx'
    cases hx'.symm.trans hzero
  case finite.zero.negative =>
    rw [htp] at ht'
    cases ht'.symm.trans hzero
  case finite.zero.positive =>
    rw [htp] at ht'
    cases ht'.symm.trans hzero
  case zero.negative.finite => exact ht htp
  case zero.negative.zero.negative => exact ht htp

/-- To such a total, the two zeros add the same. -/
theorem add_zero_congr {u : UnpackedFloat} (hu : u ≠ .zero .negative) (s s' : Sign) :
    add .binary64 u (.zero s) = add .binary64 u (.zero s') := by
  rcases u with _ | _ | (_ | _) | ⟨_, _, _, _⟩
  · rfl
  · rfl
  · exact absurd rfl hu
  · cases s <;> cases s' <;> rfl
  · rfl

/-- A number that is no NaN keeps all its bits. -/
theorem ofFloat_toFloat {x : Real64} (hx : x.isNaN = false) : ofFloat x.toFloat = x := by
  have hbits : @isNaNBits .binary64 x.bits.toBitVec = false := by
    rw [isNaN_eq, parts_eq, repack_isNaN] at hx
    refine decide_eq_false ?_
    rw [← unpack_isNaN_iff, hx]
    decide
  have hpack := @pack_unpack .binary64 x.bits.toBitVec
  rw [if_neg (by rw [hbits]; decide)] at hpack
  have hsame : (ofFloat x.toFloat).bits = x.bits := UInt64.toBitVec_inj.1 hpack
  rcases x with ⟨b⟩
  exact congrArg Real64.mk hsame

/-- A number that is no NaN is told by its parts. -/
theorem eq_of_parts {x y : Real64} (hx : x.isNaN = false) (h : x.parts = y.parts) : x = y := by
  have hy : y.isNaN = false := by rw [isNaN_eq, ← h, ← isNaN_eq, hx]
  have hfloat : x.toFloat = y.toFloat := float_ext h
  rw [← ofFloat_toFloat hx, hfloat, ofFloat_toFloat hy]

theorem ofResult_toFloat {x : Real64} (hx : x.isNaN = false) : ofResult x.toFloat = x := by
  have hnum : x.toFloat.isNaN ≠ true := by
    rw [← isNaN, hx]
    decide
  unfold ofResult
  rw [if_neg hnum, ofFloat_toFloat hx]

/-- A NaN is quiet once it was made quiet. -/
theorem quiet_quiet (x : Real64) : x.quiet.quiet = x.quiet := by
  unfold quiet
  rw [UInt64.or_assoc, UInt64.or_self]

theorem add_of_isNaN_left {x : Real64} (hx : x.isNaN = true) (y : Real64) : x + y = x.quiet :=
  if_pos hx

theorem add_of_isNaN_right {x y : Real64} (hx : x.isNaN = false) (hy : y.isNaN = true) :
    x + y = y.quiet := by
  have hadd : x + y = lift₂ (· + ·) x y := rfl
  rw [hadd, lift₂, if_neg (by rw [hx]; decide), if_pos hy]

theorem add_of_numbers {x y : Real64} (hx : x.isNaN = false) (hy : y.isNaN = false) :
    x + y = ofResult (.ofModel (Float.Model.pack (add .binary64 x.parts y.parts))) := by
  have hadd : x + y = lift₂ (· + ·) x y := rfl
  rw [hadd, lift₂, if_neg (by rw [hx]; decide), if_neg (by rw [hy]; decide)]
  rfl

theorem isNaN_zero : (0 : Real64).isNaN = false := rfl

theorem parts_zero : (0 : Real64).parts = .zero .positive := rfl

/-- Zero and a number make that number, but for the negative zero. -/
theorem zero_add_of_ne {x : Real64} (hx : x.isNaN = false) (hne : x.parts ≠ .zero .negative) :
    0 + x = x := by
  -- only the negative zero is changed, into the positive one
  have hadd : add .binary64 (.zero .positive) x.parts = x.parts := by
    rcases hp : x.parts with _ | _ | (_ | _) | _
    · rfl
    · rfl
    · exact absurd hp hne
    · rfl
    · rfl
  have hmodel : Float.Model.pack x.parts = x.toFloat.toModel := repack_model _
  rw [add_of_numbers isNaN_zero hx, parts_zero, hadd, hmodel]
  exact ofResult_toFloat hx

/-- The negative zero makes zero, when it is added to zero. -/
theorem zero_add_of_negZero {x : Real64} (hx : x.parts = .zero .negative) : 0 + x = 0 := by
  have hnum : x.isNaN = false := by
    rw [isNaN_eq, hx]
    rfl
  rw [add_of_numbers isNaN_zero hnum, hx]
  rfl

/-- Added to a total from zero, a number that was itself added to zero adds the same. -/
theorem add_zero_add {t : Real64} (ht : t.parts ≠ .zero .negative) (x : Real64) :
    t + (0 + x) = t + x := by
  cases htn : t.isNaN with
  | true => rw [add_of_isNaN_left htn, add_of_isNaN_left htn]
  | false =>
    cases hxn : x.isNaN with
    | true =>
      rw [add_of_isNaN_right isNaN_zero hxn, add_of_isNaN_right htn hxn,
        add_of_isNaN_right htn (isNaN_quiet hxn), quiet_quiet]
    | false =>
      -- to add zero first changes the negative zero alone, which the total does not notice
      by_cases hx : x.parts = .zero .negative
      · rw [zero_add_of_negZero hx, add_of_numbers htn hxn, add_of_numbers htn isNaN_zero, hx,
          parts_zero, add_zero_congr ht]
      · rw [zero_add_of_ne hxn hx]

/-! ## Equal numbers -/

/-- One of the two zeros. -/
def IsZero (x : Real64) : Prop := x = 0 ∨ x = ⟨0x8000000000000000⟩

theorem isZero_iff {x : Real64} : x.IsZero ↔ ∃ s, x.parts = .zero s := by
  constructor
  · rintro (rfl | rfl)
    · exact ⟨.positive, rfl⟩
    · exact ⟨.negative, rfl⟩
  · rintro ⟨s, hs⟩
    have hnum : x.isNaN = false := by
      rw [isNaN_eq, hs]
      rfl
    -- a zero is told by its sign
    cases s with
    | positive => exact .inl (eq_of_parts hnum hs)
    | negative => exact .inr (eq_of_parts hnum hs)

/-- Parts in one place are the same, but for the sign of zero. -/
theorem eq_or_zero_of_place {u v : UnpackedFloat} {p : ℤ ×ₗ ℤ ×ₗ ℤ} (hu : place u = some p)
    (hv : place v = some p) : u = v ∨ (∃ s, u = .zero s) ∧ ∃ s, v = .zero s := by
  rw [← hv] at hu
  rcases u with (_ | _) | _ | _ | ⟨_ | _, m, e, h⟩ <;>
    rcases v with (_ | _) | _ | _ | ⟨_ | _, m', e', h'⟩ <;>
    simp [place, Prod.ext_iff] at hu hv ⊢
  -- what simp leaves open are finite numbers of one sign
  · omega
  · omega

/-- Numbers are equal if they are the same, and the two zeros are. -/
theorem beq_iff_eq {x y : Real64} : (x == y) = true ↔
    x.isNaN = false ∧ y.isNaN = false ∧ (x = y ∨ x.IsZero ∧ y.IsZero) := by
  rw [beq_iff, isZero_iff, isZero_iff]
  constructor
  · rintro ⟨p, hx, hy⟩
    have hxn : x.isNaN = false := isNaN_eq_false_iff.2 ⟨p, hx⟩
    refine ⟨hxn, isNaN_eq_false_iff.2 ⟨p, hy⟩, ?_⟩
    -- they have one place in the order, and only the zeros share theirs
    rcases eq_or_zero_of_place hx hy with hsame | hzero
    · exact .inl (eq_of_parts hxn hsame)
    · exact .inr hzero
  · rintro ⟨hx, -, rfl | ⟨⟨s, hs⟩, ⟨s', hs'⟩⟩⟩
    · rcases isNaN_eq_false_iff.1 hx with ⟨p, hp⟩
      exact ⟨p, hp, hp⟩
    · rw [hs, hs']
      exact ⟨_, rfl, rfl⟩

end FleetEstimate.Real64
