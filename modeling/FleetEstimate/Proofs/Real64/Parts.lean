import Mathlib
import FleetEstimate.Real64

/-!
# The parts of a number

`Real64.parts` takes a number apart into its class, sign, significand and exponent.
Arithmetic works on the parts and packs its result into 64 bits again. The lemmas
below say what packing keeps: the class of a NaN, an infinity and a zero, and the
sign of everything else. Nothing here rounds.
-/

namespace FleetEstimate.Real64

open Float.Model (UnpackedFloat Format)
open Float.Model.UnpackedFloat

/-- What a number consists of. -/
def parts (x : Real64) : UnpackedFloat := x.toFloat.toModel.unpack

/-- What is left of parts that were packed. -/
def repack (u : UnpackedFloat) : UnpackedFloat := (Float.Model.pack u).unpack

theorem isNaN_eq (x : Real64) : x.isNaN = x.parts.isNaN := rfl

theorem isFinite_eq (x : Real64) : x.isFinite = x.parts.isFinite := rfl

theorem isNaN_iff {x : Real64} : x.isNaN = true ↔ x.parts = .notANumber := by
  rw [isNaN_eq]
  cases x.parts <;> simp [UnpackedFloat.isNaN]

/-! ## What packing keeps -/

theorem repack_infinity (s : Sign) : repack (.infinity s) = .infinity s := by
  cases s <;> rfl

theorem repack_zero (s : Sign) : repack (.zero s) = .zero s := by
  cases s <;> rfl

theorem unpackSign_packComponents {spec : Format} {s : Sign} {e : BitVec spec.exponentBits}
    {m : BitVec spec.mantissaBitsWithoutImplicit} :
    unpackSign (packComponents spec s e m) = s.toBitVec := by
  ext i hi
  have hzero : i = 0 := by omega
  subst hzero
  simp [unpackSign, packComponents, BitVec.getLsbD_append, BitVec.getElem_append]

theorem ofBitVec_toBitVec (s : Sign) : Sign.ofBitVec s.toBitVec = s := by
  cases s <;> rfl

/-- Components without the exponent of an infinity are those of a zero or a finite
number. -/
theorem unpack_packComponents {spec : Format} (s : Sign) {e : BitVec spec.exponentBits}
    (m : BitVec spec.mantissaBitsWithoutImplicit) (he : e ≠ -1#_) :
    unpack spec (packComponents spec s e m) = .zero s ∨
      ∃ m' e' h', unpack spec (packComponents spec s e m) = .finite s m' e' h' := by
  simp only [unpack, unpackExponent_packComponents, unpackMantissa_packComponents,
    unpackSign_packComponents, ofBitVec_toBitVec, if_neg he]
  -- the exponent zero has numbers without a leading bit, and zero
  split
  · split
    · exact .inl rfl
    · rename_i hm
      exact .inr ⟨_, _, BitVec.toNat_pos_of_ne_zero hm, rfl⟩
  · exact .inr ⟨_, _, by simp, rfl⟩

/-- A finite number may be packed into a zero or an infinity, but keeps its sign. -/
theorem repack_finite (s : Sign) (m : ℕ) (e : ℤ) (h : 0 < m) :
    repack (.finite s m e h) = .infinity s ∨ repack (.finite s m e h) = .zero s ∨
      ∃ m' e' h', repack (.finite s m e h) = .finite s m' e' h' := by
  have hrepack : repack (.finite s m e h) =
      unpack .binary64 (pack .binary64 (.finite s m e h)) := rfl
  rw [hrepack, pack]
  dsimp only
  split
  · left
    exact repack_infinity s
  · rename_i hsmall
    split
    · -- the exponent is below that of an infinity
      right
      refine unpack_packComponents s _ fun hall => ?_
      have hnat := congrArg BitVec.toNat hall
      simp only [BitVec.toNat_ofNat, BitVec.neg_one_eq_allOnes, BitVec.toNat_allOnes] at hnat
      rw [Nat.mod_eq_of_lt (by omega)] at hnat
      omega
    · right
      exact unpack_packComponents s _ (by decide)

theorem repack_isNaN (u : UnpackedFloat) : (repack u).isNaN = u.isNaN := by
  cases u with
  | notANumber => rfl
  | infinity s => rw [repack_infinity]
  | zero s => rw [repack_zero]
  | finite s m e h =>
    rcases repack_finite s m e h with h' | h' | ⟨_, _, _, h'⟩ <;> rw [h'] <;> rfl

/-- The sign of everything but a NaN. -/
def sign? : UnpackedFloat → Option Sign
  | .notANumber => none
  | .infinity s => some s
  | .zero s => some s
  | .finite s _ _ _ => some s

theorem repack_sign? (u : UnpackedFloat) : sign? (repack u) = sign? u := by
  cases u with
  | notANumber => rfl
  | infinity s => rw [repack_infinity]
  | zero s => rw [repack_zero]
  | finite s m e h =>
    rcases repack_finite s m e h with h' | h' | ⟨_, _, _, h'⟩ <;> rw [h'] <;> rfl

/-! ## Results of operations -/

theorem parts_eq (x : Real64) : x.parts = repack (unpack .binary64 x.bits.toBitVec) := rfl

theorem parts_ofFloat (r : Float) : (ofFloat r).parts = repack r.toModel.unpack := rfl

theorem unpack_isNaN_iff {spec : Format} (b : BitVec spec.numBits) :
    (unpack spec b).isNaN = true ↔ unpackExponent b = -1#_ ∧ unpackMantissa b ≠ 0#_ := by
  unfold unpack
  dsimp only
  -- only the greatest exponent has NaNs, where every mantissa but zero is one
  by_cases he : unpackExponent b = -1#_
  · rw [if_pos he]
    by_cases hm : unpackMantissa b = 0#_ <;> simp [he, hm, UnpackedFloat.isNaN]
  · rw [if_neg he]
    by_cases hz : unpackExponent b = 0#_
    · rw [if_pos hz]
      by_cases hm : unpackMantissa b = 0#_ <;> simp [he, hm, UnpackedFloat.isNaN]
    · rw [if_neg hz]
      simp [he, UnpackedFloat.isNaN]

/-- The quiet bit does not change that a number is a NaN. -/
theorem isNaN_quiet {x : Real64} (h : x.isNaN = true) : x.quiet.isNaN = true := by
  rw [isNaN_eq, parts_eq, repack_isNaN, unpack_isNaN_iff] at h ⊢
  rcases h with ⟨he, -⟩
  -- the bit that is set belongs to the mantissa: the exponent stays, and the mantissa is not zero
  have hbits : x.quiet.bits.toBitVec = x.bits.toBitVec ||| 0x8000000000000#64 := rfl
  have hclear : ∀ i < 11, (0x8000000000000#64).getLsbD (52 + i) = false := by decide
  rw [hbits]
  constructor
  · rw [← he]
    ext i hi
    simp [unpackExponent, hclear i hi]
  · intro hzero
    have hbit := congrArg (fun v => v.getLsbD 51) hzero
    simp [unpackMantissa] at hbit

theorem parts_ofResult (r : Float) : (ofResult r).parts = repack r.toModel.unpack := by
  unfold ofResult
  split
  · rename_i h
    have hr : r.toModel.unpack = .notANumber := by
      have : r.toModel.unpack.isNaN = true := h
      cases hu : r.toModel.unpack <;> simp_all [UnpackedFloat.isNaN]
    rw [hr]
    rfl
  · exact parts_ofFloat r

/-- An operation that passes NaNs on works on the parts of its operands. -/
theorem parts_lift₂ {f : Float → Float → Float}
    {g : UnpackedFloat → UnpackedFloat → UnpackedFloat}
    (hf : ∀ a b : Float, (f a b).toModel.unpack = repack (g a.toModel.unpack b.toModel.unpack))
    (hleft : ∀ v, g .notANumber v = .notANumber) (hright : ∀ u, g u .notANumber = .notANumber)
    (x y : Real64) : (lift₂ f x y).parts = repack (repack (g x.parts y.parts)) := by
  unfold lift₂
  -- the first NaN is passed on, made quiet; it has no parts to tell it from another
  by_cases hx : x.isNaN = true
  · rw [if_pos hx, isNaN_iff.1 hx, hleft, isNaN_iff.1 (isNaN_quiet hx)]
    rfl
  · rw [if_neg hx]
    by_cases hy : y.isNaN = true
    · rw [if_pos hy, isNaN_iff.1 hy, hright, isNaN_iff.1 (isNaN_quiet hy)]
      rfl
    · rw [if_neg hy, parts_ofResult, hf]
      rfl

theorem parts_sub (x y : Real64) :
    (x - y).parts = repack (repack (sub .binary64 x.parts y.parts)) :=
  parts_lift₂ (fun _ _ => rfl) (fun _ => rfl) (fun u => by cases u <;> rfl) x y

theorem parts_mul (x y : Real64) :
    (x * y).parts = repack (repack (mul .binary64 x.parts y.parts)) :=
  parts_lift₂ (fun _ _ => rfl) (fun _ => rfl) (fun u => by cases u <;> rfl) x y

theorem parts_div (x y : Real64) :
    (x / y).parts = repack (repack (div .binary64 x.parts y.parts)) :=
  parts_lift₂ (fun _ _ => rfl) (fun _ => rfl) (fun u => by cases u <;> rfl) x y

theorem parts_sqrt (x : Real64) :
    (Scalar.sqrt x).parts = repack (repack (sqrt .binary64 x.parts)) := by
  have hsqrt : Scalar.sqrt x = lift Float.sqrt x := rfl
  rw [hsqrt, lift]
  by_cases hx : x.isNaN = true
  · rw [if_pos hx, isNaN_iff.1 hx, isNaN_iff.1 (isNaN_quiet hx)]
    rfl
  · rw [if_neg hx, parts_ofResult]
    rfl

theorem parts_ofCount (n : UInt64) :
    (Scalar.ofCount n : Real64).parts = repack (repack (ofNat .binary64 n.toNat)) := rfl

end FleetEstimate.Real64
