import Mathlib
import FleetEstimate.Text.Bytes

/-!
# Numbers as bytes, and back

Both orders of bytes keep a number modulo a power of 256, whatever the width.
-/

namespace FleetEstimate.Bytes

theorem length_littleEndian (width n : Nat) : (littleEndian width n).length = width := by
  induction width generalizing n with
  | zero => rfl
  | succ width ih => simp [littleEndian, ih]

theorem length_bigEndian (width n : Nat) : (bigEndian width n).length = width := by
  simp [bigEndian, length_littleEndian]

theorem ofLittleEndian_littleEndian (width n : Nat) :
    ofLittleEndian (littleEndian width n) = n % 256 ^ width := by
  induction width generalizing n with
  | zero => simp [littleEndian, ofLittleEndian, Nat.mod_one]
  | succ width ih =>
    rw [littleEndian, ofLittleEndian, ih, Nat.pow_succ, Nat.mul_comm (256 ^ width) 256,
      Nat.mod_mul]
    simp

theorem ofBigEndian_bigEndian (width n : Nat) :
    ofBigEndian (bigEndian width n) = n % 256 ^ width := by
  rw [ofBigEndian, bigEndian, List.reverse_reverse, ofLittleEndian_littleEndian]

theorem littleEndian_ofLittleEndian (bs : Bytes) :
    littleEndian bs.length (ofLittleEndian bs) = bs := by
  induction bs with
  | nil => rfl
  | cons b bs ih =>
    have hlow : UInt8.ofNat (b.toNat + 256 * ofLittleEndian bs) = b := by
      apply UInt8.toNat_inj.1
      have hb := b.toNat_lt
      rw [UInt8.toNat_ofNat']
      omega
    have hhigh : (b.toNat + 256 * ofLittleEndian bs) / 256 = ofLittleEndian bs := by
      have hb := b.toNat_lt
      omega
    rw [List.length_cons, littleEndian, ofLittleEndian, hlow, hhigh, ih]

theorem littleEndian_toNat_ofNat {bs : Bytes} (h : bs.length = 8) :
    littleEndian 8 (UInt64.ofNat (ofLittleEndian bs)).toNat = bs := by
  have hback := littleEndian_ofLittleEndian bs
  rw [h] at hback
  have hlt : ofLittleEndian bs < UInt64.size := by
    have hmod := ofLittleEndian_littleEndian 8 (ofLittleEndian bs)
    rw [hback] at hmod
    rw [hmod]
    exact Nat.mod_lt _ (by decide)
  rw [UInt64.toNat_ofNat_of_lt' hlt, hback]

theorem bigEndian_ofBigEndian (bs : Bytes) : bigEndian bs.length (ofBigEndian bs) = bs := by
  have hback := littleEndian_ofLittleEndian bs.reverse
  rw [List.length_reverse] at hback
  rw [bigEndian, ofBigEndian, hback, List.reverse_reverse]

end FleetEstimate.Bytes
