import Mathlib
import FleetEstimate.Real64
import FleetEstimate.Text.Bytes.Lemmas

/-!
# The bytes of a number say what it is

Also of a NaN, whose bits are kept.
-/

namespace FleetEstimate.Real64

theorem ofBytes_toBytes (x : Real64) : ofBytes x.toBytes = x := by
  have h : x.bits.toNat < 256 ^ 8 := x.bits.toNat_lt
  rw [ofBytes, toBytes, Bytes.ofLittleEndian_littleEndian, Nat.mod_eq_of_lt h, UInt64.ofNat_toNat]

theorem length_toBytes (x : Real64) : x.toBytes.length = 8 := Bytes.length_littleEndian _ _

theorem toBytes_ofBytes {bs : Bytes} (h : bs.length = 8) : (ofBytes bs).toBytes = bs :=
  Bytes.littleEndian_toNat_ofNat h

end FleetEstimate.Real64
