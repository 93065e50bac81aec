import FleetEstimate.Scalar
import FleetEstimate.Text.Bytes

/-!
# Floating point numbers by their bits

A `Float` has a single NaN, but numbers travel between processes with all their
bits. `Real64` is a number in the binary64 format that keeps the sign and the
payload of a NaN. Its arithmetic is that of `Float` on all other numbers; a NaN
operand is passed on, made quiet, the first one first, and an operation that is
undefined gives the NaN `invalid`.
-/

namespace FleetEstimate

/-- A binary64 number by its bits. -/
structure Real64 where
  bits : UInt64
deriving DecidableEq, Repr

namespace Real64

def toFloat (x : Real64) : Float := Float.ofBits x.bits

def ofFloat (x : Float) : Real64 := ⟨x.toBits⟩

def isNaN (x : Real64) : Bool := x.toFloat.isNaN

def isFinite (x : Real64) : Bool := x.toFloat.isFinite

/-- A NaN with its quiet bit set. -/
def quiet (x : Real64) : Real64 := ⟨x.bits ||| 0x8000000000000⟩

/-- The result of an operation that is not defined. -/
def invalid : Real64 := ⟨0xfff8000000000000⟩

/-- A result of an operation whose operands were numbers. -/
def ofResult (x : Float) : Real64 := if x.isNaN then invalid else ofFloat x

/-- An operation on one number. -/
def lift (f : Float → Float) (x : Real64) : Real64 :=
  if x.isNaN then x.quiet else ofResult (f x.toFloat)

/-- An operation on two numbers. -/
def lift₂ (f : Float → Float → Float) (x y : Real64) : Real64 :=
  if x.isNaN then x.quiet else if y.isNaN then y.quiet else ofResult (f x.toFloat y.toFloat)

instance : Zero Real64 := ⟨⟨0⟩⟩
instance : One Real64 := ⟨⟨0x3ff0000000000000⟩⟩
instance : Add Real64 := ⟨lift₂ (· + ·)⟩
instance : Sub Real64 := ⟨lift₂ (· - ·)⟩
instance : Mul Real64 := ⟨lift₂ (· * ·)⟩
instance : Div Real64 := ⟨lift₂ (· / ·)⟩
instance : LE Real64 := ⟨fun x y => x.toFloat ≤ y.toFloat⟩
instance : LT Real64 := ⟨fun x y => x.toFloat < y.toFloat⟩
/-- Numerical equality: the two zeros are equal, and a NaN equals nothing. -/
instance : BEq Real64 := ⟨fun x y => x.toFloat == y.toFloat⟩
instance : Inhabited Real64 := ⟨0⟩

instance (x y : Real64) : Decidable (x ≤ y) := inferInstanceAs (Decidable (x.toFloat ≤ y.toFloat))
instance (x y : Real64) : Decidable (x < y) := inferInstanceAs (Decidable (x.toFloat < y.toFloat))

/-- The larger of two numbers: the first of two equal ones, hence the sign of the
first of two zeros, and a NaN only if both are. -/
def larger (x y : Real64) : Real64 :=
  if x.isNaN then y else if x < y then y else x

/-- The smaller of two numbers: the first of two equal ones, and a NaN only if both
are. -/
def smaller (x y : Real64) : Real64 :=
  if x.isNaN then y else if y < x then y else x

instance : Scalar Real64 where
  ofCount n := ofFloat n.toFloat
  sqrt := lift Float.sqrt
  abs x := ⟨x.bits &&& 0x7fffffffffffffff⟩
  larger := larger
  smaller := smaller
  infinity := ⟨0x7ff0000000000000⟩
  decidableLe x y := inferInstanceAs (Decidable (x ≤ y))

/-- The eight bytes of a number, the lowest first. -/
def toBytes (x : Real64) : Bytes := Bytes.littleEndian 8 x.bits.toNat

/-- The number whose eight bytes these are. -/
def ofBytes (bs : Bytes) : Real64 := ⟨UInt64.ofNat (Bytes.ofLittleEndian bs)⟩

/-- The bits of a number as sixteen hexadecimal digits. -/
def toHex (x : Real64) : String := Bytes.toHex (Bytes.bigEndian 8 x.bits.toNat)

/-- The number whose bits sixteen hexadecimal digits are. -/
def ofHex? (text : String) : Option Real64 :=
  let digits := Text.toBytes text
  if digits.length = 16 then
    (Bytes.ofHexDigits digits).toOption.map fun bs => ⟨UInt64.ofNat (Bytes.ofBigEndian bs)⟩
  else none

end Real64

end FleetEstimate
