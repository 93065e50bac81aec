/-!
# The value behind a float

A finite float is `± mantissa · 2 ^ exponent`, with a natural mantissa below
`2 ^ 53`. Writing and rounding numbers works on this exact form.
-/

namespace FleetEstimate.Decimal

/-- What a float stands for. -/
inductive Parts
  | nan
  | infinite (negative : Bool)
  | finite (negative : Bool) (mantissa : Nat) (exponent : Int)
deriving DecidableEq, Repr

/-- The leading bit of a mantissa, which is not stored. -/
def leadingBit : Nat := 0x10000000000000

/-- Takes a float apart. -/
def Parts.ofFloat (x : Float) : Parts :=
  let bits := x.toBits
  let negative := bits >>> 63 == 1
  let biased := ((bits >>> 52) &&& 0x7ff).toNat
  let fraction := (bits &&& 0xfffffffffffff).toNat
  if biased = 0x7ff then if fraction = 0 then .infinite negative else .nan
  else if biased = 0 then .finite negative fraction (-1074)
  else .finite negative (fraction + leadingBit) (biased - 1075)

/-- The fraction `numerator / denominator`. -/
structure Fraction where
  numerator : Nat
  denominator : Nat
deriving DecidableEq, Repr

/-- The fraction `n · 2 ^ e · 10 ^ k`. -/
def Fraction.scaled (n : Nat) (e k : Int) : Fraction :=
  ⟨n * Nat.pow 2 e.toNat * Nat.pow 10 k.toNat, Nat.pow 2 (-e).toNat * Nat.pow 10 (-k).toNat⟩

/-- The whole number nearest to a fraction, the even one of two. -/
def Fraction.round (q : Fraction) : Nat :=
  let whole := q.numerator / q.denominator
  let twice := 2 * (q.numerator % q.denominator)
  if twice < q.denominator then whole
  else if q.denominator < twice then whole + 1
  else whole + whole % 2

/-- The number of decimal digits of a natural number. -/
def digitCount (n : Nat) : Nat := (Nat.toDigits 10 n).length

/-- The exponent of ten of the first digit of `mantissa · 2 ^ exponent`, which must
not be zero and not be below `10 ^ (-400)`. -/
def leadingExponent (mantissa : Nat) (exponent : Int) : Int :=
  let q := Fraction.scaled mantissa exponent 400
  (digitCount (q.numerator / q.denominator) : Int) - 401

end FleetEstimate.Decimal
