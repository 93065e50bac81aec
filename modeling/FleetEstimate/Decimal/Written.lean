import FleetEstimate.Decimal.Parts

/-!
# Floats as decimal text

Three ways to write a float: with the fewest digits that read back, positionally
(`plain`); with a fixed number of places (`fixed`); with one digit before the
point and an exponent (`scientific`). The last two round the exact value, a tie
to the even digit.
-/

namespace FleetEstimate.Decimal

/-- The decimal number `digits · 10 ^ exponent`. -/
structure Digits where
  digits : Nat
  exponent : Int
deriving DecidableEq, Repr

/-- The reals that round to `mantissa · 2 ^ exponent`, in quarters of the unit
`2 ^ exponent`. The ends belong to them iff the mantissa is even. -/
structure Neighbourhood where
  low : Nat
  mid : Nat
  high : Nat
  /-- The exponent of two of a quarter. -/
  exponent : Int
  closed : Bool
deriving DecidableEq, Repr

/-- The neighbourhood of a float. Below a power of two floats lie twice as close. -/
def Neighbourhood.of (mantissa : Nat) (exponent : Int) : Neighbourhood where
  low := if mantissa = leadingBit ∧ -1074 < exponent then 4 * mantissa - 1 else 4 * mantissa - 2
  mid := 4 * mantissa
  high := 4 * mantissa + 2
  exponent := exponent - 2
  closed := mantissa % 2 = 0

/-- The point of the grid of multiples of `10 ^ k` that lies in a neighbourhood, the
one nearer to its middle of two, the upper one on a tie. -/
def Neighbourhood.gridPoint? (u : Neighbourhood) (k : Int) : Option Digits :=
  let unit := Fraction.scaled 1 u.exponent (-k)
  let inside (d : Nat) : Bool :=
    let d := d * unit.denominator
    if u.closed then u.low * unit.numerator ≤ d && d ≤ u.high * unit.numerator
    else u.low * unit.numerator < d && d < u.high * unit.numerator
  let mid := u.mid * unit.numerator
  let below := mid / unit.denominator
  let upperIsNearer := unit.denominator ≤ 2 * (mid % unit.denominator)
  if inside below && !(inside (below + 1) && upperIsNearer) then some ⟨below, k⟩
  else if inside (below + 1) then some ⟨below + 1, k⟩
  else none

/-- The fewest digits that read back as `mantissa · 2 ^ exponent`, the nearest to it
of those: a point of the coarsest decimal grid that has one. Grids are tried from
the power of ten above the number on. Seventeen digits always read back, so the last
resort is never used. -/
def shortest (mantissa : Nat) (exponent : Int) : Digits :=
  if mantissa = 0 then ⟨0, 0⟩
  else
    let u := Neighbourhood.of mantissa exponent
    let lead := leadingExponent mantissa exponent
    ((List.range 18).findSome? fun (n : Nat) => u.gridPoint? (lead + 1 - n)).getD ⟨mantissa, 0⟩

/-- Decimal digits with zeros in front up to `width`. -/
def padded (width n : Nat) : String :=
  let text := toString n
  "".pushn '0' (width - text.length) ++ text

/-- `n / 10 ^ places` in positional notation with exactly that many places. -/
def withPlaces (n places : Nat) : String :=
  if places = 0 then toString n
  else toString (n / Nat.pow 10 places) ++ "." ++ padded places (n % Nat.pow 10 places)

/-- A decimal number in positional notation, without zeros at the end of its
fraction. -/
def Digits.positional (d : Digits) : String :=
  if 0 ≤ d.exponent then toString (d.digits * Nat.pow 10 d.exponent.toNat)
  else withPlaces d.digits (-d.exponent).toNat

/-- The text of a float whose finite magnitudes are written by `magnitude`. -/
def written (magnitude : (mantissa : Nat) → (exponent : Int) → String) (x : Float) : String :=
  match Parts.ofFloat x with
  | .nan => "NaN"
  | .infinite negative => if negative then "-inf" else "inf"
  | .finite negative m e => (if negative then "-" else "") ++ magnitude m e

/-- The fewest digits that read back, never with an exponent. -/
def plain (x : Float) : String :=
  written (fun m e => (shortest m e).positional) x

/-- A fixed number of decimal places. -/
def fixed (places : Nat) (x : Float) : String :=
  written (fun m e => withPlaces (Fraction.scaled m e places).round places) x

/-- One digit, a fixed number of places, and an exponent of ten without sign or
padding unless it is negative. -/
def scientific (places : Nat) (x : Float) : String :=
  written (fun m e =>
    if m = 0 then withPlaces 0 places ++ "e0"
    else
      let lead := leadingExponent m e
      let d := (Fraction.scaled m e (places - lead)).round
      -- rounding may carry into one more digit
      let (d, lead) := if digitCount d = places + 2 then (d / 10, lead + 1) else (d, lead)
      withPlaces d places ++ "e" ++ toString lead) x

/-- A text with blanks in front up to `width` characters. -/
def alignedRight (width : Nat) (text : String) : String :=
  "".pushn ' ' (width - text.length) ++ text

end FleetEstimate.Decimal
