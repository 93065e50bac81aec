/-!
# Numbers read from text

A whole number is an optional plus sign and decimal digits, a float a sign,
digits with a point and an exponent, or one of the names `inf`, `infinity` and
`nan` in any case. A float is the nearest one to the number written.
-/

namespace FleetEstimate.Decimal

/-- Why a text is no number. -/
inductive NumberError
  | emptyInteger
  | invalidDigit
  | tooLarge
  | zero
  | emptyFloat
  | invalidFloat
deriving DecidableEq, Repr

def NumberError.message : NumberError → String
  | .emptyInteger => "cannot parse integer from empty string"
  | .invalidDigit => "invalid digit found in string"
  | .tooLarge => "number too large to fit in target type"
  | .zero => "number would be zero for non-zero type"
  | .emptyFloat => "cannot parse float from empty string"
  | .invalidFloat => "invalid float literal"

/-- The value of an ASCII decimal digit. -/
def digit? (c : Char) : Option Nat :=
  if '0' ≤ c ∧ c ≤ '9' then some (c.toNat - '0'.toNat) else none

/-- Continues the whole number `n` with more digits. A character that is no digit is
found before the number outgrows the limit at the same place. -/
def readDigits (limit : Nat) : (n : Nat) → List Char → Except NumberError Nat
  | n, [] => .ok n
  | n, c :: cs =>
    match digit? c with
    | none => .error .invalidDigit
    | some d => if limit < 10 * n + d then .error .tooLarge else readDigits limit (10 * n + d) cs

/-- Reads a whole number up to `limit`. -/
def readNat (limit : Nat) (text : String) : Except NumberError Nat :=
  match text.toList with
  | [] => .error .emptyInteger
  | ['+'] => .error .invalidDigit
  | '+' :: cs => readDigits limit 0 cs
  | cs => readDigits limit 0 cs

/-- Reads a whole number from one to `limit`. -/
def readPositive (limit : Nat) (text : String) : Except NumberError Nat := do
  let n ← readNat limit text
  if n = 0 then throw .zero else return n

/-- The value of a list of digits. -/
def digitsValue (cs : List Char) : Nat :=
  cs.foldl (fun n c => 10 * n + (digit? c).getD 0) 0

/-- The float nearest to `digits · 10 ^ exponent`. Past four hundred places before or
behind the point the answer no longer depends on the digits. -/
def nearestFloat (digits : Nat) (exponent : Int) : Float :=
  if digits = 0 then 0.0
  else
    let lead := exponent + ((Nat.toDigits 10 digits).length : Int)
    if 400 < lead then 1.0 / 0.0
    else if lead < -400 then 0.0
    else Float.ofScientific digits (exponent < 0) exponent.natAbs

/-- An exponent part: nothing, or `e`, a sign and digits. -/
def readExponent : List Char → Option Int
  | [] => some 0
  | c :: cs =>
    if c = 'e' ∨ c = 'E' then
      let (negative, ds) := match cs with
        | '-' :: ds => (true, ds)
        | '+' :: ds => (false, ds)
        | ds => (false, ds)
      if ds.isEmpty ∨ ds.any (fun d => (digit? d).isNone) then none
      else some (if negative then -(digitsValue ds : Int) else digitsValue ds)
    else none

/-- Digits with a point and an exponent part, at least one digit before the exponent. -/
def readMagnitude (cs : List Char) : Option Float :=
  let isDigit (c : Char) := (digit? c).isSome
  let whole := cs.takeWhile isDigit
  let rest := cs.dropWhile isDigit
  let (fraction, rest) := match rest with
    | '.' :: rest => (rest.takeWhile isDigit, rest.dropWhile isDigit)
    | rest => ([], rest)
  if whole.isEmpty ∧ fraction.isEmpty then none
  else (readExponent rest).map fun e =>
    nearestFloat (digitsValue (whole ++ fraction)) (e - fraction.length)

/-- A magnitude without sign, by name or by digits. -/
def readUnsigned (cs : List Char) : Option Float :=
  let name := cs.map Char.toLower
  if name = "inf".toList ∨ name = "infinity".toList then some (1.0 / 0.0)
  else if name = "nan".toList then some (0.0 / 0.0)
  else readMagnitude cs

/-- Reads a float. -/
def readFloat (text : String) : Except NumberError Float :=
  match text.toList with
  | [] => .error .emptyFloat
  | '-' :: cs => ((readUnsigned cs).map (-·)).elim (.error .invalidFloat) .ok
  | '+' :: cs => (readUnsigned cs).elim (.error .invalidFloat) .ok
  | cs => (readUnsigned cs).elim (.error .invalidFloat) .ok

end FleetEstimate.Decimal
