import FleetEstimate.Decimal.Read

/-!
# JSON values

A reader of JSON text, strict in its grammar: no comments, no trailing commas, no
leading zeros, no control characters in strings, no unpaired surrogates, nothing
but blanks after the value, at most 127 nested containers, and no number beyond
the floats.
-/

namespace FleetEstimate

/-- A JSON value. Whole numbers from zero on that fit into 64 bits are kept apart
from all other numbers; members keep their order and may repeat. -/
inductive Json
  | null
  | bool (b : Bool)
  | whole (n : UInt64)
  | real (x : Float)
  | string (s : String)
  | array (items : List Json)
  | object (members : List (String × Json))

namespace Json

/-- The text without the blanks at its start. -/
def skipBlanks (cs : List Char) : List Char :=
  cs.dropWhile fun c => c = ' ' || c = '\n' || c = '\t' || c = '\r'

def hexDigit? (c : Char) : Option Nat :=
  if '0' ≤ c ∧ c ≤ '9' then some (c.toNat - '0'.toNat)
  else if 'a' ≤ c ∧ c ≤ 'f' then some (c.toNat - 'a'.toNat + 10)
  else if 'A' ≤ c ∧ c ≤ 'F' then some (c.toNat - 'A'.toNat + 10)
  else none

/-- Four hexadecimal digits. -/
def hexUnit? (a b c d : Char) : Option Nat := do
  return (((← hexDigit? a) * 16 + (← hexDigit? b)) * 16 + (← hexDigit? c)) * 16 + (← hexDigit? d)

/-- The character that a letter after a backslash stands for. -/
def simpleEscape? : Char → Option Char
  | '"' => some '"'
  | '\\' => some '\\'
  | '/' => some '/'
  | 'b' => some '\x08'
  | 'f' => some '\x0c'
  | 'n' => some '\n'
  | 'r' => some '\r'
  | 't' => some '\t'
  | _ => none

/-- The rest of a string after its opening quote, with the characters read so far in
reverse. -/
def readString (read : List Char) : List Char → Option (String × List Char)
  | [] => none
  | '"' :: cs => some (String.ofList read.reverse, cs)
  | '\\' :: 'u' :: a :: b :: c :: d :: cs =>
    match hexUnit? a b c d with
    | none => none
    | some high =>
      if 0xd800 ≤ high ∧ high < 0xdc00 then
        match cs with
        | '\\' :: 'u' :: a :: b :: c :: d :: cs =>
          match hexUnit? a b c d with
          | some low =>
            if 0xdc00 ≤ low ∧ low < 0xe000 then
              readString
                (Char.ofNat (0x10000 + (high - 0xd800) * 0x400 + (low - 0xdc00)) :: read) cs
            else none
          | none => none
        | _ => none
      else if 0xdc00 ≤ high ∧ high < 0xe000 then none
      else readString (Char.ofNat high :: read) cs
  | '\\' :: c :: cs =>
    match simpleEscape? c with
    | some c => readString (c :: read) cs
    | none => none
  | c :: cs => if c.toNat < 0x20 ∨ c = '\\' then none else readString (c :: read) cs

/-- The digits at the start of a text, and the rest. -/
def spanDigits (cs : List Char) : List Char × List Char :=
  cs.span fun c => (Decimal.digit? c).isSome

/-- The digits of a whole number part: a single zero, or no zero in front. -/
def readWholePart (cs : List Char) : Option (List Char × List Char) :=
  match spanDigits cs with
  | ([], _) => none
  | ('0' :: _ :: _, _) => none
  | part => some part

/-- The fraction behind a point, if there is one. -/
def readFraction : List Char → Option (List Char × List Char)
  | '.' :: cs =>
    match spanDigits cs with
    | ([], _) => none
    | part => some part
  | cs => some ([], cs)

/-- The exponent, if there is one: its value, or `none` inside for no exponent. -/
def readExponent : List Char → Option (Option Int × List Char)
  | c :: cs =>
    if c = 'e' ∨ c = 'E' then
      let (negative, cs) := match cs with
        | '-' :: cs => (true, cs)
        | '+' :: cs => (false, cs)
        | cs => (false, cs)
      match spanDigits cs with
      | ([], _) => none
      | (ds, cs) =>
        let n : Int := Decimal.digitsValue ds
        some (some (if negative then -n else n), cs)
    else some (none, c :: cs)
  | [] => some (none, [])

/-- A number without its sign. -/
def readUnsigned (negative : Bool) (cs : List Char) : Option (Json × List Char) := do
  let (units, cs) ← readWholePart cs
  let (fraction, cs) ← readFraction cs
  let (exponent, cs) ← readExponent cs
  let n := Decimal.digitsValue units
  if !negative && fraction.isEmpty && exponent.isNone && n < UInt64.size then
    return (.whole (UInt64.ofNat n), cs)
  else
    let x := Decimal.nearestFloat (Decimal.digitsValue (units ++ fraction))
      (exponent.getD 0 - fraction.length)
    if x.isInf then none else return (.real (if negative then -x else x), cs)

/-- A number. -/
def readNumber : List Char → Option (Json × List Char)
  | '-' :: cs => readUnsigned true cs
  | cs => readUnsigned false cs

/-- The rest of a text after the given characters. -/
def after (word : List Char) (cs : List Char) : Option (List Char) :=
  if word.isPrefixOf cs then some (cs.drop word.length) else none

mutual

/-- A value at the start of a text. Every call reads at least one character or is
followed by one that does, so a text of `n` characters needs at most `2 * n + 2`
calls inside each other. -/
def readValue : (calls depth : Nat) → List Char → Option (Json × List Char)
  | 0, _, _ => none
  | calls + 1, depth, cs =>
    match skipBlanks cs with
    | '"' :: cs => (readString [] cs).map fun (s, cs) => (.string s, cs)
    | '[' :: cs =>
      match depth with
      | 0 => none
      | depth + 1 =>
        match skipBlanks cs with
        | ']' :: cs => some (.array [], cs)
        | cs => (readItems calls depth [] cs).map fun (items, cs) => (.array items, cs)
    | '\x7b' :: cs =>
      match depth with
      | 0 => none
      | depth + 1 =>
        match skipBlanks cs with
        | '\x7d' :: cs => some (.object [], cs)
        | cs => (readMembers calls depth [] cs).map fun (members, cs) => (.object members, cs)
    | 'n' :: cs => (after "ull".toList cs).map (.null, ·)
    | 't' :: cs => (after "rue".toList cs).map (.bool true, ·)
    | 'f' :: cs => (after "alse".toList cs).map (.bool false, ·)
    | cs => readNumber cs

/-- The items of an array up to its end, with those read so far in reverse. -/
def readItems : (calls depth : Nat) → (read : List Json) → List Char →
    Option (List Json × List Char)
  | 0, _, _, _ => none
  | calls + 1, depth, read, cs =>
    match readValue calls depth cs with
    | none => none
    | some (item, cs) =>
      match skipBlanks cs with
      | ',' :: cs => readItems calls depth (item :: read) cs
      | ']' :: cs => some ((item :: read).reverse, cs)
      | _ => none

/-- The members of an object up to its end, with those read so far in reverse. -/
def readMembers : (calls depth : Nat) → (read : List (String × Json)) → List Char →
    Option (List (String × Json) × List Char)
  | 0, _, _, _ => none
  | calls + 1, depth, read, cs =>
    match skipBlanks cs with
    | '"' :: cs =>
      match readString [] cs with
      | none => none
      | some (name, cs) =>
        match skipBlanks cs with
        | ':' :: cs =>
          match readValue calls depth cs with
          | none => none
          | some (value, cs) =>
            match skipBlanks cs with
            | ',' :: cs => readMembers calls depth ((name, value) :: read) cs
            | '\x7d' :: cs => some (((name, value) :: read).reverse, cs)
            | _ => none
        | _ => none
    | _ => none

end

/-- The value that a text is. -/
def ofText? (text : String) : Option Json :=
  let cs := text.toList
  match readValue (2 * cs.length + 2) 127 cs with
  | some (value, rest) => if (skipBlanks rest).isEmpty then some value else none
  | none => none

end Json

end FleetEstimate
