/-!
# Bytes and the text they hold

Numbers as bytes of either order, bytes as hexadecimal digits, and text in
UTF-8. Bytes that are no text are reported by the place and length of the first
sequence that cannot be part of any.
-/

namespace FleetEstimate

/-- Bytes in the order in which they travel. -/
abbrev Bytes := List UInt8

namespace Bytes

/-- The lowest `width` bytes of a number, the lowest first. -/
def littleEndian : (width : Nat) → Nat → Bytes
  | 0, _ => []
  | width + 1, n => UInt8.ofNat n :: littleEndian width (n / 256)

/-- The lowest `width` bytes of a number, the highest first. -/
def bigEndian (width n : Nat) : Bytes := (littleEndian width n).reverse

/-- The number whose bytes these are, the lowest first. -/
def ofLittleEndian : Bytes → Nat
  | [] => 0
  | b :: bs => b.toNat + 256 * ofLittleEndian bs

/-- The number whose bytes these are, the highest first. -/
def ofBigEndian (bs : Bytes) : Nat := ofLittleEndian bs.reverse

/-- The first pieces of a size, at most so many, the last one possibly shorter. -/
def firstPieces (size : Nat) : (limit : Nat) → Bytes → List Bytes
  | 0, _ => []
  | _, [] => []
  | limit + 1, bs => bs.take size :: firstPieces size limit (bs.drop size)

/-- Bytes in pieces of a size, which must not be zero, the last one possibly shorter.
There are never more pieces than bytes. -/
def pieces (bs : Bytes) (size : Nat) : List Bytes := firstPieces size bs.length bs

/-- The lower case hexadecimal digit of a number below sixteen. -/
def hexDigit (n : Nat) : Char :=
  if n < 10 then Char.ofNat ('0'.toNat + n) else Char.ofNat ('a'.toNat + (n - 10))

/-- Two digits a byte. -/
def toHex (bs : Bytes) : String :=
  String.ofList (bs.flatMap fun b => [hexDigit (b.toNat / 16), hexDigit (b.toNat % 16)])

/-- The value of a hexadecimal digit in either case. -/
def hexValue? (digit : UInt8) : Option UInt8 :=
  if 0x30 ≤ digit ∧ digit ≤ 0x39 then some (digit - 0x30)
  else if 0x61 ≤ digit ∧ digit ≤ 0x66 then some (digit - 0x57)
  else if 0x41 ≤ digit ∧ digit ≤ 0x46 then some (digit - 0x37)
  else none

/-- The bytes that digits stand for, two by two, or the first digit that is none. A
digit without a partner is passed over. -/
def ofHexDigits : (digits : Bytes) → Except UInt8 Bytes
  | a :: b :: digits =>
    match hexValue? a with
    | none => .error a
    | some high =>
      match hexValue? b with
      | none => .error b
      | some low => (ofHexDigits digits).map ((high * 16 + low) :: ·)
  | _ => .ok []

end Bytes

/-- The bytes of a text. -/
def Text.toBytes (text : String) : Bytes := text.toUTF8.data.toList

/-- The first sequence of bytes that cannot be part of a text: where it starts, and
how many bytes of it are wrong; `none` if it could still be completed. -/
structure InvalidText where
  start : Nat
  length : Option Nat
deriving DecidableEq, Repr

def InvalidText.message (e : InvalidText) : String :=
  match e.length with
  | some n =>
    "invalid utf-8 sequence of " ++ toString n ++ " bytes from index " ++ toString e.start
  | none => "incomplete utf-8 byte sequence from index " ++ toString e.start

namespace Text

/-- The ranges of the bytes that must follow a first byte; `none` if it can be no
first byte. -/
def followers (first : UInt8) : Option (List (UInt8 × UInt8)) :=
  if first < 0x80 then some []
  else if first < 0xc2 then none
  else if first < 0xe0 then some [(0x80, 0xbf)]
  else if first = 0xe0 then some [(0xa0, 0xbf), (0x80, 0xbf)]
  else if first = 0xed then some [(0x80, 0x9f), (0x80, 0xbf)]
  else if first < 0xf0 then some [(0x80, 0xbf), (0x80, 0xbf)]
  else if first = 0xf0 then some [(0x90, 0xbf), (0x80, 0xbf), (0x80, 0xbf)]
  else if first < 0xf4 then some [(0x80, 0xbf), (0x80, 0xbf), (0x80, 0xbf)]
  else if first = 0xf4 then some [(0x80, 0x8f), (0x80, 0xbf), (0x80, 0xbf)]
  else none

/-- Looks for an invalid sequence from `index` on, where `taken` bytes of a character
precede and bytes in the ranges of `due` must follow. -/
def invalidFrom : (index taken : Nat) → (due : List (UInt8 × UInt8)) → Bytes →
    Option InvalidText
  | _, _, [], [] => none
  | index, taken, _ :: _, [] => some ⟨index - taken, none⟩
  | index, _, [], b :: bs =>
    match followers b with
    | some due => invalidFrom (index + 1) 1 due bs
    | none => some ⟨index, some 1⟩
  | index, taken, (low, high) :: due, b :: bs =>
    if low ≤ b ∧ b ≤ high then invalidFrom (index + 1) (taken + 1) due bs
    else some ⟨index - taken, some taken⟩

/-- The text that bytes hold. -/
def ofBytes (bs : Bytes) : Except InvalidText String :=
  match String.fromUTF8? ⟨bs.toArray⟩ with
  | some text => .ok text
  | none => .error ((invalidFrom 0 0 [] bs).getD ⟨bs.length, none⟩)

end Text

end FleetEstimate
