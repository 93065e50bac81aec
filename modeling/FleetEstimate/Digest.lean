import FleetEstimate.Digest.Node
import FleetEstimate.Text.Quoted

/-!
# Digests

The digest of some bytes is the 32 byte root of a hash tree over them. It is sent
as 64 lower case hexadecimal digits and read in either case.
-/

namespace FleetEstimate

/-- A digest of 32 bytes. -/
structure Digest where
  bytes : Vector UInt8 32
deriving DecidableEq

/-- Why a text is no digest. -/
inductive DigestError
  | length (bytes : Nat)
  | digit (byte : UInt8)
deriving DecidableEq, Repr

def DigestError.message : DigestError → String
  | .length bytes => "expected 64 hex bytes, received " ++ toString bytes
  | .digit byte =>
    "invalid hex character: " ++
      if byte < 0x80 then Text.quotedChar (Char.ofNat byte.toNat) else "0x" ++ Bytes.toHex [byte]

namespace Digest

/-- The first 32 bytes that a root gives out. -/
def ofRoot (n : Node) : Digest :=
  let words := Node.result { n with flags := n.flags ||| rootNode, counter := 0 }
  ⟨Vector.ofFn fun i : Fin 32 =>
    (words[i.val / 4] >>> (8 * (i.val % 4)).toUInt32).toUInt8⟩

/-- The digest of some bytes. -/
def of (bs : Bytes) : Digest :=
  let nodes := leaves bs
  ofRoot ((rootOf nodes.length nodes).getD (leaf 0 []))

def toHex (d : Digest) : String := Bytes.toHex d.bytes.toList

/-- Reads a digest. -/
def ofHex (text : String) : Except DigestError Digest :=
  let digits := Text.toBytes text
  if digits.length = 64 then
    match Bytes.ofHexDigits digits with
    | .error digit => .error (.digit digit)
    | .ok bs => if h : bs.toArray.size = 32 then .ok ⟨⟨bs.toArray, h⟩⟩ else .error (.length 64)
  else .error (.length digits.length)

end Digest

end FleetEstimate
