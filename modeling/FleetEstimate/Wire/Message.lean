import FleetEstimate.Wire.Link
import FleetEstimate.Wire.Tag

/-!
# Messages

What travels over a link: tags and lengths with the highest byte first, numbers
with the lowest byte first, texts and vectors behind their length. A length is
counted in bytes for a text and in elements for a vector, and no body is longer
than `maxPayload` bytes, whichever end it comes from. A short body travels in one
write with its length.
-/

namespace FleetEstimate

/-- The longest body in bytes. -/
def maxPayload : Nat := 64 * 1024 * 1024

/-- The longest body that travels in one write with its length. -/
def inlineLimit : Nat := 512

namespace Link

variable {ω ρ : Type} [Remote ω ρ]

/-! ## Sending -/

def sendTag (t : Tag) : LinkM ω ρ Unit := writeAll t.toBytes

def sendUInt32 (n : UInt32) : LinkM ω ρ Unit := writeAll (Bytes.littleEndian 4 n.toNat)

def sendUInt64 (n : UInt64) : LinkM ω ρ Unit := writeAll (Bytes.littleEndian 8 n.toNat)

def sendReal (x : Real64) : LinkM ω ρ Unit := writeAll x.toBytes

/-- Sends a body behind a length. -/
def sendFrame (length : Nat) (body : Bytes) : LinkM ω ρ Unit := do
  let head := Bytes.bigEndian 8 length
  if body.length ≤ inlineLimit then writeAll (head ++ body)
  else
    writeAll head
    writeAll body

def sendText (text : String) : LinkM ω ρ Unit :=
  if text.utf8ByteSize ≤ maxPayload then sendFrame text.utf8ByteSize (Text.toBytes text)
  else fail (.tooLong text.utf8ByteSize maxPayload)

def sendReals (xs : List Real64) : LinkM ω ρ Unit :=
  if 8 * xs.length ≤ maxPayload then sendFrame xs.length (xs.flatMap Real64.toBytes)
  else fail (.tooLong (8 * xs.length) maxPayload)

/-- Calls a function of the far end by name. The exchange that follows is for the
caller to make. -/
def call (name : String) : LinkM ω ρ Unit := do
  sendTag .work
  sendText name

/-! ## Receiving -/

def recvTag : LinkM ω ρ Tag := do
  match Tag.ofBytes (← receive 4) with
  | .ok t => return t
  | .error e => fail (.ofProtocol e)

def recvUInt32 : LinkM ω ρ UInt32 :=
  return UInt32.ofNat (Bytes.ofLittleEndian (← receive 4))

def recvUInt64 : LinkM ω ρ UInt64 :=
  return UInt64.ofNat (Bytes.ofLittleEndian (← receive 8))

def recvReal : LinkM ω ρ Real64 := return Real64.ofBytes (← receive 8)

def recvLength : LinkM ω ρ Nat := return Bytes.ofBigEndian (← receive 8)

def recvText : LinkM ω ρ String := do
  let length ← recvLength
  if maxPayload < length then fail (.tooLong length maxPayload)
  else
    match Text.ofBytes (← receive length) with
    | .ok text => return text
    | .error e => fail (.invalidText e)

/-- The numbers whose bytes these are, eight bytes each. -/
def realsOf : (count : Nat) → Bytes → List Real64
  | 0, _ => []
  | count + 1, bs => Real64.ofBytes (bs.take 8) :: realsOf count (bs.drop 8)

/-- Receives a vector. A length in bytes that leaves 64 bits is reported as the
largest one. -/
def recvReals : LinkM ω ρ (List Real64) := do
  let count ← recvLength
  if maxPayload < 8 * count then fail (.tooLong (min (8 * count) (UInt64.size - 1)) maxPayload)
  else return realsOf count (← receive (8 * count))

end Link

end FleetEstimate
