import FleetEstimate.Failure

/-!
# Control tags

A coordinator opens every request with one of four tags, a 32 bit number with the
highest byte first.
-/

namespace FleetEstimate

/-- What a coordinator asks for. -/
inductive Tag
  /-- The name of the worker. -/
  | getName
  /-- The time that the worker spent sampling since the last such request. -/
  | getCpuTime
  /-- A call by name follows. -/
  | work
  /-- The end of the session. -/
  | die
deriving DecidableEq, Repr

namespace Tag

/-- The number of a tag. -/
def value : Tag → UInt32
  | .getName => 0xfa
  | .getCpuTime => 0xfb
  | .work => 0xfe
  | .die => 0xff

/-- The tag with a number. -/
def ofValue (n : UInt32) : Except ProtocolError Tag :=
  if n = 0xfa then .ok .getName
  else if n = 0xfb then .ok .getCpuTime
  else if n = 0xfe then .ok .work
  else if n = 0xff then .ok .die
  else .error (.unexpectedTag n)

def toBytes (t : Tag) : Bytes := Bytes.bigEndian 4 t.value.toNat

/-- Reads a tag from its four bytes. -/
def ofBytes (bs : Bytes) : Except ProtocolError Tag :=
  ofValue (UInt32.ofNat (Bytes.ofBigEndian bs))

theorem ofValue_value (t : Tag) : ofValue t.value = .ok t := by
  cases t <;> rfl

theorem ofBytes_toBytes (t : Tag) : ofBytes t.toBytes = .ok t := by
  cases t <;> rfl

end Tag

end FleetEstimate
