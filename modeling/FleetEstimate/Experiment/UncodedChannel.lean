import FleetEstimate.Experiment
import FleetEstimate.Json.Value
import FleetEstimate.Random.Normal

/-!
# Uncoded transmission over a noisy channel

Blocks of random bits are sent as `±1` over a channel that adds normal noise, and
the receiver decides each bit by the sign of what arrives. The parameter is the
signal to noise ratio per bit in decibels. A sample is one block: its bit error
rate and whether it had any error.
-/

namespace FleetEstimate

/-- A channel that sends blocks of `blockSize` bits. -/
structure UncodedChannel where
  blockSize : UInt64
  blockSize_ne_zero : blockSize ≠ 0
  /-- The signal to noise ratio per bit, in decibels. -/
  ratio : Real64
  /-- The standard deviation of the noise at this ratio. -/
  sigma : Float
  generator : Random.Generator

namespace UncodedChannel

/-- The standard deviation of the noise that goes with a ratio in decibels. -/
def noiseDeviation (ratio : Float) : Float :=
  (1.0 / (2.0 * Float.pow 10.0 (ratio / 10.0))).sqrt

/-- A channel at 0 dB with the seed zero. -/
def new (blockSize : UInt64) (h : blockSize ≠ 0) : UncodedChannel :=
  ⟨blockSize, h, 0, noiseDeviation 0.0, .ofSeed 0⟩

def setRatio (ratio : Real64) (c : UncodedChannel) : UncodedChannel :=
  { c with ratio, sigma := noiseDeviation ratio.toFloat }

/-- Sends one random bit: whether it is decided wrongly. The bit is drawn before the
noise. -/
def bitError (sigma : Float) (g : Random.Generator) : Bool × Random.Generator :=
  let (bit, g) := g.coin
  let (noise, g) := g.normal
  let received := (if bit then -1.0 else 1.0) + sigma * noise
  (decide (received < 0.0) != bit, g)

/-- Sends a number of bits and adds their errors to those before. -/
def bitErrors (sigma : Float) : (bits errors : Nat) → Random.Generator → Nat × Random.Generator
  | 0, errors, g => (errors, g)
  | bits + 1, errors, g =>
    let (wrong, g) := bitError sigma g
    bitErrors sigma bits (if wrong then errors + 1 else errors) g

/-- The result of a block with so many errors: the bit error rate, then the indicator
of a frame error. -/
def blockResult (blockSize : UInt64) (errors : Nat) : List Real64 :=
  [.ofFloat (errors.toUInt64.toFloat / blockSize.toFloat), if 0 < errors then 1 else 0]

/-- Sends one block. -/
def sendBlock (c : UncodedChannel) : List Real64 × UncodedChannel :=
  let (errors, g) := bitErrors c.sigma c.blockSize.toNat 0 c.generator
  (blockResult c.blockSize errors, { c with generator := g })

/-- The text of a channel. -/
def toText (c : UncodedChannel) : String :=
  "\x7b\"system\":\"uncoded_awgn\",\"block_size\":" ++ toString c.blockSize.toNat ++ "\x7d"

/-- The one member of a name, if there is exactly one. -/
def soleMember? (name : String) (members : List (String × Json)) : Option Json :=
  match members.filter fun m => m.1 == name with
  | [(_, value)] => some value
  | _ => none

/-- The block size that a description of the system names, as an object with a member
`system` beside the fields, or as a list of the system and its fields. Members that
say nothing of the system are skipped. -/
def describedBlockSize? : Json → Option Json
  | .object members =>
    match soleMember? "system" members with
    | some (.string "uncoded_awgn") => soleMember? "block_size" members
    | _ => none
  | .array [.string "uncoded_awgn", size] => some size
  | _ => none

/-- Rebuilds a channel from a description. -/
def ofText? (text : String) : Option UncodedChannel := do
  match ← describedBlockSize? (← Json.ofText? text) with
  | .whole n => if h : n ≠ 0 then some (new n h) else none
  | _ => none

/-- Rebuilds a channel from its text. -/
def ofText (text : String) : Except LinkError UncodedChannel :=
  match ofText? text with
  | some c => .ok c
  | none => .error (.carrying .invalidData (.text "not the description of an uncoded channel"))

def description (c : UncodedChannel) : String :=
  "uncoded BPSK over AWGN, " ++ toString c.blockSize.toNat ++ " bit blocks"

end UncodedChannel

instance : Experiment UncodedChannel where
  count _ := 2
  sample := UncodedChannel.sendBlock
  seed s c := { c with generator := .ofSeed s }
  parameter c := c.ratio
  setParameter := UncodedChannel.setRatio
  toText := UncodedChannel.toText
  ofText := UncodedChannel.ofText
  description := UncodedChannel.description
  length_sample _ := rfl
  count_sample _ := rfl
  count_seed _ _ := rfl

end FleetEstimate
