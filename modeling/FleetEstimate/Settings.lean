import FleetEstimate.Settings.Endpoint
import FleetEstimate.Target
import FleetEstimate.Text.Blank

/-!
# Settings of a node

A node is set up by variables of its environment. Each has a default; a variable
that is set but wrong is an error, and of several the first in the order of
`Settings.read` is told.
-/

namespace FleetEstimate

/-- What a node needs to run. -/
structure Settings where
  endpoint : Endpoint
  target : Target
  /-- The parameters to estimate at. -/
  parameters : List Real64
  blockSize : UInt64
  blockSize_ne_zero : blockSize ≠ 0
  /-- How long a worker samples for a call, in milliseconds. -/
  workUnit : UInt64
  workerName : Option String

/-- Why settings cannot be used. -/
inductive SettingsError
  | endpoint (value : String) (e : EndpointError)
  | number (key value : String) (e : Decimal.NumberError)
  | target (e : EstimationError)
  | parameter (e : Decimal.NumberError)
  | notFinite (list : String)

namespace SettingsError

def message : SettingsError → String
  | .endpoint value _ => "invalid ENDPOINT: " ++ Text.quoted value
  | .number key value _ => "invalid " ++ key ++ ": " ++ Text.quoted value
  | .target e => e.message
  | .parameter _ | .notFinite _ => "invalid PARAMETERS"

/-- The messages of the causes. -/
def causes : SettingsError → List String
  | .endpoint _ e => e.message :: e.causes
  | .number _ _ e => [e.message]
  | .target e => e.causes
  | .parameter e => [e.message]
  | .notFinite list =>
    ["expected a comma separated list of finite numbers, got " ++ Text.quoted list]

end SettingsError

namespace Settings

/-- The parts of a text between commas. -/
def commaParts (text : String) : List String :=
  (text.toList.splitOn ',').map String.ofList

/-- Reads a list of parameters. A part that is no number is told before a number that
is not finite. -/
def readParameters (list : String) : Except SettingsError (List Real64) := do
  let xs ← (commaParts list).mapM fun part =>
    match Decimal.readFloat (Text.trimmed part) with
    | .ok x => .ok (Real64.ofFloat x)
    | .error e => .error (.parameter e)
  if xs.all Real64.isFinite then return xs else throw (.notFinite list)

/-- A variable read without the blanks around it, or its default. -/
def readOr {α : Type} (value : Option String) (default : α)
    (read : String → Except SettingsError α) : Except SettingsError α :=
  match value with
  | some text => read text
  | none => .ok default

/-- Reads a number variable. -/
def readNumber {α : Type} (key : String) (read : String → Except Decimal.NumberError α)
    (text : String) : Except SettingsError α :=
  match read (Text.trimmed text) with
  | .ok x => .ok x
  | .error e => .error (.number key text e)

/-- The largest number of 64 bits. -/
def maxUInt64 : Nat := UInt64.size - 1

/-- A block size with the proof that it is one. -/
abbrev BlockSize := { n : UInt64 // n ≠ 0 }

def defaultBlockSize : BlockSize := ⟨1000, by decide⟩

def readBlockSize (text : String) : Except Decimal.NumberError BlockSize := do
  let n ← Decimal.readPositive maxUInt64 text
  if h : UInt64.ofNat n ≠ 0 then return ⟨UInt64.ofNat n, h⟩ else throw .zero

/-- Reads all settings from an environment. -/
def read (lookup : String → Option String) : Except SettingsError Settings := do
  let endpoint ← readOr (lookup "ENDPOINT") .alone fun text =>
    match Endpoint.ofText (Text.trimmed text) with
    | .ok e => .ok e
    | .error e => .error (.endpoint text e)
  let real (text : String) := (Decimal.readFloat text).map Real64.ofFloat
  let accuracy ← readOr (lookup "ACCURACY") Target.standard.accuracy
    (readNumber "ACCURACY" real)
  let confidence ← readOr (lookup "CONFIDENCE") Target.standard.confidence
    (readNumber "CONFIDENCE" real)
  let target ← (Target.new accuracy confidence).mapError .target
  let parameters ← readParameters ((lookup "PARAMETERS").getD "0,2,4,6")
  let ⟨blockSize, blockSize_ne_zero⟩ ← readOr (lookup "BLOCK_SIZE") defaultBlockSize
    (readNumber "BLOCK_SIZE" readBlockSize)
  let workUnit ← readOr (lookup "WORK_UNIT_MS") 500
    (readNumber "WORK_UNIT_MS" fun text => (Decimal.readNat maxUInt64 text).map UInt64.ofNat)
  return { endpoint, target, parameters, blockSize, blockSize_ne_zero, workUnit,
           workerName := lookup "SLAVE_NAME" }

end Settings

end FleetEstimate
