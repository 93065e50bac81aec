import FleetEstimate.Experiment

/-!
# Replayed experiments

A replay draws no random numbers: its samples are given rows of one length, one
after the other and again from the first one. It shows what a run makes of known
samples. Its text is `rows ` with the rows divided by semicolons and their entries,
each sixteen hexadecimal digits, by commas.
-/

namespace FleetEstimate

/-- A sample of a known dimension. -/
abbrev Row (dimension : Nat) := { row : List Real64 // row.length = dimension }

structure Replay where
  dimension : Nat
  rows : List (Row dimension)
  /-- The rows that are left before the first one comes again. -/
  upcoming : List (Row dimension)
  /-- The seeds it was given, the last one first. -/
  seeds : List UInt64
  parameter : Real64

namespace Replay

/-- A replay of rows of one length. -/
def ofRows? (rows : List (List Real64)) : Option Replay := do
  let dimension := (rows.headD []).length
  let rows ← rows.mapM fun row => if h : row.length = dimension then some ⟨row, h⟩ else none
  return ⟨dimension, rows, rows, [], 0⟩

/-- The next row and those after it. Without rows there are only zeros. -/
def turn (e : Replay) : Row e.dimension × List (Row e.dimension) :=
  match e.upcoming, e.rows with
  | row :: rest, _ => (row, rest)
  | [], row :: rest => (row, rest)
  | [], [] => (⟨List.replicate e.dimension 0, List.length_replicate⟩, [])

def sample (e : Replay) : List Real64 × Replay :=
  (e.turn.1.val, { e with upcoming := e.turn.2 })

/-- Starts again from the first row. -/
def restart (seed : UInt64) (e : Replay) : Replay :=
  { e with upcoming := e.rows, seeds := seed :: e.seeds }

def toText (e : Replay) : String :=
  "rows " ++ ";".intercalate (e.rows.map fun row => ",".intercalate (row.val.map Real64.toHex))

/-- Reads rows that are written like those of `toText`. -/
def readRows? (text : List Char) : Option (List (List Real64)) :=
  if text.isEmpty then some []
  else (text.splitOn ';').mapM fun row =>
    (row.splitOn ',').mapM fun entry => Real64.ofHex? (String.ofList entry)

def ofText? (text : String) : Option Replay :=
  match text.toList with
  | 'r' :: 'o' :: 'w' :: 's' :: ' ' :: rest => (readRows? rest).bind ofRows?
  | _ => none

/-- Rebuilds a replay from its text. -/
def ofText (text : String) : Except LinkError Replay :=
  match ofText? text with
  | some e => .ok e
  | none => .error (.carrying .invalidData (.text text))

instance : Experiment Replay where
  count := dimension
  sample := sample
  seed := restart
  parameter := parameter
  setParameter x e := { e with parameter := x }
  toText := toText
  ofText := ofText
  description e := toString e.rows.length ++ " scripted rows"
  length_sample e := e.turn.1.property
  count_sample _ := rfl
  count_seed _ _ := rfl

end Replay

end FleetEstimate
