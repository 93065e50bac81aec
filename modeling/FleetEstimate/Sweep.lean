import FleetEstimate.Estimator
import FleetEstimate.Experiment.UncodedChannel
import FleetEstimate.Settings

/-!
# Sweeps over parameters

A node that stands alone estimates the error rates of the uncoded channel at one
parameter after the other and shows a row for each. `Outcome` is all that such a
node shows.
-/

namespace FleetEstimate

/-- The row of an estimate at a parameter: the bit and the frame error rate with their
tolerance. -/
def sweepRow (parameter : Real64) (e : Estimate Real64) : String :=
  let entry (i : Nat) := Decimal.scientific 4 (e.result.getD i 0).toFloat
  Decimal.alignedRight 7 (Decimal.fixed 2 parameter.toFloat) ++ " dB  BER " ++ entry 0 ++
    "  FER " ++ entry 1 ++ "  +/- " ++
    Decimal.fixed 2 (Real64.ofFloat 100.0 * e.accuracy).toFloat ++ "%  " ++
    toString e.samples.toNat ++ " samples" ++ (if e.converged then "" else " (interrupted)")

namespace Estimator

variable {E : Type} [Experiment E] {ω : Type} [Watch ω]

/-- The estimate at a parameter. -/
def estimateAt (parameter : Real64) (s : Estimator E) (w : ω) :
    Except RunError (Estimate Real64 × Estimator E) × ω :=
  estimateLocal { s with experiment := Experiment.setParameter parameter s.experiment } w

/-- The estimates at some parameters, up to the first one that cannot be had or that is
interrupted; and why the sweep breaks off, if it does not end well. -/
def sweep : List Real64 → Estimator E → ω → List (Real64 × Estimate Real64) × Option RunError × ω
  | [], _, w => ([], none, w)
  | parameter :: parameters, s, w =>
    match s.estimateAt parameter w with
    | (.error e, w) => ([], some e, w)
    | (.ok (e, s), w) =>
      if Watch.interrupted w then ([(parameter, e)], none, w)
      else
        let (rows, broken, w) := sweep parameters s w
        ((parameter, e) :: rows, broken, w)

end Estimator

/-- What a node shows before it ends. -/
structure Outcome where
  status : UInt32
  output : List String
  errors : List String
deriving DecidableEq, Repr

/-- The lines that tell an error and its causes; several causes are numbered. -/
def errorLines (message : String) (causes : List String) : List String :=
  match causes with
  | [] => ["Error: " ++ message]
  | [cause] => ["Error: " ++ message, "", "Caused by:", "    " ++ cause]
  | causes =>
    ["Error: " ++ message, "", "Caused by:"] ++
      causes.mapIdx fun i cause => Decimal.alignedRight 5 (toString i) ++ ": " ++ cause

/-- A run that nobody follows and nothing interrupts. -/
structure Unwatched where

instance : Watch Unwatched where
  report _ w := w
  interrupted _ := false

namespace Settings

/-- The estimator of a node. -/
def estimator (s : Settings) : Except EstimationError (Estimator UncodedChannel) :=
  Estimator.new (.new s.blockSize s.blockSize_ne_zero) s.target

/-- What a node that stands alone shows. -/
def runAlone (s : Settings) : Outcome :=
  match s.estimator with
  | .error e => ⟨1, [], errorLines e.message e.causes⟩
  | .ok estimator =>
    let (rows, broken, _) := estimator.sweep s.parameters (Unwatched.mk)
    let output := rows.map fun (parameter, e) => sweepRow parameter e
    match broken with
    | none => ⟨0, output, []⟩
    | some (.refused e) => ⟨1, output, errorLines e.message e.causes⟩
    | some (.broken f) => ⟨101, output, [f.message]⟩

/-- What a node shows in an environment. Coordinators and workers need a network, which
this library does not bring. -/
def runIn (lookup : String → Option String) : Outcome :=
  match read lookup with
  | .error e => ⟨1, [], errorLines e.message e.causes⟩
  | .ok s =>
    match s.endpoint with
    | .alone => s.runAlone
    | _ => ⟨1, [], errorLines "no network to reach the endpoint over" []⟩

end Settings

end FleetEstimate
