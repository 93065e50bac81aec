import FleetEstimate.Experiment
import FleetEstimate.Report
import FleetEstimate.Target

/-!
# Estimation in one process

An estimator owns an experiment, a target and the totals of its last run. A run
draws samples until the stopping rule holds or it is told to stop. What follows a
run lives in an outside world `ω`: it gets a report after every sample, and it may
raise an interrupt, which is polled after every report.
-/

namespace FleetEstimate

/-- What follows a run in an outside world. -/
class Watch (ω : Type) where
  report : Report → ω → ω
  /-- Whether the run is asked to stop. -/
  interrupted : ω → Bool

structure Estimator (E : Type) where
  experiment : E
  target : Target
  /-- The multiplier of the target's confidence. -/
  multiplier : Real64
  /-- The totals of the last run. -/
  totals : Totals Real64

/-- Why a run gives no estimate. -/
inductive RunError
  /-- It cannot be run. -/
  | refused (e : EstimationError)
  /-- Its totals cannot be continued. -/
  | broken (f : TotalsFault)

namespace Estimator

variable {E : Type} [Experiment E]

/-- The dimension of an experiment, which must not be zero. -/
def dimension (e : E) : Except EstimationError Nat :=
  if Experiment.count e = 0 then .error .emptyResult else .ok (Experiment.count e)

/-- An estimator that has not run. -/
def new (experiment : E) (target : Target) : Except EstimationError (Estimator E) := do
  let count ← dimension experiment
  let multiplier ← multiplierOf target.confidence
  return { experiment, target, multiplier, totals := .zero count }

def setConfidence (s : Estimator E) (confidence : Real64) :
    Except EstimationError (Estimator E) := do
  let target ← s.target.withConfidence confidence
  let multiplier ← multiplierOf confidence
  return { s with target, multiplier }

def setAccuracy (s : Estimator E) (accuracy : Real64) :
    Except EstimationError (Estimator E) := do
  return { s with target := ← s.target.withAccuracy accuracy }

/-- The estimator with no samples, for a new run. -/
def start (s : Estimator E) : Except EstimationError (Estimator E) := do
  return { s with totals := .zero (← dimension s.experiment) }

/-- What the totals say, and whether the stopping rule holds. -/
def evaluate (s : Estimator E) : Estimate Real64 :=
  let e := s.totals.estimate s.multiplier
  { e with converged := decide (s.target.IsMet e) }

/-- Draws one sample. -/
def draw (s : Estimator E) : Except TotalsFault (Estimator E) := do
  let (x, experiment) := Experiment.sample s.experiment
  return { s with experiment, totals := ← s.totals.accumulate x }

variable {ω : Type} [Watch ω]

/-- Draws samples until the stopping rule holds or the interrupt is raised, at most as
many as there are counts. -/
def drawUntilDone : (counts : Nat) → Estimator E →
    ExceptT TotalsFault (StateM ω) (Estimate Real64 × Estimator E)
  | 0, _ => throw .countOverflow
  | counts + 1, s => do
    let s ← MonadExcept.ofExcept s.draw
    let e := s.evaluate
    modifyThe ω (Watch.report (.ofEstimate e none none))
    if e.converged || Watch.interrupted (← getThe ω) then return (e, s)
    else drawUntilDone counts s

/-- A run in one process, always from the seed zero. A count of samples has 64 bits, so
a run ends at the latest when it leaves them. -/
def estimateLocal (s : Estimator E) (w : ω) :
    Except RunError (Estimate Real64 × Estimator E) × ω :=
  match s.start with
  | .error e => (.error (.refused e), w)
  | .ok s =>
    let s := { s with experiment := Experiment.seed 0 s.experiment }
    match (drawUntilDone UInt64.size s).run w with
    | (.ok r, w) => (.ok r, w)
    | (.error f, w) => (.error (.broken f), w)

end Estimator

end FleetEstimate
