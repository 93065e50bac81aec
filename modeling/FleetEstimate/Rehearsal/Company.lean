import FleetEstimate.Coordinator
import FleetEstimate.Rehearsal.Ensemble

/-!
# Estimation over workers in one process

A company is an estimator with a fleet of workers that run in the same process. It
makes runs one after the other; its workers stay until it is disbanded.
-/

namespace FleetEstimate

structure Company (E : Type) where
  estimator : Estimator E
  fleet : Fleet (WorkerEnd E)
  world : Ensemble E

namespace Company

variable {E : Type} [Experiment E]

/-- Makes a company do something with its fleet. -/
def perform {α : Type} (act : FleetM (Ensemble E) (WorkerEnd E) α) (c : Company E) :
    Except FleetFault (α × Company E) :=
  match (act c.fleet).run c.world with
  | (.ok (a, fleet), world) => .ok (a, { c with fleet, world })
  | (.error f, _) => .error f

/-- A company whose one worker has joined. -/
def found (estimator : Estimator E) (config : WorkerConfig) : Except FleetFault (Company E) := do
  let c : Company E := ⟨estimator, .empty, .ofConfigs [config]⟩
  return (← c.perform (Fleet.waitForEvent true)).2

/-- A run that a fresh recorder follows. -/
def run (c : Company E) (recorder : Recorder) :
    Except FleetFault (Except EstimationError (Estimate Real64) × Company E) := do
  let c := { c with world.recorder := recorder }
  match ← c.perform c.estimator.estimateDistributed with
  | (.error e, c) => return (.error e, c)
  | (.ok (e, estimator), c) => return (.ok e, { c with estimator })

/-- The names of the members. -/
def names (c : Company E) : List String := c.fleet.members.entries.map fun p => p.2.name

/-- Ends the sessions of all members once they owe nothing. -/
def disband (c : Company E) : Except FleetFault (Company E) := do
  let c := { c with world.recorder := .new none false }
  return (← c.perform do Fleet.settle; Fleet.shutdown).2

end Company

end FleetEstimate
