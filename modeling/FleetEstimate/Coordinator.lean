import FleetEstimate.Calls
import FleetEstimate.Fleet.Settle

/-!
# Estimation over a fleet

A run gives every member the system and the parameter, then goes through passes: it
initializes fresh members, hands a work unit to idle ones, waits for an event, and
reads the results that have come. It ends with the first pass after which the
stopping rule holds or the interrupt is raised.
-/

namespace FleetEstimate

/-- What a member must have been given for its results to count. -/
structure Assignment where
  system : String
  digest : Digest
  parameter : Real64

/-- The assignment of an experiment. -/
def Assignment.of {E : Type} [Experiment E] (e : E) : Assignment :=
  let system := Experiment.toText e
  ⟨system, .of (Text.toBytes system), Experiment.parameter e⟩

/-- Gives the far end of a link the system and the parameter. -/
def Assignment.send {ω ρ : Type} [Remote ω ρ] (a : Assignment) : LinkM ω ρ Unit := do
  Link.call receiveSystemCall
  Link.sendText a.system
  Link.call receiveParameterCall
  Link.sendReal a.parameter

namespace Fleet

variable {ω ρ : Type} [World ω ρ]

/-- Gives a fresh member its assignment. -/
def assign (a : Assignment) (id : MemberId) : FleetM ω ρ Unit := do
  match ← exchange id a.send with
  | none => return
  | some (.ok ()) => markIdle id
  | some (.error _) => drop id

/-- Hands a work unit to an idle member. -/
def handWork (id : MemberId) : FleetM ω ρ Unit := do
  match ← exchange id (Link.call workCall) with
  | none => return
  | some (.ok ()) => markWorking id
  | some (.error _) => drop id

/-- Adds the totals of a result that belongs to the run; `none` if it does not. -/
def accept (a : Assignment) (totals : Totals Real64) (r : WorkResult) :
    Except TotalsFault (Option (Totals Real64)) :=
  if r.Matches a.digest a.parameter then totals.merge r.batch else .ok none

/-- Reads a result. If it belongs to the run, its totals are added and the member is
asked for its busy time; if not, the member has to be initialized again. Says whether
any result was added so far, and the totals. -/
def readResult (a : Assignment) (id : MemberId) (sofar : Bool × Totals Real64) :
    FleetM ω ρ (Bool × Totals Real64) := do
  match ← exchange id WorkResult.recv with
  | none => return sofar
  | some (.error _) =>
    drop id
    return sofar
  | some (.ok r) =>
    match accept a sofar.2 r with
    | .error f => throw (.totals f)
    | .ok none =>
      reset id
      return sofar
    | .ok (some totals) =>
      match ← updateBusyTime id with
      | .ok _ => markIdle id
      | .error _ => drop id
      return (true, totals)

/-- Reads every result that has come. -/
def readResults (a : Assignment) (totals : Totals Real64) : FleetM ω ρ (Bool × Totals Real64) :=
  handleAll .pending (readResult a) (false, totals)

/-- The time that members spent sampling over the time that has passed. -/
def speedup (f : Fleet ρ) (wall : Real64) : Real64 :=
  if 0 < wall then f.busyTimeUsed / wall else 0

end Fleet

namespace Estimator

variable {E : Type} [Experiment E] {ω ρ : Type} [World ω ρ]

/-- One pass. -/
def pass (a : Assignment) (s : Estimator E) : FleetM ω ρ (Estimator E) := do
  Fleet.handleAll .fresh (fun id () => Fleet.assign a id) ()
  Fleet.handleAll .idle (fun id () => Fleet.handWork id) ()
  -- a member that joins now is given its assignment in the next pass
  let _ ← Fleet.waitForEvent true
  let (added, totals) ← Fleet.readResults a s.totals
  let s := { s with totals }
  if added then
    let f ← getThe (Fleet ρ)
    let wall := World.elapsed ρ (← getThe ω)
    modifyThe ω (Watch.report (.ofEstimate s.evaluate (some f.size) (some (f.speedup wall))))
  return s

/-- Passes until the stopping rule holds or the interrupt is raised, at most so many
as there are counts. -/
def passUntilDone (a : Assignment) : (counts : Nat) → Estimator E →
    FleetM ω ρ (Estimate Real64 × Estimator E)
  | 0, _ => throw (.totals .countOverflow)
  | counts + 1, s => do
    let s ← s.pass a
    let e := s.evaluate
    if e.converged || Watch.interrupted (← getThe ω) then return (e, s)
    else passUntilDone a counts s

/-- A run over a fleet. The number of a pass has 64 bits. -/
def estimateDistributed (s : Estimator E) :
    FleetM ω ρ (Except EstimationError (Estimate Real64 × Estimator E)) := do
  match s.start with
  | .error e => return .error e
  | .ok s =>
    Fleet.settle
    Fleet.resetAll
    Fleet.resetBusyTime
    return .ok (← passUntilDone (.of s.experiment) (UInt64.size - 1) s)

end Estimator

end FleetEstimate
