import FleetEstimate.Fleet.Events
import FleetEstimate.WorkResult

/-!
# Going through a fleet

`handleAll` handles the members in a state one after the other, the lowest number
first, until none is left in it. `settle` uses it to read the results that are
still owed, so that every link is quiet before the fleet is given another system or
dismissed.
-/

namespace FleetEstimate.Fleet

variable {ω ρ β : Type}

/-- Handles the first member in a state, again and again until there is none, at most
so many times. -/
def handleWithin (s : MemberState) (handle : MemberId → β → FleetM ω ρ β) :
    (times : Nat) → β → FleetM ω ρ β
  | 0, b => return b
  | times + 1, b => do
    match (← getThe (Fleet ρ)).find? s with
    | none => return b
    | some id => handleWithin s handle times (← handle id b)

/-- Handles every member in a state, which each handling has to take it out of. -/
def handleAll (s : MemberState) (handle : MemberId → β → FleetM ω ρ β) (b : β) :
    FleetM ω ρ β := do
  handleWithin s handle ((← getThe (Fleet ρ)).count s) b

variable [World ω ρ]

/-- Reads a result that nobody asks for any more, and the busy time that goes with
it. -/
def discardResult (id : MemberId) : FleetM ω ρ Unit := do
  match ← exchange id WorkResult.recv with
  | none => return
  | some (.error _) => drop id
  | some (.ok _) =>
    match ← updateBusyTime id with
    | .ok _ => markIdle id
    | .error _ => drop id

/-- Lets go of all members that are working. -/
def dropWorking : FleetM ω ρ Unit := do
  ((← getThe (Fleet ρ)).idsIn .working).forM drop

/-- Waits for the results that working members owe and discards them. Those still
working when the interrupt is raised, or after so many waits, are let go of. -/
def settleWithin : (waits : Nat) → FleetM ω ρ Unit
  | 0 => do
    if (← getThe (Fleet ρ)).anyWorking then dropWorking
  | waits + 1 => do
    if (← getThe (Fleet ρ)).anyWorking then
      if Watch.interrupted (← getThe ω) then dropWorking
      else
        let _ ← waitForEvent false
        handleAll .pending (fun id () => discardResult id) ()
        settleWithin waits

/-- Waits for outstanding results as long as the world has patience. -/
def settle : FleetM ω ρ Unit := do
  settleWithin (World.patience ρ (← getThe ω))

end FleetEstimate.Fleet
