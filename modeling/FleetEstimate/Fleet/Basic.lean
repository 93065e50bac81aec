import FleetEstimate.Estimator
import FleetEstimate.Fleet.Roster
import FleetEstimate.Wire.Message

/-!
# Fleets of workers

A fleet holds the links of a coordinator to its workers. Each member has a name
that it told when it joined, the time that it says it spent sampling, and a state
in the cycle of work:

* `fresh`, until it has been given the current system;
* `idle`, ready for a work unit;
* `working` on a work unit;
* `pending`, once it has sent something that is not yet read.

What members do, and when, is up to an outside world `ω`.
-/

namespace FleetEstimate

/-- Where a member stands in the cycle of work. -/
inductive MemberState
  | fresh
  | pending
  | idle
  | working
deriving DecidableEq, Repr

def MemberState.name : MemberState → String
  | .fresh => "New"
  | .pending => "EventPending"
  | .idle => "Idle"
  | .working => "Working"

/-- The number that a member keeps for as long as its connection lasts. It has no upper bound,
as no coordinator lives to see 2^64 connections. -/
abbrev MemberId := Nat

/-- A member's number as messages show it. -/
def MemberId.display (id : MemberId) : String := "#" ++ toString id

structure Member (ρ : Type) where
  link : Link ρ
  state : MemberState
  name : String
  /-- The seconds that the member said it spent sampling. -/
  busyTime : Real64

/-- The members of a coordinator. -/
structure Fleet (ρ : Type) where
  members : Roster (Member ρ)
  /-- The seconds that members said they spent sampling since the last reset. -/
  busyTimeUsed : Real64

/-- What a coordinator cannot go on from. -/
inductive FleetFault
  /-- A member was to change into a state that does not follow its own. -/
  | illegalMove (id : MemberId) (source target : MemberState)
  /-- The coordinator waits for bytes that never come. -/
  | stalled
  | totals (f : TotalsFault)
deriving DecidableEq, Repr

def FleetFault.message : FleetFault → String
  | .illegalMove id source target =>
    "slave " ++ id.display ++ " cannot go from " ++ source.name ++ " to " ++ target.name
  | .stalled => "no byte will ever come"
  | .totals f => f.message

/-- The outside world of a coordinator: its members' far ends, the connections that
ask to join, the clock, and whatever follows a run. -/
class World (ω : Type) (ρ : Type) extends Watch ω, Remote ω ρ where
  /-- A wait begins, with or without an open door. -/
  waiting : (accepting : Bool) → ω → ω
  /-- What a member's far end does during a wait. -/
  acting : MemberId → ρ → ω → ρ × ω
  /-- The connection that ends a wait with an open door, or the failure to make it.
  `quiet` says that no member ends the wait. -/
  offer : (quiet : Bool) → ω → Option (Except LinkError ρ) × ω
  /-- The seconds since the start of the run. -/
  elapsed : ω → Real64
  /-- How many waits fit into the time that outstanding results are waited for. -/
  patience : ω → Nat

/-- What a coordinator does with its fleet. -/
abbrev FleetM (ω ρ : Type) := StateT (Fleet ρ) (ExceptT FleetFault (StateM ω))

namespace Fleet

variable {ω ρ : Type}

def empty : Fleet ρ := ⟨.empty, 0⟩

def size (f : Fleet ρ) : Nat := f.members.entries.length

def get? (f : Fleet ρ) (id : MemberId) : Option (Member ρ) := f.members.get? id

/-- The first member in a state. -/
def find? (f : Fleet ρ) (s : MemberState) : Option MemberId :=
  (f.members.entries.find? fun p => p.2.state == s).map (·.1)

/-- The members in a state, in order. -/
def idsIn (f : Fleet ρ) (s : MemberState) : List MemberId :=
  (f.members.entries.filter fun p => p.2.state == s).map (·.1)

/-- How many members are in a state. -/
def count (f : Fleet ρ) (s : MemberState) : Nat := (f.idsIn s).length

def anyWorking (f : Fleet ρ) : Bool := (f.find? .working).isSome

/-- Changes a member, if there is one with this number. -/
def modifyMember (f : Fleet ρ) (id : MemberId) (g : Member ρ → Member ρ) : Fleet ρ :=
  { f with members := f.members.modify id g }

/-- Takes up a connection whose name is known. -/
def track (f : Fleet ρ) (link : Link ρ) (name : String) : Fleet ρ :=
  { f with members := f.members.add ⟨link, .fresh, name, 0⟩ }

/-! ## States -/

/-- Takes a member to a state that may only follow some others. -/
def transition (id : MemberId) (target : MemberState) (sources : List MemberState) :
    FleetM ω ρ Unit := do
  match (← getThe (Fleet ρ)).get? id with
  | none => return
  | some m =>
    if m.state ∈ sources then
      modifyThe (Fleet ρ) fun f => f.modifyMember id fun m => { m with state := target }
    else throw (.illegalMove id m.state target)

/-- A member has the system or has delivered, and is ready for work. -/
def markIdle (id : MemberId) : FleetM ω ρ Unit := transition id .idle [.fresh, .pending]

/-- A ready member got a work unit. -/
def markWorking (id : MemberId) : FleetM ω ρ Unit := transition id .working [.idle]

/-- A member has to be given the system again. -/
def reset (id : MemberId) : FleetM ω ρ Unit :=
  modifyThe (Fleet ρ) fun f => f.modifyMember id fun m => { m with state := .fresh }

/-- All members have to be given the system again. -/
def resetAll : FleetM ω ρ Unit :=
  modifyThe (Fleet ρ) fun f =>
    { f with members := f.members.mapEntries fun _ m => { m with state := .fresh } }

def resetBusyTime : FleetM ω ρ Unit :=
  modifyThe (Fleet ρ) fun f => { f with busyTimeUsed := 0 }

/-! ## Exchanges -/

variable [Remote ω ρ]

/-- Takes up an established connection. -/
def insert (remote : ρ) (name : String) : FleetM ω ρ MemberId := do
  let f ← getThe (Fleet ρ)
  set (f.track (.new remote) name)
  return f.members.next

/-- Lets go of a member. -/
def drop (id : MemberId) : FleetM ω ρ Unit := do
  match (← getThe (Fleet ρ)).get? id with
  | none => return
  | some m =>
    modifyThe (Fleet ρ) fun f => { f with members := f.members.erase id }
    modifyThe ω (Remote.close m.link.remote)

/-- Runs an exchange over a link; `none` if it waits forever. -/
def runLink {α : Type} (act : LinkM ω ρ α) (link : Link ρ) :
    FleetM ω ρ (Option (Except LinkError α) × Link ρ) := do
  let ((result, link), world) := (act.run.run link).run (← getThe ω)
  set world
  match result with
  | .ok a => return (some (.ok a), link)
  | .error (.failed e) => return (some (.error e), link)
  | .error .stalled => return (none, link)

/-- Makes an exchange with a member; `none` if there is no such member. -/
def exchange {α : Type} (id : MemberId) (act : LinkM ω ρ α) :
    FleetM ω ρ (Option (Except LinkError α)) := do
  match (← getThe (Fleet ρ)).get? id with
  | none => return none
  | some m =>
    let (result, link) ← runLink act m.link
    modifyThe (Fleet ρ) fun f => f.modifyMember id fun m => { m with link }
    match result with
    | some r => return some r
    | none => throw .stalled

/-- The failure to find a member. -/
def notTracked (id : MemberId) : LinkError :=
  .carrying .notFound (.text ("slave " ++ id.display ++ " is not tracked"))

/-- Adds a busy time to a member's and to the fleet's. -/
def addBusyTime (f : Fleet ρ) (id : MemberId) (used : Real64) : Fleet ρ :=
  { f.modifyMember id (fun m => { m with busyTime := m.busyTime + used }) with
    busyTimeUsed := f.busyTimeUsed + used }

/-- Asks a member, which must not be working, for the time that it spent sampling
since it was last asked. -/
def updateBusyTime (id : MemberId) : FleetM ω ρ (Except LinkError Real64) := do
  match ← exchange id (do Link.sendTag .getCpuTime; Link.recvReal) with
  | none => return .error (notTracked id)
  | some (.error e) => return .error e
  | some (.ok used) =>
    modifyThe (Fleet ρ) fun f => f.addBusyTime id used
    return .ok used

/-- Tells the far end of a link to end its session, if it can be told, and gives the
link up. -/
def dismiss (link : Link ρ) : FleetM ω ρ Unit := do
  let (_, link) ← runLink (Link.sendTag .die) link
  modifyThe ω (Remote.close link.remote)

/-- Dismisses all members. -/
def shutdown : FleetM ω ρ Unit := do
  let members := (← getThe (Fleet ρ)).members
  modifyThe (Fleet ρ) fun f => { f with members := members.clear }
  members.entries.forM fun p => dismiss p.2.link

end Fleet

end FleetEstimate
