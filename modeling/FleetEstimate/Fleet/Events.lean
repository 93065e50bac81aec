import FleetEstimate.Fleet.Basic

/-!
# Waiting for the fleet

A wait ends when a member can be read or is gone, when a connection asks to join,
or after some time. Whatever ended it, every member that has sent something is
`pending` afterwards, and every member that is gone without a last word is let go.
-/

namespace FleetEstimate

/-- What ended a wait. -/
inductive Event
  | timeout
  /-- A new member has joined. -/
  | connected (id : MemberId)
  /-- A member has sent something or is gone. -/
  | readable
deriving DecidableEq, Repr

namespace Member

variable {ω ρ : Type} [World ω ρ]

/-- Whether a member neither has sent anything nor is gone. -/
def isQuiet (ω : Type) [World ω ρ] (m : Member ρ) : Bool :=
  (m.link.readiness ω).1 == .quiet

/-- A member as it is after a look at its link: `pending` if it has sent something. -/
def looked (ω : Type) [World ω ρ] (m : Member ρ) : Member ρ :=
  let (readiness, link) := m.link.readiness ω
  { m with link, state := if readiness = .unread then .pending else m.state }

/-- Whether a member is gone without a last word. -/
def isGone (ω : Type) [World ω ρ] (m : Member ρ) : Bool :=
  (m.link.readiness ω).1 == .closed

end Member

namespace Fleet

variable {ω ρ : Type} [World ω ρ]

/-- Lets the far ends of some members act. -/
def act : List MemberId → FleetM ω ρ Unit
  | [] => return
  | id :: ids => do
    if let some m := (← getThe (Fleet ρ)).get? id then
      let (remote, world) := World.acting id m.link.remote (← getThe ω)
      set world
      modifyThe (Fleet ρ) fun f => f.modifyMember id fun m => { m with link.remote := remote }
    act ids

/-- Whether no member ends a wait. -/
def isQuiet (ω : Type) [World ω ρ] (f : Fleet ρ) : Bool :=
  f.members.entries.all fun p => Member.isQuiet ω p.2

/-- Takes up a connection that tells its name in time. -/
def greet (remote : ρ) : FleetM ω ρ (Option MemberId) := do
  let (result, link) ← runLink (do Link.sendTag .getName; Link.recvText) (Link.new remote)
  match result with
  | some (.ok name) =>
    let f ← getThe (Fleet ρ)
    set (f.track link name)
    return some f.members.next
  | _ =>
    modifyThe ω (Remote.close link.remote)
    return none

/-- Marks the members that have sent something and lets go of those that are gone. -/
def sweep : FleetM ω ρ Unit := do
  let gone := (← getThe (Fleet ρ)).members.entries.filter fun p => Member.isGone ω p.2
  modifyThe (Fleet ρ) fun f =>
    { f with members := f.members.mapEntries fun _ m => Member.looked ω m }
  gone.forM fun p => drop p.1

/-- Waits for an event; connections may join only if `accepting`. -/
def waitForEvent (accepting : Bool) : FleetM ω ρ Event := do
  modifyThe ω (World.waiting ρ accepting)
  -- what far ends send during the wait already ends it
  act (← getThe (Fleet ρ)).members.ids
  let quiet := (← getThe (Fleet ρ)).isQuiet ω
  let ending := if quiet then Event.timeout else Event.readable
  let event ←
    if accepting then do
      let (offered, world) := World.offer quiet (← getThe ω)
      set world
      match offered with
      | none => pure ending
      | some (.error _) => pure .timeout
      | some (.ok remote) =>
        match ← greet remote with
        | some id => pure (.connected id)
        | none => pure .timeout
    else pure ending
  -- whatever ended the wait, no member that can be read is missed
  sweep
  return event

end Fleet

end FleetEstimate
