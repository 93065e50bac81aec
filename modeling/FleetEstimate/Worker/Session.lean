import FleetEstimate.Calls
import FleetEstimate.Experiment
import FleetEstimate.Wire.Registry
import FleetEstimate.WorkResult

/-!
# Sessions of a worker

A session serves the requests of one coordinator over one link. It holds the system
it was given, if any, and the time it has spent sampling since it was last asked.
How far a work unit gets and which seed a fresh system starts from is up to an
outside world `ω`.
-/

namespace FleetEstimate

/-- A stretch of time in nanoseconds. -/
abbrev Nanoseconds := Nat

/-- A stretch of time in seconds. -/
def Nanoseconds.seconds (t : Nanoseconds) : Real64 :=
  .ofFloat ((t / 1000000000).toUInt64.toFloat + (t % 1000000000).toUInt64.toFloat / 1000000000.0)

/-- How a work unit went. -/
structure WorkSpan where
  /-- How many samples were drawn after the first one. -/
  further : Nat
  /-- How long it took. -/
  spent : Nanoseconds
deriving DecidableEq, Repr

/-- The outside world of a worker. -/
class WorkerWorld (ω : Type) where
  /-- A seed that nobody can foresee. -/
  freshSeed : ω → UInt64 × ω
  /-- How a work unit of the given length goes. -/
  span : (length : Nanoseconds) → ω → WorkSpan × ω
  /-- A worker's session has ended. -/
  ended : (name : String) → Except WorkerError Unit → ω → ω

/-- A session over a link to `ρ` with experiments of a type `E`. -/
structure Session (ρ E : Type) where
  link : Link ρ
  /-- The system with the digest of the text that it was rebuilt from. -/
  system : Option (E × Digest)
  /-- The time spent sampling since it was last told. -/
  busy : Nanoseconds

/-- What a session does for a request. -/
abbrev SessionM (ω ρ E : Type) := ExceptT Halt (StateT (Session ρ E) (StateM ω))

namespace Session

variable {ω ρ E : Type} [Remote ω ρ]

/-- A session before its first request. -/
def new (remote : ρ) : Session ρ E := ⟨.new remote, none, 0⟩

/-- Makes an exchange over the session's link. -/
def onLink {α : Type} (act : LinkM ω ρ α) : SessionM ω ρ E α := do
  let s ← getThe (Session ρ E)
  let ((result, link), world) := (act.run.run s.link).run (← getThe ω)
  set world
  set { s with link }
  MonadExcept.ofExcept result

/-- Ends the session from within a call, which can only fail like a link. -/
def fail {α : Type} (e : WorkerError) : SessionM ω ρ E α := throw (.failed (.ofWorker e))

variable [Experiment E] [WorkerWorld ω]

/-- Receives the text of a system and rebuilds it. -/
def receiveSystem : SessionM ω ρ E Unit := do
  let text ← onLink Link.recvText
  match Experiment.ofText text with
  | .ok e =>
    modifyThe (Session ρ E) fun s => { s with system := some (e, .of (Text.toBytes text)) }
  | .error e => fail (.invalidExperiment e)

/-- Reseeds the system, then receives its parameter. -/
def receiveParameter : SessionM ω ρ E Unit := do
  match (← getThe (Session ρ E)).system with
  | none => fail (.notInitialized receiveParameterCall)
  | some (e, digest) =>
    let (seed, world) := WorkerWorld.freshSeed (← getThe ω)
    set world
    -- the system is reseeded even if the parameter never comes
    let e := Experiment.seed seed e
    modifyThe (Session ρ E) fun s => { s with system := some (e, digest) }
    let parameter ← onLink Link.recvReal
    modifyThe (Session ρ E) fun s =>
      { s with system := some (Experiment.setParameter parameter e, digest) }

/-- Adds so many samples of an experiment to totals. -/
def sampleTimes : (times : Nat) → E → Totals Real64 → Except TotalsFault (Totals Real64 × E)
  | 0, e, t => .ok (t, e)
  | times + 1, e, t => do
    let (x, e) := Experiment.sample e
    sampleTimes times e (← t.accumulate x)

/-- Samples for a work unit, at least once, and replies with the totals. A work unit
without length gets one sample. -/
def work (length : Nanoseconds) : SessionM ω ρ E Unit := do
  match (← getThe (Session ρ E)).system with
  | none => fail (.notInitialized workCall)
  | some (e, digest) =>
    let (span, world) := WorkerWorld.span length (← getThe ω)
    set world
    let times := if length = 0 then 1 else span.further + 1
    match sampleTimes times e (.zero (Experiment.count e)) with
    | .error f => throw (.failed (.carrying .other (.text f.message)))
    | .ok (totals, e) =>
      modifyThe (Session ρ E) fun s =>
        { s with system := some (e, digest), busy := s.busy + span.spent }
      onLink (WorkResult.send (.new digest (Experiment.parameter e) totals))

/-- What a coordinator may call. -/
def calls (length : Nanoseconds) : Registry (SessionM ω ρ E Unit) :=
  ((Registry.empty.register receiveSystemCall receiveSystem).register
    receiveParameterCall receiveParameter).register workCall (work length)

end Session

end FleetEstimate
