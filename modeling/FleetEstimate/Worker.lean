import FleetEstimate.Worker.Session

/-!
# Workers

A worker serves a coordinator until it is told to end or the coordinator is gone
between two requests. Any other failure ends it with an error.
-/

namespace FleetEstimate

/-- How a worker goes to work. -/
structure WorkerConfig where
  /-- What it tells a coordinator as its name. -/
  name : String
  /-- How long it samples for a call; at least one sample is drawn. -/
  workUnit : Nanoseconds
deriving DecidableEq, Repr

/-- Half a second. -/
def defaultWorkUnit : Nanoseconds := 500000000

namespace WorkerConfig

/-- The configuration of a worker that was given no name, from the number of its
process. -/
def standard (process : Nat) : WorkerConfig := ⟨"worker-" ++ toString process, defaultWorkUnit⟩

def withName (c : WorkerConfig) (name : String) : WorkerConfig := { c with name }

def withWorkUnit (c : WorkerConfig) (workUnit : Nanoseconds) : WorkerConfig := { c with workUnit }

end WorkerConfig

/-- How the service of requests goes on after one. -/
inductive Service
  | goesOn
  | ends (result : Except WorkerError Unit)
  /-- The request is not complete yet. -/
  | stalled

namespace Worker

variable {ω ρ E : Type} [Remote ω ρ] [Experiment E] [WorkerWorld ω]

/-- Answers a request whose tag has been read; `false` if it is the last one. -/
def answer (c : WorkerConfig) : Tag → SessionM ω ρ E Bool
  | .getName => do
    Session.onLink (Link.sendText c.name)
    return true
  | .getCpuTime => do
    let busy := (← getThe (Session ρ E)).busy
    modifyThe (Session ρ E) fun s => { s with busy := 0 }
    Session.onLink (Link.sendReal busy.seconds)
    return true
  | .work => do
    let name ← Session.onLink Link.recvText
    match (Session.calls c.workUnit).find name with
    | .ok call =>
      call
      return true
    | .error e => Session.fail (.protocol e)
  | .die => return false

/-- The session and the world after an action, with its result. -/
def perform {α : Type} (act : SessionM ω ρ E α) (s : Session ρ E) (w : ω) :
    Except Halt α × Session ρ E × ω :=
  let ((result, s), w) := (act.run.run s).run w
  (result, s, w)

/-- Serves one request. The end of the stream in place of a tag ends the service well.
A request that is not complete yet leaves session and world as they were. -/
def serveOne (c : WorkerConfig) (s : Session ρ E) (w : ω) : Service × Session ρ E × ω :=
  match perform (Session.onLink Link.recvTag) s w with
  | (.error .stalled, _, _) => (.stalled, s, w)
  | (.error (.failed e), s', w') =>
    -- the end of the stream is told by its kind, wherever it came in place of a tag
    if e.kind = .unexpectedEof then (.ends (.ok ()), s', w')
    else (.ends (.error (.ofLink e)), s', w')
  | (.ok tag, s', w') =>
    match perform (answer c tag) s' w' with
    | (.error .stalled, _, _) => (.stalled, s, w)
    | (.error (.failed e), s'', w'') => (.ends (.error (.ofLink e)), s'', w'')
    | (.ok true, s'', w'') => (.goesOn, s'', w'')
    | (.ok false, s'', w'') => (.ends (.ok ()), s'', w'')

/-- Serves at most so many requests. -/
def serve (c : WorkerConfig) : (requests : Nat) → Session ρ E → ω → Service × Session ρ E × ω
  | 0, s, w => (.goesOn, s, w)
  | requests + 1, s, w =>
    match serveOne c s w with
    | (.goesOn, s, w) => serve c requests s w
    | done => done

end Worker

end FleetEstimate
