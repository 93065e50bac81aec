import FleetEstimate.Wire.Stream
import FleetEstimate.Worker

/-!
# Workers at the far end of a link

A worker in the same process, as a coordinator sees it over its link. It serves a
request as soon as the request is complete. What it replies is under way first and
can be read once it has arrived; a coordinator that waits for it gets it in any
case. A worker whose session has ended closes the link behind its last reply.
-/

namespace FleetEstimate

/-- A worker at the far end of a link. -/
structure WorkerEnd (E : Type) where
  config : WorkerConfig
  /-- Its session, over the bytes that it was sent. -/
  session : Session Stream E
  /-- How its session has ended. -/
  exit : Option (Except WorkerError Unit)
  /-- Replies that have not arrived yet, the first to arrive first. -/
  underway : List Bytes
  /-- Replies that can be read. -/
  arrived : List Bytes

namespace WorkerEnd

variable {ω E : Type}

/-- A worker before its first request. -/
def new (config : WorkerConfig) : WorkerEnd E :=
  ⟨config, .new (.ofPieces [] .waiting), none, [], []⟩

/-- Lets the next replies arrive. -/
def deliver (e : WorkerEnd E) (pieces : Nat) : WorkerEnd E :=
  { e with underway := e.underway.drop pieces, arrived := e.arrived ++ e.underway.take pieces }

/-- Breaks the connection: of the replies under way only the first ones still arrive. -/
def disconnect (e : WorkerEnd E) (pieces : Nat) : WorkerEnd E :=
  { e with
    exit := e.exit.orElse fun _ => some (.ok ())
    underway := []
    arrived := e.arrived ++ e.underway.take pieces }

/-- The bytes that the worker has been sent and not read. -/
def backlog (e : WorkerEnd E) : Nat :=
  e.session.link.unread.length + e.session.link.remote.incoming.flatten.length

/-- The worker with some more input. -/
def sent (e : WorkerEnd E) (bytes : Bytes) (ending : Ending) : WorkerEnd E :=
  let stream := e.session.link.remote
  { e with session.link.remote :=
      { stream with incoming := stream.incoming ++ [bytes], ending } }

/-- What can be read without waiting. -/
def poll (e : WorkerEnd E) : Arrival × WorkerEnd E :=
  match e.arrived with
  | bytes :: rest => (.piece bytes, { e with arrived := rest })
  | [] => if e.exit.isSome && e.underway.isEmpty then (.piece [], e) else (.nothing, e)

/-- What comes next. -/
def await (e : WorkerEnd E) : Arrival × WorkerEnd E :=
  match e.arrived, e.underway with
  | bytes :: rest, _ => (.piece bytes, { e with arrived := rest })
  | [], bytes :: rest => (.piece bytes, { e with underway := rest })
  | [], [] => (if e.exit.isSome then .piece [] else .nothing, e)

variable [Experiment E] [WorkerWorld ω]

/-- Serves the requests that are complete. Each has at least one byte. -/
def run (e : WorkerEnd E) (w : ω) : WorkerEnd E × ω :=
  let (service, session, w) := Worker.serve e.config (e.backlog + 1) e.session w
  let stream := session.link.remote
  let e := { e with
    session := { session with link.remote := { stream with written := #[] } }
    underway := e.underway ++ stream.written.toList }
  match service with
  | .ends result => ({ e with exit := some result }, WorkerWorld.ended e.config.name result w)
  | _ => (e, w)

instance : Remote ω (WorkerEnd E) where
  write bytes e w :=
    if e.exit.isSome then (.error (.bare .brokenPipe), e, w)
    else
      let (e, w) := (e.sent bytes .waiting).run w
      (.ok bytes.length, e, w)
  poll := poll
  await e w := let (a, e) := e.await; (a, e, w)
  close e w := if e.exit.isSome then w else ((e.sent [] .closed).run w).2

end WorkerEnd

end FleetEstimate
