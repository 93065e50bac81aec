import FleetEstimate.Calls
import FleetEstimate.Wire.Stream
import FleetEstimate.WorkResult

/-!
# Scripted workers

A player stands in for a worker when a coordinator is rehearsed. It takes requests
like a worker and answers each one as soon as it is complete, but its answers come
from a script.
-/

namespace FleetEstimate

/-- A complete request, as a worker takes it. -/
inductive Request
  | name
  | busyTime
  | work
  | die
  | system (text : String)
  | parameter (value : Real64)
  /-- A call that no worker knows. -/
  | other (call : String)
deriving DecidableEq

/-- Receives a request with all that belongs to it. -/
def Request.recv {ω ρ : Type} [Remote ω ρ] : LinkM ω ρ Request := do
  match ← Link.recvTag with
  | .getName => return .name
  | .getCpuTime => return .busyTime
  | .die => return .die
  | .work =>
    let call ← Link.recvText
    if call = receiveSystemCall then return .system (← Link.recvText)
    else if call = receiveParameterCall then return .parameter (← Link.recvReal)
    else if call = workCall then return .work
    else return .other call

/-- What a player answers when it is handed work. -/
inductive Reply
  /-- A work result, by default for the system and the parameter it was given. Only
  the first bytes of it are sent before the connection is closed, if it is `cut`. -/
  | result (batch : Totals Real64) (digest : Option String) (parameter : Option Real64)
    (cut : Option Nat)
  | bytes (bytes : Bytes) (closing : Bool)
  | silence

/-- What a player answers. Of the answers to requests of one kind each is used once,
and the last one ever after. -/
structure Script where
  /-- The bytes of its name, if it tells a name. -/
  name : Option Bytes
  /-- Whether it closes the connection once it was asked for its name. -/
  closesOnName : Bool
  /-- Its busy times; `none` closes the connection instead. -/
  busy : List (Option Real64)
  replies : List Reply

structure Player where
  /-- The number by which the player is known. -/
  number : Nat
  script : Script
  /-- What it was sent and has not taken yet. -/
  link : Link Stream
  /-- What it has sent and the coordinator has not read yet. -/
  sent : Bytes
  closed : Bool
  /-- The text of the system it was given last. -/
  system : String
  parameter : Real64

namespace Player

/-- A player before its first request. -/
def new (number : Nat) (script : Script) (closed : Bool) : Player :=
  ⟨number, script, .new (.ofPieces [] .waiting), [], closed, "", 0⟩

/-- Sends some bytes. -/
def say (p : Player) (bytes : Bytes) : Player := { p with sent := p.sent ++ bytes }

def close (p : Player) : Player := { p with closed := true }

/-- The first of some answers and those that are left. -/
def turn {α : Type} (default : α) : List α → α × List α
  | [] => (default, [])
  | [a] => (a, [a])
  | a :: rest => (a, rest)

def reply (p : Player) : Reply → Player
  | .silence => p
  | .bytes bytes closing => if closing then (p.say bytes).close else p.say bytes
  | .result batch digest parameter cut =>
    let digest := digest.getD (Digest.of (Text.toBytes p.system)).toHex
    let bytes := Stream.sentBy (WorkResult.send ⟨digest, parameter.getD p.parameter, batch⟩)
    match cut with
    | none => p.say bytes
    | some n => (p.say (bytes.take n)).close

/-- Answers a request. -/
def answer (p : Player) : Request → Player
  | .name =>
    let p := match p.script.name with
      | some name => p.say (Bytes.bigEndian 8 name.length ++ name)
      | none => p
    if p.script.closesOnName then p.close else p
  | .busyTime =>
    let (time, busy) := turn (some 0) p.script.busy
    let p := { p with script.busy := busy }
    match time with
    | some time => p.say time.toBytes
    | none => p.close
  | .work =>
    let (r, replies) := turn .silence p.script.replies
    { p with script.replies := replies }.reply r
  | .die => p.close
  | .system text => { p with system := text }
  | .parameter value => { p with parameter := value }
  | .other _ => p

/-- Takes the requests that are complete, at most so many, and adds them to those
before, the last one first. What is no request closes the connection. -/
def takeRequests : (requests : Nat) → Player → List Request → Player × List Request
  | 0, p, taken => (p, taken)
  | requests + 1, p, taken =>
    if p.closed then (p, taken)
    else match Stream.exchange Request.recv p.link with
      | (.ok r, link) => takeRequests requests ({ p with link }.answer r) (r :: taken)
      | (.error .stalled, _) => (p, taken)
      | (.error (.failed _), _) => (p.close, taken)

/-- Takes some more bytes, and the requests that they complete. Each has at least one
byte. -/
def receive (p : Player) (bytes : Bytes) : Player × List Request :=
  let unread := p.link.unread ++ p.link.remote.incoming.flatten ++ bytes
  takeRequests (unread.length + 1) { p with link := .new (.ofPieces [unread] .waiting) } []

/-- What the coordinator can read. A closed connection still delivers what was sent. -/
def poll (p : Player) : Arrival × Player :=
  if p.sent ≠ [] then (.piece p.sent, { p with sent := [] })
  else if p.closed then (.piece [], p)
  else (.nothing, p)

end Player

end FleetEstimate
