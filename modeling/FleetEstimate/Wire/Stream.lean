import FleetEstimate.Wire.Link

/-!
# Recorded connections

A stream is a far end that says what it was given to say and records what it is
sent. It may take a limited number of bytes at a time and in all.
-/

namespace FleetEstimate

/-- How the incoming side of a stream goes on after its last piece. -/
inductive Ending
  | closed
  | failing (e : LinkError)
  /-- More may come. -/
  | waiting

structure Stream where
  /-- The pieces still to come. Empty ones are passed over. -/
  incoming : List Bytes
  ending : Ending
  /-- What was written, write by write. -/
  written : Array Bytes
  /-- The most bytes that one write takes, if there is a limit. -/
  maxWrite : Option Nat
  /-- How many bytes are taken before no more are, if there is a limit. -/
  room : Option Nat

namespace Stream

/-- A stream that says some pieces and takes everything. -/
def ofPieces (incoming : List Bytes) (ending : Ending) : Stream :=
  ⟨incoming, ending, #[], none, none⟩

/-- A stream that says some bytes, at most so many at a time. -/
def ofBytes (bytes : Bytes) (size : Option Nat) (ending : Ending) : Stream :=
  ofPieces (Bytes.pieces bytes (size.getD bytes.length)) ending

/-- The next piece. -/
def next (s : Stream) : Arrival × Stream :=
  match s.incoming.dropWhile List.isEmpty with
  | bytes :: rest => (.piece bytes, { s with incoming := rest })
  | [] =>
    let s := { s with incoming := [] }
    match s.ending with
    | .closed => (.piece [], s)
    | .failing e => (.failed e, s)
    | .waiting => (.nothing, s)

/-- The bytes that a write takes of those it is offered. -/
def taken (s : Stream) (bytes : Bytes) : Bytes :=
  let bytes := match s.maxWrite with
    | some n => bytes.take n
    | none => bytes
  match s.room with
  | some n => bytes.take n
  | none => bytes

/-- Takes as many bytes as it may. -/
def write (bytes : Bytes) (s : Stream) : Nat × Stream :=
  let taken := s.taken bytes
  (taken.length, { s with
    written := if taken.isEmpty then s.written else s.written.push taken
    room := s.room.map (· - taken.length) })

instance {ω : Type} : Remote ω Stream where
  write bytes s w := let (n, s) := s.write bytes; (.ok n, s, w)
  poll s := s.next
  await s w := let (a, s) := s.next; (a, s, w)
  close _ w := w

/-- An exchange over a recorded connection that nothing else goes on around. -/
def exchange {α : Type} (act : LinkM Unit Stream α) (l : Link Stream) :
    Except Halt α × Link Stream :=
  ((act.run.run l).run ()).1

/-- All bytes that were written. -/
def output (s : Stream) : Bytes := s.written.toList.flatten

/-- The bytes that an exchange sends before it reads anything. -/
def sentBy (act : LinkM Unit Stream Unit) : Bytes :=
  (exchange act (.new (ofPieces [] .closed))).2.remote.output

end Stream

end FleetEstimate
