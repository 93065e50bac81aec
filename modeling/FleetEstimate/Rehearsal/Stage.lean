import FleetEstimate.Fleet.Basic
import FleetEstimate.Recorder
import FleetEstimate.Rehearsal.Player

/-!
# Rehearsals of a coordinator

A stage is an outside world of a coordinator in which all workers are players and
no time passes. A connection is let in only while no member ends the wait, and the
interrupt may be raised when a certain wait begins.
-/

namespace FleetEstimate

structure Stage where
  recorder : Recorder
  /-- The connections that ask to join, or the failures to make one. -/
  door : List (Except LinkError Player)
  /-- The requests that players took, by their numbers, the last one first. -/
  requests : List (Nat × Request)
  /-- How many waits with an open door have begun. -/
  waits : Nat
  /-- The wait from whose beginning on the interrupt is raised, if it is. -/
  lastWait : Option Nat

namespace Stage

def empty : Stage := ⟨.new none false, [], [], 0, none⟩

/-- A player that asks to join, or the failure to make the connection. -/
def enqueue (w : Stage) (connection : Except LinkError Player) : Stage :=
  { w with door := w.door ++ [connection] }

/-- Makes ready for a run with a fresh interrupt. -/
def prepare (w : Stage) (recorder : Recorder) (lastWait : Option Nat) : Stage :=
  { w with recorder, waits := 0, lastWait }

def beginWait (w : Stage) : Stage :=
  let waits := w.waits + 1
  { w with
    waits
    recorder.raised := w.recorder.raised || w.lastWait.any (· ≤ waits) }

/-- The player takes what it is sent. -/
def write (bytes : Bytes) (p : Player) (w : Stage) : Except LinkError Nat × Player × Stage :=
  if p.closed then (.error (.bare .brokenPipe), p, w)
  else
    let (p, taken) := p.receive bytes
    (.ok bytes.length, p,
      { w with requests := taken.map (fun r => (p.number, r)) ++ w.requests })

instance : World Stage Player where
  report r w := { w with recorder := w.recorder.add r }
  interrupted w := w.recorder.raised
  write := write
  poll := Player.poll
  await p w := let (a, p) := p.poll; (a, p, w)
  close _ w := w
  waiting accepting w := if accepting then w.beginWait else w
  acting _ p w := (p, w)
  offer quiet w :=
    match quiet, w.door with
    | true, connection :: door => (some connection, { w with door })
    | _, _ => (none, w)
  elapsed _ := 1
  patience _ := 4

end Stage

end FleetEstimate
