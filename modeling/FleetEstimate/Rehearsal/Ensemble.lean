import FleetEstimate.Fleet.Basic
import FleetEstimate.Recorder
import FleetEstimate.Worker.FarEnd

/-!
# A coordinator and its workers in one process

An ensemble is an outside world of a coordinator in which every member is a true
worker that runs in the same process. What is left to chance stands in lists, which
are used up from the front: how the next waits go, which seeds fresh systems start
from, how long work units take, and what the clock shows at the next reports. Where
a list is at its end, all replies arrive in every wait and everybody at the door
asks to join, every fresh system starts from the same seed, and no time passes.
-/

namespace FleetEstimate

/-- How a wait goes. -/
structure Spell where
  /-- How many of a worker's replies arrive, unless all do. -/
  arriving : Option Nat
  /-- Whether the first one at the door asks to join. -/
  joining : Bool
deriving DecidableEq, Repr

/-- A wait in which nothing is held up. -/
def Spell.clear : Spell := ⟨none, true⟩

structure Ensemble (E : Type) where
  recorder : Recorder
  /-- The workers that ask to join. -/
  door : List (WorkerEnd E)
  /-- How the sessions of workers have ended, by their names, the last one first. -/
  exits : List (String × Except WorkerError Unit)
  /-- How the last wait that has begun goes. -/
  current : Spell
  spells : List Spell
  seeds : List UInt64
  spans : List WorkSpan
  clock : List Real64

namespace Ensemble

variable {E : Type}

/-- Workers that have not joined yet. -/
def ofConfigs (configs : List WorkerConfig) : Ensemble E :=
  ⟨.new none false, configs.map .new, [], .clear, [], [], [], []⟩

/-- The next wait begins. -/
def beginWait (w : Ensemble E) : Ensemble E :=
  { w with current := w.spells.headD .clear, spells := w.spells.tail }

/-- What arrives of a worker's replies. -/
def deliverTo (w : Ensemble E) (e : WorkerEnd E) : WorkerEnd E :=
  e.deliver (w.current.arriving.getD e.underway.length)

/-- The first worker at the door, if it asks to join. It is let in at once. -/
def offer (w : Ensemble E) : Option (Except LinkError (WorkerEnd E)) × Ensemble E :=
  match w.current.joining, w.door with
  | true, e :: door => (some (.ok e), { w with door })
  | _, _ => (none, w)

instance : WorkerWorld (Ensemble E) where
  freshSeed w := (w.seeds.headD 0, { w with seeds := w.seeds.tail })
  span _ w := (w.spans.headD ⟨0, 0⟩, { w with spans := w.spans.tail })
  ended name result w := { w with exits := (name, result) :: w.exits }

instance [Experiment E] : World (Ensemble E) (WorkerEnd E) where
  report r w := { w with recorder := w.recorder.add r, clock := w.clock.tail }
  interrupted w := w.recorder.raised
  waiting _ w := w.beginWait
  acting _ e w := (w.deliverTo e, w)
  offer _ w := w.offer
  elapsed w := w.clock.headD 1
  patience _ := 4

end Ensemble

end FleetEstimate
