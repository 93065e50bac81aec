import FleetEstimate.Estimator

/-!
# Recorded runs

A recorder is the plainest follower of a run: it keeps every report, and it can
raise the interrupt at one of them.
-/

namespace FleetEstimate

structure Recorder where
  reports : Array Report
  /-- The number of reports from which on the interrupt is raised, if it is. -/
  limit : Option Nat
  raised : Bool

namespace Recorder

def new (limit : Option Nat) (raised : Bool) : Recorder := ⟨#[], limit, raised⟩

/-- Keeps a report. -/
def add (w : Recorder) (r : Report) : Recorder :=
  { w with
    reports := w.reports.push r
    raised := w.raised || w.limit.any (· ≤ w.reports.size + 1) }

instance : Watch Recorder where
  report r w := w.add r
  interrupted w := w.raised

end Recorder

end FleetEstimate
