import FleetEstimate.Decimal.Written
import FleetEstimate.Totals
import FleetEstimate.Real64

/-!
# Progress of a run

A report is what a run shows of its progress. `ReportLog` turns reports into log
lines, at most one in half a second.
-/

namespace FleetEstimate

structure Report where
  samples : UInt64
  /-- The tolerance reached, in percent. -/
  percent : Real64
  /-- The smallest mean. -/
  mean : Real64
  /-- The number of workers, unless the run is within one process. -/
  workers : Option Nat
  /-- The time that workers spent sampling over the time that has passed. -/
  speedup : Option Real64
deriving DecidableEq

namespace Report

/-- A tolerance in percent, 99 while it says nothing. -/
def percentOf (accuracy : Real64) : Real64 :=
  if accuracy < 1 then .ofFloat 100.0 * accuracy else .ofFloat 99.0

/-- The report of an estimate. -/
def ofEstimate (e : Estimate Real64) (workers : Option Nat) (speedup : Option Real64) : Report where
  samples := e.samples
  percent := percentOf e.accuracy
  mean := e.worstMean
  workers := workers
  speedup := speedup

/-- The log line of a report. -/
def line (r : Report) : String :=
  let state := "pass " ++ toString r.samples.toNat ++ ", [" ++
    Decimal.scientific 3 r.mean.toFloat ++ " +/- " ++ Decimal.fixed 3 r.percent.toFloat ++ "%]"
  match r.workers, r.speedup with
  | some workers, some speedup =>
    toString workers ++ " clients, " ++ Decimal.fixed 3 speedup.toFloat ++ "x speedup, " ++ state
  | _, _ => "local, " ++ state

end Report

/-- The least time between two log lines, in milliseconds. -/
def logInterval : Nat := 500

/-- A log of reports; `last` is the time of the last line in milliseconds. -/
structure ReportLog where
  last : Option Nat
  lines : List String
deriving DecidableEq

namespace ReportLog

def empty : ReportLog := ⟨none, []⟩

/-- Logs a report that comes at the time `now`, unless the last line is too recent. -/
def report (log : ReportLog) (now : Nat) (r : Report) : ReportLog :=
  if log.last.any fun last => now - last < logInterval then log
  else ⟨some now, log.lines ++ ["INFO " ++ r.line]⟩

end ReportLog

end FleetEstimate
