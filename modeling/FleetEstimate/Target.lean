import FleetEstimate.Failure
import FleetEstimate.Normal.Multiplier
import FleetEstimate.Totals

/-!
# When a run may stop

A target is the relative tolerance to reach, the confidence of that tolerance,
and the least number of samples before either is believed.
-/

namespace FleetEstimate

/-- The samples without which no run counts as converged. -/
def leastSamples : UInt64 := 128

structure Target where
  accuracy : Real64
  confidence : Real64
  minSamples : UInt64
deriving DecidableEq

/-- The tolerances that can be asked for: strictly between zero and one. -/
def IsAccuracy (accuracy : Real64) : Prop := 0 < accuracy ∧ accuracy < 1

instance (accuracy : Real64) : Decidable (IsAccuracy accuracy) :=
  inferInstanceAs (Decidable (_ ∧ _))

/-- The multiplier of a confidence level. -/
def multiplierOf (confidence : Real64) : Except EstimationError Real64 :=
  match Normal.multiplier? confidence with
  | some z => .ok z
  | none => .error (.invalidConfidence confidence)

namespace Target

/-- Ten percent at a confidence of 95 percent. -/
def standard : Target where
  accuracy := .ofFloat 0.10
  confidence := .ofFloat 0.95
  minSamples := leastSamples

def withAccuracy (t : Target) (accuracy : Real64) : Except EstimationError Target :=
  if IsAccuracy accuracy then .ok { t with accuracy } else .error (.invalidAccuracy accuracy)

def withConfidence (t : Target) (confidence : Real64) : Except EstimationError Target := do
  let _ ← multiplierOf confidence
  return { t with confidence }

/-- The target with this tolerance and confidence; the tolerance is judged first. -/
def new (accuracy confidence : Real64) : Except EstimationError Target := do
  (← standard.withAccuracy accuracy).withConfidence confidence

/-- The stopping rule: the worst tolerance is within the target, and there are enough
samples. -/
def IsMet (t : Target) (e : Estimate Real64) : Prop :=
  e.accuracy ≤ t.accuracy ∧ t.minSamples ≤ e.samples

instance (t : Target) (e : Estimate Real64) : Decidable (t.IsMet e) :=
  inferInstanceAs (Decidable (_ ∧ _))

end Target

end FleetEstimate
