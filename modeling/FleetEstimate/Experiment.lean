import FleetEstimate.Failure
import FleetEstimate.Random.Generator

/-!
# Experiments

An experiment is a stochastic system whose mean result is to be estimated. A
sample is a vector of `count` numbers; the operating parameter changes the system
between runs. The text of an experiment describes the system without parameter
and random state, so that another process can rebuild it.
-/

namespace FleetEstimate

class Experiment (E : Type) where
  /-- The dimension of a sample. -/
  count : E → Nat
  sample : E → List Real64 × E
  /-- Restarts the random source from a seed. -/
  seed : UInt64 → E → E
  parameter : E → Real64
  setParameter : Real64 → E → E
  toText : E → String
  /-- Rebuilds an experiment from its text. -/
  ofText : String → Except LinkError E
  description : E → String
  /-- A sample has as many entries as the experiment says. -/
  length_sample : ∀ e, (sample e).1.length = count e
  /-- Drawing a sample does not change the dimension. -/
  count_sample : ∀ e, count (sample e).2 = count e
  /-- Seeding does not change the dimension. -/
  count_seed : ∀ s e, count (seed s e) = count e

/-- Restarts the random source of an experiment from another random source. -/
def Experiment.seedFrom {E : Type} [Experiment E] (g : Random.Generator) (e : E) : E :=
  Experiment.seed g.doubleWord.1 e

end FleetEstimate
