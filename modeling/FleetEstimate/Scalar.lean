/-!
# The numbers that statistics are computed with

Totals, tolerances and the search for the confidence multiplier use nothing of
their numbers but the operations of `Scalar`. A run uses `Real64`; the same
definitions over an exact field say what the formulas mean without rounding.
-/

namespace FleetEstimate

/-- The arithmetic of the statistics. The order may be partial: a comparison
with an undefined number is false, and `larger` ignores an undefined number. -/
class Scalar (α : Type) extends Zero α, One α, Add α, Sub α, Mul α, Div α, LE α, BEq α where
  /-- A sample count as a number. -/
  ofCount : UInt64 → α
  sqrt : α → α
  abs : α → α
  /-- The larger of two numbers; if one of them is undefined, the other. -/
  larger : α → α → α
  /-- The smaller of two numbers; if one of them is undefined, the other. -/
  smaller : α → α → α
  /-- Above every number. -/
  infinity : α
  decidableLe : DecidableLE α

instance Scalar.instDecidableLE {α : Type} [Scalar α] : DecidableLE α := Scalar.decidableLe

end FleetEstimate
