import FleetEstimate.Scalar

/-!
# Running totals of result vectors

`Totals` holds, for each entry of a result vector, the sum and the sum of
squares over the samples so far. Totals only grow by addition: sample by sample
(`accumulate`) or by the totals of a whole batch (`merge`). An `Estimate` is what
totals say about the mean of each entry.
-/

namespace FleetEstimate

/-- Sums over all samples of a result vector. -/
structure Totals (α : Type) where
  sum : List α
  sumSq : List α
  samples : UInt64
deriving DecidableEq

/-- Why totals cannot be continued. -/
inductive TotalsFault
  /-- A sample has another dimension than the totals. -/
  | dimensionMismatch (sample totals : Nat)
  /-- The number of samples leaves 64 bits. -/
  | countOverflow
deriving DecidableEq, Repr

/-- The failure text of a fault. -/
def TotalsFault.message : TotalsFault → String
  | .dimensionMismatch sample totals =>
    "assertion `left == right` failed: sample dimension mismatch\n  left: " ++
      toString sample ++ "\n right: " ++ toString totals
  | .countOverflow => "attempt to add with overflow"

/-- The sum of two sample counts, unless it leaves 64 bits. -/
def addCounts (a b : UInt64) : Except TotalsFault UInt64 :=
  if a.toNat + b.toNat < UInt64.size then .ok (a + b) else .error .countOverflow

/-- What totals say about the mean of each entry of the result vector. -/
structure Estimate (α : Type) where
  /-- The means. -/
  result : List α
  /-- The relative half-widths of the confidence intervals around the means. -/
  tolerance : List α
  /-- The worst tolerance. -/
  accuracy : α
  samples : UInt64
  /-- Whether the stopping rule holds. -/
  converged : Bool
deriving DecidableEq

section

variable {α : Type} [Scalar α]

/-- The smallest mean. -/
def Estimate.worstMean (e : Estimate α) : α :=
  e.result.foldl Scalar.smaller Scalar.infinity

/-- The relative half-width of the confidence interval around a mean, from the sum
and the sum of squares of `n` samples. It says nothing, and is `none`, for fewer
than two samples and for a mean that is not above zero. The variance of the mean
is clamped at zero, below which only rounding can take it. -/
def tolerance? (sum sumSq : α) (n : UInt64) (multiplier : α) : Option α :=
  if n < 2 then none
  else
    let count := Scalar.ofCount n
    let mean := sum / count
    if mean ≤ 0 then none
    else
      let variance := Scalar.larger ((sumSq / count - mean * mean) / (count - 1)) 0
      some (multiplier * Scalar.sqrt variance / mean)

/-- The relative half-width, infinite while it says nothing. -/
def tolerance (sum sumSq : α) (n : UInt64) (multiplier : α) : α :=
  (tolerance? sum sumSq n multiplier).getD Scalar.infinity

namespace Totals

/-- The totals of no samples of dimension `count`. -/
def zero (count : Nat) : Totals α :=
  ⟨.replicate count 0, .replicate count 0, 0⟩

/-- The dimension of the samples. -/
def count (t : Totals α) : Nat := t.sum.length

/-- Adds one sample. -/
def accumulate (t : Totals α) (x : List α) : Except TotalsFault (Totals α) := do
  if x.length = t.count then
    let samples ← addCounts t.samples 1
    return {
      sum := t.sum.zipWith (· + ·) x
      sumSq := t.sumSq.zipWith (fun s v => s + v * v) x
      samples }
  else throw (.dimensionMismatch x.length t.count)

/-- Adds the totals of a batch; `none` if they are of another dimension. -/
def merge (t batch : Totals α) : Except TotalsFault (Option (Totals α)) := do
  if batch.sum.length = t.count ∧ batch.sumSq.length = t.count then
    let samples ← addCounts t.samples batch.samples
    return some {
      sum := t.sum.zipWith (· + ·) batch.sum
      sumSq := t.sumSq.zipWith (· + ·) batch.sumSq
      samples }
  else return none

/-- The mean of an entry with this sum, zero before the first sample. -/
def mean (t : Totals α) (sum : α) : α :=
  if 0 < t.samples then sum / Scalar.ofCount t.samples else 0

/-- The mean and tolerance of every entry. Whether a run may stop with them is for
the run to say. -/
def estimate (t : Totals α) (multiplier : α) : Estimate α :=
  let tolerances := t.sum.zipWith (fun s sq => tolerance s sq t.samples multiplier) t.sumSq
  { result := t.sum.zipWith (fun s _ => t.mean s) t.sumSq
    tolerance := tolerances
    accuracy := tolerances.foldl Scalar.larger 0
    samples := t.samples
    converged := false }

end Totals

end

end FleetEstimate
