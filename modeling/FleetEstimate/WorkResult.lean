import FleetEstimate.Digest
import FleetEstimate.Totals
import FleetEstimate.Wire.Message

/-!
# Results of a work unit

A work result is the totals of one work unit, tagged with the digest of the system
text and the parameter that they were sampled at, so that the coordinator can tell
whether they belong to its run.
-/

namespace FleetEstimate

structure WorkResult where
  /-- The digest of the system text, as text. -/
  digest : String
  parameter : Real64
  batch : Totals Real64
deriving DecidableEq

namespace WorkResult

/-- The result with the totals of a work unit. -/
def new (digest : Digest) (parameter : Real64) (batch : Totals Real64) : WorkResult :=
  ⟨digest.toHex, parameter, batch⟩

/-- Whether a result was sampled from the system with this digest at this parameter. -/
def Matches (r : WorkResult) (digest : Digest) (parameter : Real64) : Prop :=
  (Digest.ofHex r.digest).toOption = some digest ∧ (r.parameter == parameter) = true

instance (r : WorkResult) (digest : Digest) (parameter : Real64) :
    Decidable (r.Matches digest parameter) :=
  inferInstanceAs (Decidable (_ ∧ _))

variable {ω ρ : Type} [Remote ω ρ]

def send (r : WorkResult) : LinkM ω ρ Unit := do
  Link.sendText r.digest
  Link.sendReal r.parameter
  Link.sendReals r.batch.sum
  Link.sendReals r.batch.sumSq
  Link.sendUInt64 r.batch.samples

def recv : LinkM ω ρ WorkResult := do
  let digest ← Link.recvText
  let parameter ← Link.recvReal
  let sum ← Link.recvReals
  let sumSq ← Link.recvReals
  let samples ← Link.recvUInt64
  return ⟨digest, parameter, ⟨sum, sumSq, samples⟩⟩

end WorkResult

end FleetEstimate
