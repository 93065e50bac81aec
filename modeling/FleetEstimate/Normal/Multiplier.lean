import FleetEstimate.Real64
import FleetEstimate.Normal.ErrorFunction

/-!
# How many standard deviations a confidence level spans

The multiplier of a confidence level `c` is the `z` with `tail z = (1 - c) / 2`,
so that a normal variable stays within `z` standard deviations of its mean with
probability `c`. It is found by the secant method from `0` and `1`.
-/

namespace FleetEstimate.Normal

/-- The probability that a standard normal variable exceeds `x`. -/
def tail (x : Real64) : Real64 :=
  .ofFloat (0.5 * erfc (x.toFloat / 1.4142135623730951))

section Secant

variable {α : Type} [Scalar α]

/-- Where the line through two points of a graph meets zero. -/
def chordRoot (x₀ f₀ x₁ f₁ : α) : α :=
  x₁ - f₁ * (x₁ - x₀) / (f₁ - f₀)

/-- At most `fuel` secant steps towards `f x = y` from two points whose distances
from `y` are `f₀` and `f₁`. Stops when the distances coincide, so that the chord
is level, or when a step is at most `eps` of the point it reaches. -/
def secantFrom (f : α → α) (y eps : α) : (fuel : Nat) → (x₀ f₀ x₁ f₁ : α) → α
  | 0, _, _, x₁, _ => x₁
  | fuel + 1, x₀, f₀, x₁, f₁ =>
    if f₁ == f₀ then x₁
    else
      let x₂ := chordRoot x₀ f₀ x₁ f₁
      if Scalar.abs (x₂ - x₁) ≤ eps * Scalar.larger (Scalar.abs x₂) 1 then x₂
      else secantFrom f y eps fuel x₁ f₁ x₂ (f x₂ - y)

/-- Solves `f x = y` by at most a thousand secant steps from `x₀` and `x₁`. -/
def secant (f : α → α) (y eps x₀ x₁ : α) : α :=
  secantFrom f y eps 1000 x₀ (f x₀ - y) x₁ (f x₁ - y)

end Secant

/-- The confidence levels that have a multiplier: strictly between one half and one. -/
def IsLevel (confidence : Real64) : Prop :=
  Real64.ofFloat 0.5 < confidence ∧ confidence < 1

instance (confidence : Real64) : Decidable (IsLevel confidence) :=
  inferInstanceAs (Decidable (_ ∧ _))

/-- The multiplier of a confidence level. -/
def multiplier? (confidence : Real64) : Option Real64 :=
  if IsLevel confidence then
    some (secant tail ((1 - confidence) / .ofFloat 2.0) (.ofFloat 1e-12) 0 1)
  else none

end FleetEstimate.Normal
