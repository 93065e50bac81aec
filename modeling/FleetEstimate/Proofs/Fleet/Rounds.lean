import FleetEstimate.Proofs.Fleet.Passes
import FleetEstimate.Proofs.Fleet.Settlement
import FleetEstimate.Proofs.Wire.Messages

/-!
# The rounds of a coordinator

A pass goes through those who are fresh, those who are idle and those whose results have come, and
a settlement through the last of these again and again. Each of these rounds handles its members
one after the other, and takes every one of them out of the state that it goes through. So none
of them asks for a move that the state of its member does not allow, and neither does a run.
-/

namespace FleetEstimate

namespace Estimator

open Fleet

variable {E ω ρ : Type} [Experiment E] [World ω ρ]
variable {a : Assignment} {s : Estimator E} {f : Fleet ρ} {w w' : ω} {e : FleetFault}

omit [Experiment E] in
theorem breaks_passUntilDone {counts : ℕ} (h : Breaks (s.passUntilDone a counts) f w e w') :
    e = .stalled ∨ e = .totals .countOverflow := by
  induction counts generalizing s f w with
  | zero =>
    rcases breaks_throw.1 h with ⟨rfl, -⟩
    -- the passes cannot be counted
    exact .inr rfl
  | succ counts ih =>
    rw [passUntilDone] at h
    rcases breaks_bind.1 h with hpass | ⟨t, g, v, -, hrest⟩
    · -- a pass that breaks off without waiting forever has overflowed
      by_cases he : e = .stalled
      · exact .inl he
      · exact .inr (breaks_pass_iff.1 ⟨hpass, he⟩).1
    · rw [breaks_getWorld_bind] at hrest
      split at hrest
      · exact absurd hrest not_breaks_pure
      · exact ih hrest

/-- A run breaks off only by waiting forever or by leaving 64 bits. -/
theorem breaks_estimateDistributed (h : Breaks s.estimateDistributed f w e w') :
    e = .stalled ∨ e = .totals .countOverflow := by
  unfold estimateDistributed at h
  cases hstart : s.start with
  | error err =>
    rw [hstart] at h
    exact absurd h not_breaks_pure
  -- only the settlement and the passes can break off
  | ok s₀ =>
    rw [hstart] at h
    rcases breaks_bind.1 h with hsettle | ⟨_, f₁, w₁, -, h⟩
    · exact .inl (breaks_settleWithin (breaks_settle.1 hsettle)).1
    rcases breaks_bind.1 h with hreset | ⟨_, f₂, w₂, -, h⟩
    · exact absurd hreset not_breaks_modifyFleet
    rcases breaks_bind.1 h with htime | ⟨_, f₃, w₃, -, h⟩
    · exact absurd htime not_breaks_modifyFleet
    rcases breaks_bind.1 h with hpasses | ⟨_, _, _, -, h⟩
    · exact breaks_passUntilDone hpasses
    · exact absurd h not_breaks_pure

end Estimator

namespace Fleet

open Estimator (boastful ones)

/-- Nobody has to wait for an assignment to be sent. -/
theorem prompt_send {ω ρ : Type} [Remote ω ρ] (a : Assignment) :
    Prompt (a.send : LinkM ω ρ Unit) := by
  refine (Link.prompt_call receiveSystemCall).bind fun _ => ?_
  refine (Link.prompt_sendText a.system).bind fun _ => ?_
  exact (Link.prompt_call receiveParameterCall).bind fun _ => prompt_writeAll _

/-- Every round goes through its state in the order of the members. Each of them comes to its
fate once, which takes it out of the state or out of the fleet, and nobody is left; all others are
what they were. Whoever has only to be told something never keeps a round from its end, and a
round that reads results breaks off only at a link that neither delivers nor closes, or at a result
that takes the count of samples out of 64 bits. No member is ever asked for a move that does not
follow its state. -/
theorem rounds_in_order (ω ρ : Type) [World ω ρ] :
    (∀ a, GoesThrough .fresh (fun id () => assign (ω := ω) (ρ := ρ) a id) (Telling a.send .idle)
        Unhindered) ∧
      GoesThrough .idle (fun id () => handWork (ω := ω) (ρ := ρ) id)
        (Telling (Link.call workCall) .working) Unhindered ∧
      (∀ a, GoesThrough .pending (readResult (ω := ω) (ρ := ρ) a) (Reading a) (Unread a)) ∧
      GoesThrough .pending (fun id () => discardResult (ω := ω) (ρ := ρ) id) Discarding
        Undiscarded ∧
      (∀ (f : Fleet ρ) (w : ω) e w', Breaks settle f w e w' → e = .stalled) ∧
      ∀ (E : Type) [Experiment E] (s : Estimator E) (f : Fleet ρ) (w : ω) e w',
        Breaks s.estimateDistributed f w e w' → e = .stalled ∨ e = .totals .countOverflow := by
  refine ⟨fun a => ?_, ?_, fun a => decides_readResult.goesThrough,
    decides_discardResult.goesThrough, fun f w e w' h => ?_, fun E _ s f w e w' h => ?_⟩
  · -- the two rounds that only tell something: nobody waits for that
    rw [assign_eq_tell]
    exact (decides_tell (prompt_send a) (by decide) (by decide)).goesThrough
  · rw [handWork_eq_tell]
    exact (decides_tell (Link.prompt_call workCall) (by decide) (by decide)).goesThrough
  · exact (breaks_settleWithin (breaks_settle.1 h)).1
  · exact Estimator.breaks_estimateDistributed h

/-- Two workers that claim to have drawn as many samples as can be counted have replied. -/
def crowded : FleetM Stage Player Unit := do
  let _ ← insert boastful "first"
  let _ ← insert boastful "second"
  let _ ← getReady (.of ones)

/-- The reply of the second one breaks the round off, with that member still `pending`. -/
theorem overflow_within_round :
    ∃ u f w, Ends crowded Fleet.empty Stage.empty u f w ∧ f.idsIn .pending = [0, 1] ∧
      ∃ e w', Breaks (readResults (.of ones) (.zero 1)) f w e w' ∧
        e = .totals .countOverflow := by
  decide +kernel

end Fleet

end FleetEstimate
