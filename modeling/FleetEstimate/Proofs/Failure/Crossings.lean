import Mathlib
import FleetEstimate.Failure

/-!
# Failures that cross a boundary

The handler of a call can only fail like a link. So the end of a session leaves it as a link
error, and what the link error carries is taken for the end of the session again. Every failure
crosses unchanged but one: a link error that itself carries the end of a session gives way to
what it carries. Each crossing takes one such layer off, so that after finitely many of them a
failure changes no more.
-/

namespace FleetEstimate

/-- Right below a link error there is a failure that ends a session by itself. -/
inductive LinkError.Carries : LinkError → WorkerError → Prop
  | protocol (kind : ErrorKind) (e : ProtocolError) :
      Carries (.carrying kind (.protocol e)) (.protocol e)
  | worker (kind : ErrorKind) (e : WorkerError) : Carries (.carrying kind (.worker e)) e

/-- The ends of a session that no boundary changes. What an unreadable system text is blamed on
may carry anything. -/
inductive WorkerError.Solid : WorkerError → Prop
  | protocol (e : ProtocolError) : Solid (.protocol e)
  | notInitialized (call : String) : Solid (.notInitialized call)
  | invalidExperiment (l : LinkError) : Solid (.invalidExperiment l)
  | link {l : LinkError} (h : ∀ e, ¬ l.Carries e) : Solid (.link l)

theorem LinkError.Carries.sizeOf_lt {l : LinkError} {e : WorkerError} (h : l.Carries e) :
    sizeOf e < sizeOf (WorkerError.link l) := by
  cases h with
  | protocol kind e =>
    simp
    omega
  | worker kind e =>
    simp
    omega

namespace WorkerError

variable {e : WorkerError} {l : LinkError}

theorem ofLink_of_carries (h : l.Carries e) : ofLink l = e := by
  cases h with
  | protocol kind e => rfl
  | worker kind e => rfl

theorem ofLink_of_not_carries (h : ∀ e, ¬ l.Carries e) : ofLink l = .link l := by
  cases l with
  | bare kind => rfl
  | platform kind message => rfl
  | carrying kind cause =>
    -- only the end of a session is looked for among the causes
    cases cause with
    | protocol e => exact absurd (.protocol kind e) (h _)
    | worker e => exact absurd (.worker kind e) (h _)
    | text message => rfl
    | earlyEnd => rfl
    | tooLong length limit => rfl
    | invalidText e => rfl
    | link e => rfl
    | foreign message causes => rfl

theorem solid_or_carries (e : WorkerError) : Solid e ∨ ∃ l e', e = .link l ∧ l.Carries e' := by
  cases e with
  | protocol e => exact .inl (.protocol e)
  | notInitialized call => exact .inl (.notInitialized call)
  | invalidExperiment l => exact .inl (.invalidExperiment l)
  | link l =>
    by_cases h : ∃ e', l.Carries e'
    · obtain ⟨e', he'⟩ := h
      exact .inr ⟨l, e', rfl, he'⟩
    · exact .inl (.link (not_exists.mp h))

/-! ## Crossings -/

/-- Out of a handler and back into the session. -/
def crossed (e : WorkerError) : WorkerError := .ofLink (.ofWorker e)

theorem Solid.crossed_eq (h : Solid e) : e.crossed = e := by
  cases h with
  | protocol e => rfl
  | notInitialized call => rfl
  | invalidExperiment l => rfl
  | link h => exact ofLink_of_not_carries h

/-- A crossing takes off the layer that carries. -/
theorem crossed_of_carries (h : l.Carries e) : (link l).crossed = e := ofLink_of_carries h

theorem Solid.crossings (h : Solid e) (n : ℕ) : crossed^[n] e = e :=
  Function.iterate_fixed h.crossed_eq n

/-- By recursion on the size of the failure, which every crossing lessens until it is solid. -/
theorem exists_solid (e : WorkerError) : ∃ n, Solid (crossed^[n] e) := by
  rcases solid_or_carries e with h | ⟨l, e', rfl, h⟩
  · exact ⟨0, h⟩
  · have hsize : sizeOf e' < sizeOf (link l) := h.sizeOf_lt
    obtain ⟨n, hn⟩ := exists_solid e'
    refine ⟨n + 1, ?_⟩
    rwa [Function.iterate_succ_apply, crossed_of_carries h]
termination_by sizeOf e

theorem solid_of_crossings (h : ∀ n, crossed^[n] e = e) : Solid e := by
  obtain ⟨n, hn⟩ := exists_solid e
  rwa [h n] at hn

/-- The end of a session survives any number of crossings, as the same error with the same cause
below it, unless it is a link error that carries the end of a session; for a link error this says
that its kind survives too. Any other error becomes such a one, and then stays it. A violation of
the protocol is recovered from the link error it is made into, and from one of any kind. -/
theorem crossings_keep (e : WorkerError) :
    ((∀ n, crossed^[n] e = e) ↔ Solid e) ∧
    (∃ n e', Solid e' ∧ ∀ m, n ≤ m → crossed^[m] e = e') ∧
    (∀ p, ofLink (.ofProtocol p) = .protocol p ∧
      ∀ kind, ofLink (.carrying kind (.protocol p)) = .protocol p) := by
  refine ⟨⟨solid_of_crossings, Solid.crossings⟩, ?settles, ?violation⟩
  case settles =>
    obtain ⟨n, hn⟩ := exists_solid e
    refine ⟨n, _, hn, ?_⟩
    intro m hm
    -- solid once, it is left as it is by all crossings behind
    obtain ⟨k, rfl⟩ := Nat.exists_eq_add_of_le' hm
    rw [Function.iterate_add_apply]
    exact hn.crossings k
  case violation =>
    intro p
    exact ⟨ofLink_of_carries (.protocol _ p), fun kind => ofLink_of_carries (.protocol kind p)⟩

example :
    crossed^[2] (.link (.carrying .other (.worker (.link (.carrying .other (.text "late")))))) =
      .link (.carrying .other (.text "late")) := rfl

end WorkerError

end FleetEstimate
