import Mathlib
import FleetEstimate.Proofs.Settings.Lists

/-!
# Checks of an environment

The variables of an environment are checked one after another, some of them twice: first
whether the text is read at all, later whether the value is in range. Only a variable that is
set can be found wrong. An answer that is put together from several steps fails with the fault
of the first check that finds one, whatever the others would find, where each step does so for
the checks that it makes.
-/

namespace FleetEstimate.Settings

open Decimal (NumberError)

/-! ## Checks -/

inductive Check
  | endpoint
  | accuracy
  | confidence
  | accuracyRange
  | confidenceRange
  | parameters
  | parametersRange
  | blockSize
  | workUnit
deriving DecidableEq

/-- The order in which the checks are made. -/
def Check.order : List Check :=
  [.endpoint, .accuracy, .confidence, .accuracyRange, .confidenceRange, .parameters,
    .parametersRange, .blockSize, .workUnit]

/-- The variable that is checked. -/
def Check.key : Check → String
  | .endpoint => "ENDPOINT"
  | .accuracy | .accuracyRange => "ACCURACY"
  | .confidence | .confidenceRange => "CONFIDENCE"
  | .parameters | .parametersRange => "PARAMETERS"
  | .blockSize => "BLOCK_SIZE"
  | .workUnit => "WORK_UNIT_MS"

/-- Reads a number of milliseconds. -/
def readMillis (text : String) : Except NumberError UInt64 :=
  (Decimal.readNat maxUInt64 text).map UInt64.ofNat

/-- The text of a variable is not read. -/
def Malformed {α ε : Type} (read : String → Except ε α) (fault : ε → SettingsError)
    (text : String) (e : SettingsError) : Prop :=
  ∃ e', Refused read text e' ∧ e = fault e'

/-- The text of a variable is read as a number out of its range. -/
def OutOfRange (range : Real64 → Prop) (refusal : Real64 → EstimationError) (text : String)
    (e : SettingsError) : Prop :=
  ∃ x, Denotes readReal text x ∧ ¬ range x ∧ e = .target (refusal x)

/-- What a check finds wrong with the text of its variable. -/
def Check.Finds : Check → String → SettingsError → Prop
  | .endpoint, text, e => Malformed Endpoint.ofText (.endpoint text) text e
  | .accuracy, text, e => Malformed readReal (.number "ACCURACY" text) text e
  | .confidence, text, e => Malformed readReal (.number "CONFIDENCE" text) text e
  | .accuracyRange, text, e => OutOfRange IsAccuracy .invalidAccuracy text e
  | .confidenceRange, text, e => OutOfRange Normal.IsLevel .invalidConfidence text e
  | .parameters, text, e => ∃ e', NotNumbers text e' ∧ e = .parameter e'
  | .parametersRange, text, e =>
    ∃ xs, Numbers text xs ∧ (∃ x ∈ xs, x.isFinite = false) ∧ e = .notFinite text
  | .blockSize, text, e => Malformed readBlockSize (.number "BLOCK_SIZE" text) text e
  | .workUnit, text, e => Malformed readMillis (.number "WORK_UNIT_MS" text) text e

/-- A variable that is set is found wrong. -/
def Faulty (lookup : String → Option String) (c : Check) (e : SettingsError) : Prop :=
  ∃ text, lookup c.key = some text ∧ c.Finds text e

/-- The error is that of the first of these checks that finds a fault. -/
def IsFirst (lookup : String → Option String) (checks : List Check) (e : SettingsError) : Prop :=
  ∃ before c after, checks = before ++ c :: after ∧ Faulty lookup c e ∧
    ∀ c' ∈ before, ∀ e', ¬ Faulty lookup c' e'

variable {lookup : String → Option String} {c : Check} {cs cs' : List Check} {e : SettingsError}

theorem not_isFirst_nil : ¬ IsFirst lookup [] e := by
  simp [IsFirst]

theorem isFirst_cons_iff :
    IsFirst lookup (c :: cs) e ↔
      Faulty lookup c e ∨ (∀ e', ¬ Faulty lookup c e') ∧ IsFirst lookup cs e :=
  first_cons_iff

theorem isFirst_singleton_iff : IsFirst lookup [c] e ↔ Faulty lookup c e := by
  simp [isFirst_cons_iff, not_isFirst_nil]

theorem isFirst_append_iff :
    IsFirst lookup (cs ++ cs') e ↔
      IsFirst lookup cs e ∨ (∀ c ∈ cs, ∀ e', ¬ Faulty lookup c e') ∧ IsFirst lookup cs' e := by
  induction cs with
  | nil => simp [not_isFirst_nil]
  | cons c cs ih =>
    rw [List.cons_append, isFirst_cons_iff, isFirst_cons_iff, ih, List.forall_mem_cons]
    tauto

/-- Where some check finds a fault, one of them is the first. -/
theorem exists_isFirst_iff :
    (∃ e, IsFirst lookup cs e) ↔ ∃ c ∈ cs, ∃ e, Faulty lookup c e := by
  induction cs with
  | nil => simp [not_isFirst_nil]
  | cons c cs ih =>
    simp only [isFirst_cons_iff, List.exists_mem_cons_iff, ← ih, exists_or, exists_and_left]
    by_cases hc : ∃ e, Faulty lookup c e
    · simp [hc]
    · simp [not_exists.mp hc]

/-! ## Answers -/

/-- The answer fails with the fault that comes first among the checks, and where no check
finds one it has the property. -/
structure Answers {α : Type} (lookup : String → Option String) (cs : List Check)
    (answer : Except SettingsError α) (P : α → Prop) : Prop where
  error_iff : ∀ e, answer = .error e ↔ IsFirst lookup cs e
  ok : ∀ x, answer = .ok x → P x

namespace Answers

variable {α β : Type} {P : α → Prop} {Q : β → Prop} {answer : Except SettingsError α} {x : α}

theorem of_ok (h : P x) : Answers lookup [] (.ok x) P where
  error_iff e := by simp [not_isFirst_nil]
  ok y hy := by
    cases hy
    exact h

theorem of_faulty (herror : ∀ e, answer = .error e ↔ Faulty lookup c e)
    (hok : ∀ x, answer = .ok x → P x) : Answers lookup [c] answer P where
  error_iff e := by rw [isFirst_singleton_iff, herror]
  ok := hok

theorem mono {P' : α → Prop} (h : Answers lookup cs answer P) (hmono : ∀ x, P x → P' x) :
    Answers lookup cs answer P' where
  error_iff := h.error_iff
  ok x hx := hmono x (h.ok x hx)

/-- The checks of what follows come behind those of what was read first. -/
theorem bind {next : α → Except SettingsError β} (h : Answers lookup cs answer P)
    (hnext : ∀ x, P x → Answers lookup cs' (next x) Q) :
    Answers lookup (cs ++ cs') (answer >>= next) Q := by
  cases answer with
  | error e₀ =>
    have hfirst : IsFirst lookup cs e₀ := (h.error_iff e₀).mp rfl
    -- a first fault is found already, so that of the rest does not matter
    have hfaulty : ¬ ∀ c ∈ cs, ∀ e', ¬ Faulty lookup c e' := by
      obtain ⟨c, hc, e', he'⟩ := exists_isFirst_iff.mp ⟨e₀, hfirst⟩
      exact fun hclear => hclear c hc e' he'
    constructor
    · intro e
      rw [isFirst_append_iff, ← h.error_iff e]
      simp [hfaulty, Bind.bind, Except.bind]
    · rintro y ⟨⟩
  | ok x =>
    have hnone : ∀ e, ¬ IsFirst lookup cs e := by
      intro e he
      cases (h.error_iff e).mpr he
    -- nothing is faulty so far, so the first fault is that of the rest
    have hclear : ∀ c ∈ cs, ∀ e', ¬ Faulty lookup c e' := by
      intro c hc e' he'
      obtain ⟨e, he⟩ := exists_isFirst_iff.mpr ⟨c, hc, e', he'⟩
      exact hnone e he
    have hx := hnext x (h.ok x rfl)
    constructor
    · intro e
      rw [isFirst_append_iff, ← hx.error_iff e, or_iff_right (hnone e), and_iff_right hclear]
      rfl
    · exact hx.ok

end Answers

end FleetEstimate.Settings
