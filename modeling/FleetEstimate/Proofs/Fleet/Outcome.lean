import Mathlib
import FleetEstimate.Fleet.Basic

/-!
# Outcomes of what a coordinator does

An action on a fleet either ends, with a value and a fleet, or breaks off with a
fault; in both cases it leaves a world. `Ends` and `Breaks` say which, and the
lemmas below take an action apart into its steps, so that nobody has to look into
the layers of `FleetM` again.
-/

namespace FleetEstimate.Fleet

variable {ω ρ α β : Type}

/-- Begun with the fleet `f` in the world `w`, an action ends with the value `a`. -/
def Ends (act : FleetM ω ρ α) (f : Fleet ρ) (w : ω) (a : α) (f' : Fleet ρ) (w' : ω) : Prop :=
  (act.run f).run w = (.ok (a, f'), w')

/-- Begun with the fleet `f` in the world `w`, an action breaks off with the fault `e`. -/
def Breaks (act : FleetM ω ρ α) (f : Fleet ρ) (w : ω) (e : FleetFault) (w' : ω) : Prop :=
  (act.run f).run w = (.error e, w')

variable {f f' g g' : Fleet ρ} {w w' v v' : ω}

theorem ends_or_breaks (act : FleetM ω ρ α) (f : Fleet ρ) (w : ω) :
    (∃ a f' w', Ends act f w a f' w') ∨ ∃ e w', Breaks act f w e w' := by
  unfold Ends Breaks
  rcases (act.run f).run w with ⟨e | ⟨a, f'⟩, w'⟩
  · right
    exact ⟨e, w', rfl⟩
  · left
    exact ⟨a, f', w', rfl⟩

/-- An action has one outcome. -/
theorem Ends.unique {act : FleetM ω ρ α} {a b : α} (h : Ends act f w a f' w')
    (h' : Ends act f w b g' v') : a = b ∧ f' = g' ∧ w' = v' := by
  unfold Ends at h h'
  rw [h] at h'
  cases h'
  exact ⟨rfl, rfl, rfl⟩

theorem Ends.not_breaks {act : FleetM ω ρ α} {a : α} {e : FleetFault} (h : Ends act f w a f' w') :
    ¬ Breaks act f w e v' := by
  intro h'
  unfold Ends at h
  unfold Breaks at h'
  rw [h] at h'
  cases h'

/-! ## Trying an action out -/

instance decidableEndsWith (act : FleetM ω ρ α) (f : Fleet ρ) (w : ω)
    (P : α → Fleet ρ → ω → Prop) [∀ a f' w', Decidable (P a f' w')] :
    Decidable (∃ a f' w', Ends act f w a f' w' ∧ P a f' w') :=
  match h : (act.run f).run w with
  | (.ok (a, f'), w') => decidable_of_iff (P a f' w') (by
      constructor
      · intro hp
        exact ⟨a, f', w', h, hp⟩
      · intro h
        rcases h with ⟨_, _, _, hends, hp⟩
        rcases Ends.unique h hends with ⟨rfl, rfl, rfl⟩
        exact hp)
  | (.error _, _) => .isFalse (by
      intro h
      rcases h with ⟨_, _, _, hends, -⟩
      exact hends.not_breaks h)

instance decidableBreaksWith (act : FleetM ω ρ α) (f : Fleet ρ) (w : ω)
    (P : FleetFault → ω → Prop) [∀ e w', Decidable (P e w')] :
    Decidable (∃ e w', Breaks act f w e w' ∧ P e w') :=
  match h : (act.run f).run w with
  | (.ok (_, _), _) => .isFalse (by
      intro h
      rcases h with ⟨_, _, hbreaks, -⟩
      exact Ends.not_breaks h hbreaks)
  | (.error e, w') => decidable_of_iff (P e w') (by
      constructor
      · intro hp
        exact ⟨e, w', h, hp⟩
      · intro h
        rcases h with ⟨_, _, hbreaks, hp⟩
        unfold Breaks at hbreaks
        rw [h] at hbreaks
        cases hbreaks
        exact hp)

/-! ## Steps that cannot break off -/

section Steps

variable {e : FleetFault}

/-- An action that comes to some outcome comes to no other. -/
theorem ends_iff_of_run {act : FleetM ω ρ α} {a b : α}
    (h : (act.run f).run w = (.ok (a, g), v)) :
    Ends act f w b f' w' ↔ a = b ∧ g = f' ∧ v = w' := by
  unfold Ends
  rw [h]
  constructor
  · intro heq
    cases heq
    exact ⟨rfl, rfl, rfl⟩
  · intro heq
    rcases heq with ⟨rfl, rfl, rfl⟩
    rfl

theorem not_breaks_of_run {act : FleetM ω ρ α} {a : α}
    (h : (act.run f).run w = (.ok (a, g), v)) : ¬ Breaks act f w e w' := by
  intro hbreaks
  unfold Breaks at hbreaks
  rw [h] at hbreaks
  cases hbreaks

@[simp] theorem ends_pure {a b : α} :
    Ends (pure a : FleetM ω ρ α) f w b f' w' ↔ a = b ∧ f = f' ∧ w = w' :=
  ends_iff_of_run rfl

@[simp] theorem not_breaks_pure {a : α} : ¬ Breaks (pure a : FleetM ω ρ α) f w e w' :=
  not_breaks_of_run rfl

@[simp] theorem ends_modifyFleet {change : Fleet ρ → Fleet ρ} {u : PUnit} :
    Ends (modifyThe (Fleet ρ) change : FleetM ω ρ PUnit) f w u f' w' ↔
      change f = f' ∧ w = w' := by
  rw [ends_iff_of_run rfl]
  exact and_iff_right rfl

@[simp] theorem not_breaks_modifyFleet {change : Fleet ρ → Fleet ρ} :
    ¬ Breaks (modifyThe (Fleet ρ) change : FleetM ω ρ PUnit) f w e w' :=
  not_breaks_of_run rfl

@[simp] theorem ends_modifyWorld {change : ω → ω} {u : PUnit} :
    Ends (modifyThe ω change : FleetM ω ρ PUnit) f w u f' w' ↔ f = f' ∧ change w = w' := by
  rw [ends_iff_of_run rfl]
  exact and_iff_right rfl

@[simp] theorem not_breaks_modifyWorld {change : ω → ω} :
    ¬ Breaks (modifyThe ω change : FleetM ω ρ PUnit) f w e w' :=
  not_breaks_of_run rfl

end Steps

/-! ## Faults, and one step after the other -/

section Sequences

variable {e e' : FleetFault}

@[simp] theorem not_ends_throw {a : α} : ¬ Ends (throw e : FleetM ω ρ α) f w a f' w' := by
  intro h
  cases h

@[simp] theorem breaks_throw :
    Breaks (throw e : FleetM ω ρ α) f w e' w' ↔ e = e' ∧ w = w' := by
  constructor
  · intro h
    cases h
    exact ⟨rfl, rfl⟩
  · intro h
    rcases h with ⟨rfl, rfl⟩
    rfl

theorem run_bind (act : FleetM ω ρ α) (next : α → FleetM ω ρ β) (f : Fleet ρ) (w : ω) :
    ((act >>= next).run f).run w = match (act.run f).run w with
      | (.ok (a, f'), w') => ((next a).run f').run w'
      | (.error e, w') => (.error e, w') := by
  simp only [StateT.run, ExceptT.run, bind, StateT.bind, ExceptT.bind, ExceptT.bindCont, ExceptT.mk]
  rcases act f w with ⟨_ | ⟨_, _⟩, _⟩ <;> rfl

theorem run_getFleet_bind (next : Fleet ρ → FleetM ω ρ β) (f : Fleet ρ) (w : ω) :
    ((getThe (Fleet ρ) >>= next).run f).run w = ((next f).run f).run w :=
  rfl

theorem run_getWorld_bind (next : ω → FleetM ω ρ β) (f : Fleet ρ) (w : ω) :
    ((getThe ω >>= next).run f).run w = ((next w).run f).run w :=
  rfl

/-- Actions that run alike are the same. -/
theorem fleetM_ext {act act' : FleetM ω ρ α}
    (h : ∀ f w, (act.run f).run w = (act'.run f).run w) : act = act' :=
  funext fun f => funext fun w => h f w

theorem run_bind_congr {act : FleetM ω ρ α} {next next' : α → FleetM ω ρ β} {f : Fleet ρ} {w : ω}
    (h : ∀ {x f' w'}, Ends act f w x f' w' →
      ((next x).run f').run w' = ((next' x).run f').run w') :
    ((act >>= next).run f).run w = ((act >>= next').run f).run w := by
  rw [run_bind, run_bind]
  rcases hrun : (act.run f).run w with ⟨e | ⟨x, f'⟩, w'⟩
  · rfl
  · exact h hrun

/-- A sequence ends if both of its parts do. -/
@[simp] theorem ends_bind {act : FleetM ω ρ α} {next : α → FleetM ω ρ β} {b : β} :
    Ends (act >>= next) f w b f' w' ↔
      ∃ a g v, Ends act f w a g v ∧ Ends (next a) g v b f' w' := by
  unfold Ends
  rw [run_bind]
  rcases (act.run f).run w with ⟨e | ⟨a, g⟩, v⟩
  · constructor
    · intro h
      cases h
    · intro h
      rcases h with ⟨_, _, _, h, _⟩
      cases h
  · constructor
    · intro h
      exact ⟨a, g, v, rfl, h⟩
    · intro h
      rcases h with ⟨_, _, _, h, h'⟩
      cases h
      exact h'

/-- A sequence breaks off in its first part, or in its second part once the first has
ended. -/
@[simp] theorem breaks_bind {act : FleetM ω ρ α} {next : α → FleetM ω ρ β} :
    Breaks (act >>= next) f w e w' ↔ Breaks act f w e w' ∨
      ∃ a g v, Ends act f w a g v ∧ Breaks (next a) g v e w' := by
  unfold Breaks Ends
  rw [run_bind]
  rcases (act.run f).run w with ⟨e₀ | ⟨a, g⟩, v⟩
  · constructor
    · intro h
      cases h
      exact .inl rfl
    · intro h
      rcases h with h | ⟨_, _, _, h, _⟩
      · cases h
        rfl
      · cases h
  · constructor
    · intro h
      exact .inr ⟨a, g, v, rfl, h⟩
    · intro h
      rcases h with h | ⟨_, _, _, h, h'⟩
      · cases h
      · cases h
        exact h'

/-- Once its first part has ended, a sequence goes on with its second part. -/
theorem ends_bind_of_ends {act : FleetM ω ρ α} {next : α → FleetM ω ρ β} {a : α} {b : β}
    (hfirst : Ends act f w a g v) :
    Ends (act >>= next) f w b f' w' ↔ Ends (next a) g v b f' w' := by
  unfold Ends at hfirst ⊢
  rw [run_bind, hfirst]

theorem breaks_bind_of_ends {act : FleetM ω ρ α} {next : α → FleetM ω ρ β} {a : α}
    (hfirst : Ends act f w a g v) :
    Breaks (act >>= next) f w e w' ↔ Breaks (next a) g v e w' := by
  unfold Ends at hfirst
  unfold Breaks
  rw [run_bind, hfirst]

end Sequences

/-! ## What comes after a step that cannot break off -/

section First

variable {b : β} {e : FleetFault}

theorem ends_getFleet_bind {next : Fleet ρ → FleetM ω ρ β} :
    Ends (getThe (Fleet ρ) >>= next) f w b f' w' ↔ Ends (next f) f w b f' w' :=
  ends_bind_of_ends rfl

theorem breaks_getFleet_bind {next : Fleet ρ → FleetM ω ρ β} :
    Breaks (getThe (Fleet ρ) >>= next) f w e w' ↔ Breaks (next f) f w e w' :=
  breaks_bind_of_ends rfl

theorem ends_getWorld_bind {next : ω → FleetM ω ρ β} :
    Ends (getThe ω >>= next) f w b f' w' ↔ Ends (next w) f w b f' w' :=
  ends_bind_of_ends rfl

theorem breaks_getWorld_bind {next : ω → FleetM ω ρ β} :
    Breaks (getThe ω >>= next) f w e w' ↔ Breaks (next w) f w e w' :=
  breaks_bind_of_ends rfl

theorem ends_modifyFleet_bind {change : Fleet ρ → Fleet ρ} {next : PUnit → FleetM ω ρ β} :
    Ends (modifyThe (Fleet ρ) change >>= next) f w b f' w' ↔
      Ends (next ⟨⟩) (change f) w b f' w' :=
  ends_bind_of_ends rfl

theorem breaks_modifyFleet_bind {change : Fleet ρ → Fleet ρ} {next : PUnit → FleetM ω ρ β} :
    Breaks (modifyThe (Fleet ρ) change >>= next) f w e w' ↔
      Breaks (next ⟨⟩) (change f) w e w' :=
  breaks_bind_of_ends rfl

theorem ends_modifyWorld_bind {change : ω → ω} {next : PUnit → FleetM ω ρ β} :
    Ends (modifyThe ω change >>= next) f w b f' w' ↔ Ends (next ⟨⟩) f (change w) b f' w' :=
  ends_bind_of_ends rfl

theorem breaks_modifyWorld_bind {change : ω → ω} {next : PUnit → FleetM ω ρ β} :
    Breaks (modifyThe ω change >>= next) f w e w' ↔ Breaks (next ⟨⟩) f (change w) e w' :=
  breaks_bind_of_ends rfl

theorem ends_setFleet_bind {next : PUnit → FleetM ω ρ β} :
    Ends (set g >>= next) f w b f' w' ↔ Ends (next ⟨⟩) g w b f' w' :=
  ends_bind_of_ends rfl

theorem breaks_setFleet_bind {next : PUnit → FleetM ω ρ β} :
    Breaks (set g >>= next) f w e w' ↔ Breaks (next ⟨⟩) g w e w' :=
  breaks_bind_of_ends rfl

theorem ends_setWorld_bind {next : PUnit → FleetM ω ρ β} :
    Ends (set v >>= next) f w b f' w' ↔ Ends (next ⟨⟩) f v b f' w' :=
  ends_bind_of_ends rfl

theorem breaks_setWorld_bind {next : PUnit → FleetM ω ρ β} :
    Breaks (set v >>= next) f w e w' ↔ Breaks (next ⟨⟩) f v e w' :=
  breaks_bind_of_ends rfl

end First

end FleetEstimate.Fleet
