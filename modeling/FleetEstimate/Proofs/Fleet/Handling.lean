import FleetEstimate.Fleet.Settle
import FleetEstimate.Proofs.Fleet.Operations

/-!
# Going through a state

`handleAll` handles the first member in a state again and again. `Handling` is the
relation between what it begins with and what it has reached after some members. A
property that every handling preserves holds of everything reached; and if every
handling makes the state smaller, nobody is left in it at the end.
-/

namespace FleetEstimate.Fleet

variable {ω ρ β : Type} {s : MemberState} {handle : MemberId → β → FleetM ω ρ β}
variable {b b' : β} {f f' : Fleet ρ} {w w' : ω} {e : FleetFault}

/-- What is reached by handling the first member in a state any number of times. -/
inductive Handling (s : MemberState) (handle : MemberId → β → FleetM ω ρ β) (b : β) (f : Fleet ρ)
    (w : ω) : β → Fleet ρ → ω → Prop
  | none : Handling s handle b f w b f w
  | more {id c g v c' g' v'} (sofar : Handling s handle b f w c g v)
      (first : g.find? s = some id) (step : Ends (handle id c) g v c' g' v') :
      Handling s handle b f w c' g' v'

/-- The first handling may be told apart from the others. -/
theorem Handling.cons {id : MemberId} {c c' : β} {g g' : Fleet ρ} {v v' : ω}
    (first : f.find? s = some id) (step : Ends (handle id b) f w c g v)
    (rest : Handling s handle c g v c' g' v') : Handling s handle b f w c' g' v' := by
  induction rest with
  | none => exact .more .none first step
  | more _ first' step' ih => exact .more ih first' step'

theorem ends_handleWithin {n : ℕ} (h : Ends (handleWithin s handle n b) f w b' f' w') :
    Handling s handle b f w b' f' w' := by
  induction n generalizing b f w with
  | zero =>
    simp only [handleWithin, ends_pure] at h
    rcases h with ⟨rfl, rfl, rfl⟩
    exact .none
  | succ n ih =>
    simp only [handleWithin, ends_getFleet_bind] at h
    cases hfind : f.find? s with
    | none =>
      simp only [hfind, ends_pure] at h
      rcases h with ⟨rfl, rfl, rfl⟩
      exact .none
    -- the first member is handled in this turn, all others in the turns behind it
    | some id =>
      simp only [hfind, ends_bind] at h
      rcases h with ⟨c, g, v, hstep, hrest⟩
      exact (ih hrest).cons hfind hstep

/-- Each handling makes the state smaller. -/
def Lessens (s : MemberState) (handle : MemberId → β → FleetM ω ρ β) : Prop :=
  ∀ ⦃id b f w c g v⦄, f.find? s = some id → Ends (handle id b) f w c g v → g.count s < f.count s

theorem find?_handleWithin (hless : Lessens s handle) {n : ℕ} (hn : f.count s ≤ n)
    (h : Ends (handleWithin s handle n b) f w b' f' w') : f'.find? s = none := by
  induction n generalizing b f w with
  | zero =>
    simp only [handleWithin, ends_pure] at h
    rcases h with ⟨rfl, rfl, rfl⟩
    -- no turn is left, as no member is
    have hempty : f.idsIn s = [] := List.length_eq_zero_iff.1 (Nat.le_zero.1 hn)
    refine find?_eq_none_iff.2 fun id hid => ?_
    rw [← mem_idsIn, hempty] at hid
    exact List.not_mem_nil hid
  | succ n ih =>
    simp only [handleWithin, ends_getFleet_bind] at h
    cases hfind : f.find? s with
    | none =>
      simp only [hfind, ends_pure] at h
      rcases h with ⟨rfl, rfl, rfl⟩
      exact hfind
    | some id =>
      simp only [hfind, ends_bind] at h
      rcases h with ⟨c, g, v, hstep, hrest⟩
      -- a turn takes its member out of the state
      have hlt := hless hfind hstep
      exact ih (by omega) hrest

theorem breaks_handleWithin {n : ℕ} (h : Breaks (handleWithin s handle n b) f w e w') :
    ∃ id c g v, Handling s handle b f w c g v ∧ g.find? s = some id ∧
      Breaks (handle id c) g v e w' := by
  induction n generalizing b f w with
  | zero => exact absurd h (by simp [handleWithin])
  | succ n ih =>
    simp only [handleWithin, breaks_getFleet_bind] at h
    cases hfind : f.find? s with
    | none => exact absurd h (by simp [hfind])
    | some id =>
      simp only [hfind, breaks_bind] at h
      rcases h with h | ⟨c, g, v, hstep, hrest⟩
      · -- the very first turn breaks off
        exact ⟨id, b, f, w, .none, hfind, h⟩
      · rcases ih hrest with ⟨id', c', g', v', hmore, hfirst, hbreak⟩
        exact ⟨id', c', g', v', hmore.cons hfind hstep, hfirst, hbreak⟩

/-- A state gets smaller if its member leaves it and all others are left alone. -/
theorem lessens_of_get?
    (hid : ∀ ⦃id b f w c g v⦄, f.stateOf? id = some s → Ends (handle id b) f w c g v →
      g.stateOf? id ≠ some s ∧ ∀ other, other ≠ id → g.get? other = f.get? other) :
    Lessens s handle := by
  intro id b f w c g v hfirst h
  have hbefore := stateOf?_of_find? hfirst
  rcases hid hbefore h with ⟨hafter, hothers⟩
  refine count_lt (fun i hi => ?_) hbefore hafter
  by_cases heq : i = id
  · exact heq ▸ hbefore
  · rw [← stateOf?_congr (hothers i heq)]
    exact hi

/-! ## All members in a state -/

theorem ends_handleAll (h : Ends (handleAll s handle b) f w b' f' w') :
    Handling s handle b f w b' f' w' := by
  simp only [handleAll, ends_getFleet_bind] at h
  exact ends_handleWithin h

/-- Nobody is left in a state that every handling makes smaller. -/
theorem find?_handleAll (hless : Lessens s handle) (h : Ends (handleAll s handle b) f w b' f' w') :
    f'.find? s = none := by
  simp only [handleAll, ends_getFleet_bind] at h
  exact find?_handleWithin hless (Nat.le_refl _) h

/-- Going through a state breaks off where handling a member does. -/
theorem breaks_handleAll (h : Breaks (handleAll s handle b) f w e w') :
    ∃ id c g v, Handling s handle b f w c g v ∧ g.find? s = some id ∧
      Breaks (handle id c) g v e w' := by
  simp only [handleAll, breaks_getFleet_bind] at h
  exact breaks_handleWithin h

/-- What is reached by handling some members, `handleWithin` reaches too. -/
theorem handleWithin_of_handling (hless : Lessens s handle) {c : β} {g : Fleet ρ} {v : ω}
    (h : Handling s handle b f w c g v) : ∃ k, k + g.count s ≤ f.count s ∧ ∀ n,
      ((handleWithin s handle (n + k) b).run f).run w =
        ((handleWithin s handle n c).run g).run v := by
  induction h with
  | none => exact ⟨0, by omega, fun n => rfl⟩
  | @more id c g v c' g' v' sofar first step ih =>
    rcases ih with ⟨k, hk, hrun⟩
    have hlt := hless first step
    refine ⟨k + 1, by omega, fun n => ?_⟩
    have hshift : n + (k + 1) = n + 1 + k := by omega
    rw [hshift, hrun, handleWithin, run_getFleet_bind, first]
    dsimp only
    rw [run_bind, step]

/-- If every handling makes the state smaller, going through it breaks off exactly where
handling a member that is reached does. -/
theorem breaks_handleAll_iff (hless : Lessens s handle) :
    Breaks (handleAll s handle b) f w e w' ↔
      ∃ id c g v, Handling s handle b f w c g v ∧ g.find? s = some id ∧
        Breaks (handle id c) g v e w' := by
  refine ⟨breaks_handleAll, ?_⟩
  intro h
  rcases h with ⟨id, c, g, v, hhandling, hfirst, hbreak⟩
  rcases handleWithin_of_handling hless hhandling with ⟨k, hk, hrun⟩
  have hpos : 0 < g.count s := List.length_pos_of_mem (mem_idsIn.2 (stateOf?_of_find? hfirst))
  obtain ⟨n, hn⟩ : ∃ n, f.count s = n + 1 + k := ⟨f.count s - 1 - k, by omega⟩
  -- there is a turn left for the handling that breaks off
  simp only [handleAll, breaks_getFleet_bind]
  rw [hn, Breaks, hrun, ← Breaks, handleWithin]
  simp only [breaks_getFleet_bind, hfirst]
  exact breaks_bind.2 (.inl hbreak)

end FleetEstimate.Fleet
