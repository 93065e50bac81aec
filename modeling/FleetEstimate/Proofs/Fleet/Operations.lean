import FleetEstimate.Proofs.Fleet.Outcome
import FleetEstimate.Proofs.Fleet.States
import FleetEstimate.Proofs.Wire.Exchanges

/-!
# What operations on a fleet do

One lemma for each operation says all that it can do: with which fleet and in which world
it ends, and when it breaks off. An operation on a member leaves all other members as
they are.
-/

namespace FleetEstimate.Fleet

variable {ω ρ α : Type} {f f' : Fleet ρ} {w w' : ω} {id other : MemberId} {e : FleetFault}

/-! ## Changes of one member -/

@[simp] theorem get?_modifyMember (f : Fleet ρ) (id : MemberId) (g : Member ρ → Member ρ)
    (other : MemberId) :
    (f.modifyMember id g).get? other =
      if other = id then (f.get? other).map g else f.get? other :=
  f.members.get?_modify id g other

/-- The fleet without a member. -/
def without (f : Fleet ρ) (id : MemberId) : Fleet ρ := { f with members := f.members.erase id }

@[simp] theorem get?_without (f : Fleet ρ) (id other : MemberId) :
    (f.without id).get? other = if other = id then none else f.get? other :=
  f.members.get?_erase id other

@[simp] theorem get?_addBusyTime (f : Fleet ρ) (id : MemberId) (used : Real64)
    (other : MemberId) :
    (f.addBusyTime id used).get? other =
      if other = id then (f.get? other).map fun m => { m with busyTime := m.busyTime + used }
      else f.get? other :=
  f.get?_modifyMember id _ other

/-- The fleet with a member in another state. -/
def withState (f : Fleet ρ) (id : MemberId) (s : MemberState) : Fleet ρ :=
  f.modifyMember id fun m => { m with state := s }

/-- The fleet with another link to a member. -/
def withLink (f : Fleet ρ) (id : MemberId) (link : Link ρ) : Fleet ρ :=
  f.modifyMember id fun m => { m with link }

@[simp] theorem get?_withState (f : Fleet ρ) (id : MemberId) (s : MemberState)
    (other : MemberId) :
    (f.withState id s).get? other =
      if other = id then (f.get? other).map fun m => { m with state := s } else f.get? other :=
  f.get?_modifyMember id _ other

@[simp] theorem get?_withLink (f : Fleet ρ) (id : MemberId) (link : Link ρ) (other : MemberId) :
    (f.withLink id link).get? other =
      if other = id then (f.get? other).map fun m => { m with link } else f.get? other :=
  f.get?_modifyMember id _ other

theorem get?_withLink_self {m : Member ρ} (hm : f.get? id = some m) (l : Link ρ) :
    (f.withLink id l).get? id = some { m with link := l } := by simp [hm]

/-- Of a fleet only one member has changed, or left. -/
structure Changes (id : MemberId) (f f' : Fleet ρ) : Prop where
  next : f'.members.next = f.members.next
  get? : ∀ other, other ≠ id → f'.get? other = f.get? other

theorem Changes.trans {g : Fleet ρ} (h : Changes id f g) (h' : Changes id g f') :
    Changes id f f' where
  next := h'.next.trans h.next
  get? other hne := (h'.get? other hne).trans (h.get? other hne)

theorem changes_modifyMember (f : Fleet ρ) (id : MemberId) (g : Member ρ → Member ρ) :
    Changes id f (f.modifyMember id g) where
  next := rfl
  get? other hne := by rw [get?_modifyMember, if_neg hne]

theorem changes_addBusyTime (f : Fleet ρ) (id : MemberId) (used : Real64) :
    Changes id f (f.addBusyTime id used) where
  next := rfl
  get? other hne := by rw [get?_addBusyTime, if_neg hne]

theorem changes_without (f : Fleet ρ) (id : MemberId) : Changes id f (f.without id) where
  next := rfl
  get? other hne := by rw [get?_without, if_neg hne]

/-! ## States -/

theorem stateOf?_congr (h : f'.get? other = f.get? other) :
    f'.stateOf? other = f.stateOf? other := by
  unfold stateOf?
  rw [h]

theorem ends_transition {target : MemberState} {sources : List MemberState} {u : Unit} :
    Ends (transition (ω := ω) id target sources) f w u f' w' ↔
      (f.get? id = none ∧ f' = f ∧ w' = w) ∨
        ∃ m, f.get? id = some m ∧ m.state ∈ sources ∧ f' = f.withState id target ∧ w' = w := by
  simp only [transition, ends_getFleet_bind]
  constructor
  · intro h
    cases hm : f.get? id with
    -- nobody there: nothing to move
    | none =>
      simp only [hm, ends_pure] at h
      exact .inl ⟨rfl, h.2.1.symm, h.2.2.symm⟩
    | some m =>
      simp only [hm] at h
      split at h
      · rename_i hs
        rcases ends_modifyFleet.1 h with ⟨rfl, rfl⟩
        exact .inr ⟨m, rfl, hs, rfl, rfl⟩
      · -- an illegal move throws
        exact absurd h not_ends_throw
  · intro h
    rcases h with ⟨hm, rfl, rfl⟩ | ⟨m, hm, hs, rfl, rfl⟩
    · simp [hm]
    · simp only [hm, if_pos hs, ends_modifyFleet, withState, and_self]

theorem breaks_transition {target : MemberState} {sources : List MemberState} :
    Breaks (transition (ω := ω) id target sources) f w e w' ↔
      ∃ m, f.get? id = some m ∧ m.state ∉ sources ∧ e = .illegalMove id m.state target ∧ w' = w := by
  simp only [transition, breaks_getFleet_bind]
  constructor
  · intro h
    cases hm : f.get? id with
    | none => simp [hm] at h
    | some m =>
      simp only [hm] at h
      split at h
      · -- a legal move only changes the fleet
        exact absurd h not_breaks_modifyFleet
      · rename_i hs
        simp only [breaks_throw] at h
        exact ⟨m, rfl, hs, h.1.symm, h.2.symm⟩
  · intro h
    rcases h with ⟨m, hm, hs, rfl, rfl⟩
    simp [hm, hs]

theorem ends_reset {u : PUnit} :
    Ends (reset (ω := ω) id) f w u f' w' ↔ f' = f.withState id .fresh ∧ w' = w := by
  simp only [reset, ends_modifyFleet, withState]
  exact ⟨fun h => ⟨h.1.symm, h.2.symm⟩, fun h => ⟨h.1.symm, h.2.symm⟩⟩

@[simp] theorem not_breaks_reset : ¬ Breaks (reset (ω := ω) id) f w e w' :=
  not_breaks_modifyFleet

/-- All members have to be given the system again. -/
theorem ends_resetAll {u : PUnit} (h : Ends (resetAll (ω := ω)) f w u f' w') :
    f'.members.next = f.members.next ∧
      ∀ id, f'.get? id = (f.get? id).map fun m => { m with state := .fresh } := by
  rcases ends_modifyFleet.1 h with ⟨rfl, -⟩
  exact ⟨rfl, fun id => f.members.get?_mapEntries _ id⟩

/-! ## Joining -/

theorem get?_track (f : Fleet ρ) (l : Link ρ) (name : String) (id : MemberId) :
    (f.track l name).get? id =
      if id = f.members.next then some ⟨l, .fresh, name, 0⟩ else f.get? id :=
  f.members.get?_add _ id

theorem ends_insert [Remote ω ρ] {x : ρ} {name : String} {i : MemberId} :
    Ends (insert (ω := ω) x name) f w i f' w' ↔
      i = f.members.next ∧ f' = f.track (.new x) name ∧ w' = w := by
  simp only [insert, ends_getFleet_bind, ends_setFleet_bind, ends_pure]
  constructor
  · intro h
    rcases h with ⟨rfl, rfl, rfl⟩
    exact ⟨rfl, rfl, rfl⟩
  · intro h
    rcases h with ⟨rfl, rfl, rfl⟩
    exact ⟨rfl, rfl, rfl⟩

/-! ## Leaving -/

theorem ends_drop [Remote ω ρ] {u : Unit} :
    Ends (drop (ω := ω) id) f w u f' w' ↔
      (f.get? id = none ∧ f' = f ∧ w' = w) ∨
        ∃ m, f.get? id = some m ∧ f' = f.without id ∧ w' = Remote.close m.link.remote w := by
  simp only [drop, ends_getFleet_bind]
  constructor
  · intro h
    cases hm : f.get? id with
    | none =>
      simp only [hm, ends_pure] at h
      exact .inl ⟨rfl, h.2.1.symm, h.2.2.symm⟩
    -- the far end is closed after the member is forgotten
    | some m =>
      simp only [hm, ends_modifyFleet_bind, ends_modifyWorld] at h
      rcases h with ⟨rfl, rfl⟩
      exact .inr ⟨m, rfl, rfl, rfl⟩
  · intro h
    rcases h with ⟨hm, rfl, rfl⟩ | ⟨m, hm, rfl, rfl⟩
    · simp [hm]
    · simp only [hm, ends_modifyFleet_bind, ends_modifyWorld, without, and_self]

@[simp] theorem not_breaks_drop [Remote ω ρ] : ¬ Breaks (drop (ω := ω) id) f w e w' := by
  simp only [drop, breaks_getFleet_bind]
  intro h
  cases hm : f.get? id with
  | none =>
    simp only [hm] at h
    exact not_breaks_pure h
  | some m =>
    simp only [hm, breaks_modifyFleet_bind] at h
    exact not_breaks_modifyWorld h

/-! ## Exchanges -/

/-- What a coordinator is told of an outcome; `none` if it waits forever. -/
def told : Except Halt α → Option (Except LinkError α)
  | .ok a => some (.ok a)
  | .error (.failed e) => some (.error e)
  | .error .stalled => none

theorem told_eq_some_iff {r : Except Halt α} {y : Except LinkError α} :
    told r = some y ↔ r = y.mapError .failed := by
  rcases r with (_ | _) | _ <;> rcases y with _ | _ <;> simp [told, Except.mapError]

theorem told_eq_none_iff {r : Except Halt α} : told r = none ↔ r = .error .stalled := by
  rcases r with (_ | _) | _ <;> simp [told]

theorem ends_runLink {act : LinkM ω ρ α} {l : Link ρ} {y : Option (Except LinkError α) × Link ρ} :
    Ends (runLink act l) f w y f' w' ↔
      f' = f ∧ ∃ r, Meets act l w r y.2 w' ∧ y.1 = told r := by
  simp only [runLink, ends_getWorld_bind]
  unfold Meets
  constructor
  · intro h
    rcases hrun : (act.run.run l).run w with ⟨⟨r, l'⟩, v⟩
    simp only [hrun, ends_setWorld_bind] at h
    -- an exchange that fails, waits forever or returns is told in each case
    rcases r with (e | _) | a <;> simp only [ends_pure] at h <;> rcases h with ⟨rfl, rfl, rfl⟩
    · exact ⟨rfl, _, rfl, rfl⟩
    · exact ⟨rfl, _, rfl, rfl⟩
    · exact ⟨rfl, _, rfl, rfl⟩
  · intro h
    rcases h with ⟨rfl, r, hrun, hy⟩
    rcases y with ⟨y, l'⟩
    subst hy
    simp only [hrun, ends_setWorld_bind]
    rcases r with (e | _) | a <;> exact ends_pure.2 ⟨rfl, rfl, rfl⟩

theorem not_breaks_runLink {act : LinkM ω ρ α} {l : Link ρ} :
    ¬ Breaks (runLink act l) f w e w' := by
  simp only [runLink, breaks_getWorld_bind]
  intro h
  rcases hrun : (act.run.run l).run w with ⟨⟨r, l'⟩, v⟩
  simp only [hrun, breaks_setWorld_bind] at h
  rcases r with (e | _) | a <;> exact not_breaks_pure h

/-- An exchange with a member uses its link and nothing else. -/
theorem ends_exchange {act : LinkM ω ρ α} {y : Option (Except LinkError α)} :
    Ends (exchange id act) f w y f' w' ↔
      (f.get? id = none ∧ y = none ∧ f' = f ∧ w' = w) ∨
        ∃ m x l, f.get? id = some m ∧ Meets act m.link w (x.mapError .failed) l w' ∧
          y = some x ∧ f' = f.withLink id l := by
  simp only [exchange, ends_getFleet_bind]
  constructor
  · intro h
    cases hm : f.get? id with
    | none =>
      simp only [hm, ends_pure] at h
      exact .inl ⟨rfl, h.1.symm, h.2.1.symm, h.2.2.symm⟩
    | some m =>
      simp only [hm] at h
      rcases ends_bind.1 h with ⟨⟨t, l⟩, _, _, hrun, hrest⟩
      rcases ends_runLink.1 hrun with ⟨rfl, r, hmeets, ht⟩
      dsimp only at ht hmeets
      rw [ends_modifyFleet_bind] at hrest
      cases t with
      -- an exchange that waits forever throws
      | none => exact absurd hrest not_ends_throw
      | some x =>
        rcases ends_pure.1 hrest with ⟨rfl, rfl, rfl⟩
        rw [told_eq_some_iff.1 ht.symm] at hmeets
        exact .inr ⟨m, x, l, rfl, hmeets, rfl, rfl⟩
  · intro h
    rcases h with ⟨hm, rfl, rfl, rfl⟩ | ⟨m, x, l, hm, hmeets, rfl, rfl⟩
    · simp only [hm, ends_pure, and_self]
    · have hrun : Ends (runLink act m.link) f w (some x, l) f w' :=
        ends_runLink.2 ⟨rfl, _, hmeets, (told_eq_some_iff.2 rfl).symm⟩
      simp only [hm, ends_bind_of_ends hrun, ends_modifyFleet_bind]
      exact ends_pure.2 ⟨rfl, rfl, rfl⟩

/-- An exchange breaks off only by waiting for bytes that never come. -/
theorem breaks_exchange {act : LinkM ω ρ α} :
    Breaks (exchange id act) f w e w' ↔
      e = .stalled ∧ ∃ m l, f.get? id = some m ∧ Meets act m.link w (.error .stalled) l w' := by
  simp only [exchange, breaks_getFleet_bind]
  constructor
  · intro h
    cases hm : f.get? id with
    | none =>
      simp only [hm] at h
      exact absurd h not_breaks_pure
    | some m =>
      simp only [hm] at h
      rcases breaks_bind.1 h with hrun | ⟨⟨t, l⟩, _, _, hrun, hrest⟩
      · -- the exchange itself never throws; what it tells may make its caller throw
        exact absurd hrun not_breaks_runLink
      rcases ends_runLink.1 hrun with ⟨rfl, r, hmeets, ht⟩
      dsimp only at ht hmeets
      rw [breaks_modifyFleet_bind] at hrest
      cases t with
      | none =>
        rcases breaks_throw.1 hrest with ⟨rfl, rfl⟩
        rw [told_eq_none_iff.1 ht.symm] at hmeets
        exact ⟨rfl, m, l, rfl, hmeets⟩
      | some x => exact absurd hrest not_breaks_pure
  · intro h
    rcases h with ⟨rfl, m, l, hm, hmeets⟩
    have hrun : Ends (runLink act m.link) f w (none, l) f w' := ends_runLink.2 ⟨rfl, _, hmeets, rfl⟩
    simp only [hm, breaks_bind_of_ends hrun, breaks_modifyFleet_bind]
    exact breaks_throw.2 ⟨rfl, rfl⟩

/-! ## Shutting down -/

theorem ends_dismiss [Remote ω ρ] {l : Link ρ} {u : Unit}
    (h : Ends (dismiss (ω := ω) l) f w u f' w') : f' = f := by
  simp only [dismiss, ends_bind, ends_runLink, ends_modifyWorld] at h
  rcases h with ⟨_, _, _, ⟨rfl, -⟩, rfl, -⟩
  rfl

theorem ends_forM_dismiss [Remote ω ρ] {members : List (MemberId × Member ρ)} {u : Unit}
    (h : Ends (members.forM fun p => dismiss (ω := ω) p.2.link) f w u f' w') : f' = f := by
  induction members generalizing f w with
  | nil =>
    rcases ends_pure.1 h with ⟨-, rfl, -⟩
    rfl
  | cons p members ih =>
    change Ends (dismiss p.2.link >>= fun _ => members.forM fun p => dismiss p.2.link)
      f w u f' w' at h
    rcases ends_bind.1 h with ⟨_, g, v, hfirst, hrest⟩
    rw [ih hrest, ends_dismiss hfirst]

/-- A shutdown leaves nobody. -/
theorem ends_shutdown [Remote ω ρ] {u : Unit} (h : Ends (shutdown (ω := ω)) f w u f' w') :
    f'.members.next = f.members.next ∧ ∀ id, f'.get? id = none := by
  simp only [shutdown, ends_getFleet_bind, ends_modifyFleet_bind] at h
  rw [ends_forM_dismiss h]
  exact ⟨rfl, fun _ => rfl⟩

/-! ## Busy times -/

variable [Remote ω ρ]

/-- What a member is asked for its busy time with. -/
def askBusyTime : LinkM ω ρ Real64 := do
  Link.sendTag .getCpuTime
  Link.recvReal

theorem ends_updateBusyTime {y : Except LinkError Real64} :
    Ends (updateBusyTime (ω := ω) id) f w y f' w' ↔
      (f.get? id = none ∧ y = .error (notTracked id) ∧ f' = f ∧ w' = w) ∨
        ∃ m l, f.get? id = some m ∧ Meets askBusyTime m.link w (y.mapError .failed) l w' ∧
          ((∃ e, y = .error e ∧ f' = f.withLink id l) ∨
            ∃ used, y = .ok used ∧ f' = (f.withLink id l).addBusyTime id used) := by
  unfold updateBusyTime
  change Ends (exchange id askBusyTime >>= _) f w y f' w' ↔ _
  simp only [ends_bind, ends_exchange]
  constructor
  · intro h
    rcases h with ⟨t, g, v, ⟨hm, rfl, rfl, rfl⟩ | ⟨m, x, l, hm, hmeets, rfl, rfl⟩, h⟩
    · simp only [ends_pure] at h
      exact .inl ⟨hm, h.1.symm, h.2.1.symm, h.2.2.symm⟩
    · right
      cases x with
      -- a time that is not told is not booked
      | error e =>
        rcases ends_pure.1 h with ⟨rfl, rfl, rfl⟩
        exact ⟨m, l, hm, hmeets, .inl ⟨e, rfl, rfl⟩⟩
      | ok used =>
        simp only [ends_modifyFleet_bind, ends_pure] at h
        rcases h with ⟨rfl, rfl, rfl⟩
        exact ⟨m, l, hm, hmeets, .inr ⟨used, rfl, rfl⟩⟩
  · intro h
    rcases h with ⟨hm, rfl, rfl, rfl⟩ | ⟨m, l, hm, hmeets, ⟨e, rfl, rfl⟩ | ⟨used, rfl, rfl⟩⟩
    · exact ⟨none, f', w', .inl ⟨hm, rfl, rfl, rfl⟩, ends_pure.2 ⟨rfl, rfl, rfl⟩⟩
    · exact ⟨_, _, _, .inr ⟨m, .error e, l, hm, hmeets, rfl, rfl⟩, ends_pure.2 ⟨rfl, rfl, rfl⟩⟩
    · refine ⟨_, _, _, .inr ⟨m, .ok used, l, hm, hmeets, rfl, rfl⟩, ?_⟩
      exact ends_modifyFleet_bind.2 (ends_pure.2 ⟨rfl, rfl, rfl⟩)

theorem breaks_updateBusyTime :
    Breaks (updateBusyTime (ω := ω) id) f w e w' ↔
      e = .stalled ∧
        ∃ m l, f.get? id = some m ∧ Meets askBusyTime m.link w (.error .stalled) l w' := by
  rw [← breaks_exchange]
  simp only [updateBusyTime, breaks_bind]
  refine or_iff_left ?_
  intro h
  rcases h with ⟨t, g, v, -, h⟩
  rcases t with _ | _ | used
  · exact not_breaks_pure h
  · exact not_breaks_pure h
  · rw [breaks_modifyFleet_bind] at h
    exact not_breaks_pure h

end FleetEstimate.Fleet
