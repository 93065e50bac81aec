import FleetEstimate.Proofs.Fleet.Handling

/-!
# One member after the other

Whoever goes through a state handles its members in the order of their numbers. If handling a
member takes it out of the state and leaves all others alone, each of them is handled once, and
nobody is left. What becomes of a member depends on what it was at the beginning, and on what
those before it have left of the world: its fate.
-/

namespace FleetEstimate.Fleet

variable {ω ρ β : Type} {s : MemberState} {handle : MemberId → β → FleetM ω ρ β}
variable {b b' c : β} {f f' g : Fleet ρ} {w w' v : ω} {id : MemberId} {ids : List MemberId}

/-! ## The members in a state -/

theorem pairwise_idsIn (f : Fleet ρ) (s : MemberState) : (f.idsIn s).Pairwise (· < ·) :=
  f.members.ascending.sublist (List.filter_sublist.map _)

theorem find?_eq_head? (f : Fleet ρ) (s : MemberState) : f.find? s = (f.idsIn s).head? := by
  rw [find?, idsIn, List.head?_map, List.head?_filter]

/-- Once the first of the members in a state has left it, the others are those in it. -/
theorem idsIn_of_cons (hids : f.idsIn s = id :: ids) (hleft : g.stateOf? id ≠ some s)
    (hothers : ∀ other, other ≠ id → g.get? other = f.get? other) : g.idsIn s = ids := by
  have hordered := pairwise_idsIn f s
  rw [hids, List.pairwise_cons] at hordered
  refine (pairwise_idsIn g s).eq_of_mem_iff hordered.2 fun i => ?_
  rw [mem_idsIn]
  by_cases heq : i = id
  · subst heq
    exact iff_of_false hleft fun hmem => lt_irrefl i (hordered.1 i hmem)
  · rw [stateOf?_congr (hothers i heq), ← mem_idsIn, hids, List.mem_cons, or_iff_right heq]

/-! ## The loop -/

/-- There is a turn for every member in the state, and no use for more. -/
theorem run_handleWithin (hless : Lessens s handle) {n : ℕ} (hn : f.count s ≤ n) :
    ((handleWithin s handle n b).run f).run w = ((handleAll s handle b).run f).run w := by
  -- one turn more than there are members makes no difference, and so neither do many
  have hmore : ∀ n b f w, f.count s ≤ n → ((handleWithin s handle (n + 1) b).run f).run w =
      ((handleWithin s handle n b).run f).run w := by
    intro n
    induction n with
    | zero =>
      intro b f w hcount
      have hnone : f.find? s = none := by
        rw [find?_eq_head?, List.length_eq_zero_iff.1 (Nat.le_zero.1 hcount), List.head?_nil]
      simp only [handleWithin, run_getFleet_bind, hnone]
    | succ n ih =>
      intro b f w hcount
      rw [handleWithin, handleWithin, run_getFleet_bind, run_getFleet_bind]
      cases hfirst : f.find? s with
      | none => rfl
      | some id =>
        apply run_bind_congr
        intro c g v hstep
        have hlt := hless hfirst hstep
        exact ih c g v (by omega)
  rw [handleAll, run_getFleet_bind]
  induction n, hn using Nat.le_induction with
  | base => rfl
  | succ n hn ih => rw [hmore n b f w hn, ih]

/-- To go through a state is to handle its first member as long as there is one. -/
theorem handleAll_eq_loop (hless : Lessens s handle) (b : β) :
    handleAll s handle b = (do
      match (← getThe (Fleet ρ)).find? s with
      | none => return b
      | some id => handleAll s handle (← handle id b)) := by
  refine fleetM_ext fun f w => ?_
  rw [← run_handleWithin hless (Nat.le_succ (f.count s)), handleWithin, run_getFleet_bind,
    run_getFleet_bind]
  cases hfirst : f.find? s with
  | none => rfl
  | some id =>
    apply run_bind_congr
    intro c g v hstep
    -- the rest of the loop has a turn less, which is still enough as its state has lost a member
    exact run_handleWithin hless (hless hfirst hstep).le

/-! ## Fates -/

variable (ω ρ β) in
/-- What becomes of a member, `none` if it leaves, and of what is handed on. -/
abbrev Fate := Member ρ → β → ω → Option (Member ρ) → β → ω → Prop

variable (ω ρ β) in
/-- What handling a member cannot go on from. -/
abbrev Hindrance := Member ρ → β → ω → FleetFault → ω → Prop

variable {fate : Fate ω ρ β} {hindrance : Hindrance ω ρ β}

/-- What becomes of members one after the other. Each of them is at its turn what it was in `f`,
and stays what it is in `f'`. -/
inductive Fates (fate : Fate ω ρ β) (f f' : Fleet ρ) : List MemberId → β → ω → β → ω → Prop
  | nil {b : β} {w : ω} : Fates fate f f' [] b w b w
  | cons {id : MemberId} {ids : List MemberId} {m : Member ρ} {b c b' : β} {w v w' : ω}
      (member : f.get? id = some m) (turn : fate m b w (f'.get? id) c v)
      (rest : Fates fate f f' ids c v b' w') : Fates fate f f' (id :: ids) b w b' w'

theorem Fates.congr (h : Fates fate g f' ids b w b' w') (hsame : ∀ i ∈ ids, g.get? i = f.get? i) :
    Fates fate f f' ids b w b' w' := by
  induction h with
  | nil => exact .nil
  | cons member turn rest ih =>
    rw [hsame _ List.mem_cons_self] at member
    exact .cons member turn (ih fun i hi => hsame i (List.mem_cons_of_mem _ hi))

/-- Some members have come to their fates, and all others are what they were. -/
structure Visited (fate : Fate ω ρ β) (f f' : Fleet ρ) (ids : List MemberId) (b : β) (w : ω)
    (b' : β) (w' : ω) : Prop where
  fates : Fates fate f f' ids b w b' w'
  others : ∀ id, id ∉ ids → f'.get? id = f.get? id

theorem visited_nil : Visited fate f f [] b w b w := ⟨.nil, fun _ _ => rfl⟩

/-- A member comes to its fate, and then the members behind it. -/
theorem Visited.cons {m : Member ρ} (hm : f.get? id = some m) (hturn : fate m b w (g.get? id) c v)
    (hothers : ∀ other, other ≠ id → g.get? other = f.get? other) (hid : id ∉ ids)
    (h : Visited fate g f' ids c v b' w') : Visited fate f f' (id :: ids) b w b' w' := by
  constructor
  · have hsame : ∀ i ∈ ids, g.get? i = f.get? i := fun i hi =>
      hothers i (ne_of_mem_of_not_mem hi hid)
    rw [← h.others id hid] at hturn
    exact .cons hm hturn (h.fates.congr hsame)
  · intro i hi
    rw [List.mem_cons, not_or] at hi
    rw [h.others i hi.2, hothers i hi.1]

/-! ## Going through a state -/

/-- What handling a member in a state does is told by the member. It is taken out of the state,
and all others are left alone. -/
structure Decides (s : MemberState) (handle : MemberId → β → FleetM ω ρ β) (fate : Fate ω ρ β)
    (hindrance : Hindrance ω ρ β) : Prop where
  ends : ∀ ⦃id m b f w b' f' w'⦄, f.get? id = some m → m.state = s →
    Ends (handle id b) f w b' f' w' → fate m b w (f'.get? id) b' w' ∧
      ∀ other, other ≠ id → f'.get? other = f.get? other
  breaks : ∀ ⦃id m b f w e w'⦄, f.get? id = some m → m.state = s →
    Breaks (handle id b) f w e w' → hindrance m b w e w'
  takesOut : ∀ ⦃m b w x b' w'⦄, fate m b w (some x) b' w' → x.state ≠ s

theorem Decides.stateOf?_ne (h : Decides s handle fate hindrance) {m : Member ρ}
    (hturn : fate m b w (f.get? id) b' w') : f.stateOf? id ≠ some s := by
  intro hs
  rcases stateOf?_eq_some_iff.1 hs with ⟨x, hx, hstate⟩
  rw [hx] at hturn
  exact h.takesOut hturn hstate

theorem Decides.lessens (h : Decides s handle fate hindrance) : Lessens s handle := by
  refine lessens_of_get? fun id b f w c g v hs hstep => ?_
  rcases stateOf?_eq_some_iff.1 hs with ⟨m, hm, hstate⟩
  rcases h.ends hm hstate hstep with ⟨hturn, hothers⟩
  exact ⟨h.stateOf?_ne hturn, hothers⟩

/-- A state is gone through in the order of its members. Each of them comes to its fate once, and
then nobody is left in the state; or one of them hinders those behind it. -/
structure GoesThrough (s : MemberState) (handle : MemberId → β → FleetM ω ρ β)
    (fate : Fate ω ρ β) (hindrance : Hindrance ω ρ β) : Prop where
  loop : ∀ b, handleAll s handle b = (do
    match (← getThe (Fleet ρ)).find? s with
    | none => return b
    | some id => handleAll s handle (← handle id b))
  members : ∀ f : Fleet ρ,
    (f.idsIn s).Pairwise (· < ·) ∧ ∀ id, id ∈ f.idsIn s ↔ f.stateOf? id = some s
  outcome : ∀ b f w,
    (∃ b' f' w', Ends (handleAll s handle b) f w b' f' w' ∧
      Visited fate f f' (f.idsIn s) b w b' w' ∧ f'.NoneIn s) ∨
    ∃ e w', Breaks (handleAll s handle b) f w e w' ∧
      ∃ before id after m c g v, f.idsIn s = before ++ id :: after ∧
        Visited fate f g before b w c v ∧ f.get? id = some m ∧ hindrance m c v e w'

theorem Decides.goesThrough (h : Decides s handle fate hindrance) :
    GoesThrough s handle fate hindrance := by
  refine ⟨handleAll_eq_loop h.lessens, fun f => ⟨pairwise_idsIn f s, fun id => mem_idsIn⟩, ?_⟩
  intro b f w
  -- the members that are left in the state become fewer by the first with every handling
  induction hids : f.idsIn s generalizing b f w with
  | nil =>
    have hnone : f.find? s = none := by rw [find?_eq_head?, hids, List.head?_nil]
    refine .inl ⟨b, f, w, ?_, visited_nil, find?_eq_none_iff.1 hnone⟩
    rw [handleAll_eq_loop h.lessens, ends_getFleet_bind, hnone]
    exact ends_pure.2 ⟨rfl, rfl, rfl⟩
  | cons id ids ih =>
    have hfirst : f.find? s = some id := by rw [find?_eq_head?, hids, List.head?_cons]
    rcases stateOf?_eq_some_iff.1 (stateOf?_of_find? hfirst) with ⟨m, hm, hstate⟩
    have hnotMem : id ∉ ids := by
      have hnodup : (f.idsIn s).Nodup := nodup_idsIn
      rw [hids] at hnodup
      exact (List.nodup_cons.1 hnodup).1
    rw [handleAll_eq_loop h.lessens]
    simp only [ends_getFleet_bind, breaks_getFleet_bind, hfirst]
    rcases ends_or_breaks (handle id b) f w with ⟨c, g, v, hstep⟩ | ⟨e, w', hstep⟩
    · rcases h.ends hm hstate hstep with ⟨hturn, hothers⟩
      simp only [ends_bind_of_ends hstep, breaks_bind_of_ends hstep]
      rcases ih c g v (idsIn_of_cons hids (h.stateOf?_ne hturn) hothers) with
        ⟨b', f', w', hends, hvisited, hnone⟩ |
        ⟨e, w', hbreaks, before, i, after, m', c', g', v', rfl, hvisited, hm', hhindered⟩
      · exact .inl ⟨b', f', w', hends, .cons hm hturn hothers hnotMem hvisited, hnone⟩
      · rw [List.mem_append, List.mem_cons, not_or, not_or] at hnotMem
        rw [hothers i (Ne.symm hnotMem.2.1)] at hm'
        exact .inr ⟨e, w', hbreaks, id :: before, i, after, m', c', g', v', rfl,
          .cons hm hturn hothers hnotMem.1 hvisited, hm', hhindered⟩
    · exact .inr ⟨e, w', breaks_bind.2 (.inl hstep), [], id, ids, m, b, f, w, rfl, visited_nil, hm,
        h.breaks hm hstate hstep⟩

end FleetEstimate.Fleet
