import FleetEstimate.Coordinator
import FleetEstimate.Proofs.Fleet.Operations

/-!
# What a coordinator does with one member

The four tasks of a coordinator are built from two: `tell`, which sends a member
something and moves it on, and `conclude`, which asks a member whose result was read for
its busy time. In both a member whose link fails leaves the fleet. One lemma for each
task says all that it can do.
-/

namespace FleetEstimate.Fleet

variable {ω ρ : Type} [World ω ρ] {f f' : Fleet ρ} {w w' : ω} {id : MemberId} {e : FleetFault}

/-! ## Telling a member something -/

/-- Sends a member something and moves it on. -/
def tell (act : LinkM ω ρ Unit) (target : MemberState) (sources : List MemberState)
    (id : MemberId) : FleetM ω ρ Unit := do
  match ← exchange id act with
  | none => return
  | some (.ok ()) => transition id target sources
  | some (.error _) => drop id

theorem assign_eq_tell (a : Assignment) :
    assign (ω := ω) (ρ := ρ) a = tell a.send .idle [.fresh, .pending] := rfl

theorem handWork_eq_tell :
    handWork (ω := ω) (ρ := ρ) = tell (Link.call workCall) .working [.idle] := rfl

/-- The member `m` leaves: its link, which is now `l`, is closed. -/
def Leaves (f : Fleet ρ) (id : MemberId) (l : Link ρ) (v : ω) (f' : Fleet ρ) (w' : ω) : Prop :=
  f' = (f.withLink id l).without id ∧ w' = Remote.close l.remote v

theorem ends_drop_withLink {l : Link ρ} {m : Member ρ} (hm : f.get? id = some m) {u : Unit} :
    Ends (drop (ω := ω) id) (f.withLink id l) w u f' w' ↔ Leaves f id l w f' w' := by
  have hget : (f.withLink id l).get? id = some { m with link := l } := by simp [hm]
  rw [ends_drop, hget]
  simp only [reduceCtorEq, false_and, false_or, Option.some.injEq, exists_eq_left', Leaves]

theorem ends_tell {act : LinkM ω ρ Unit} {target : MemberState} {sources : List MemberState}
    {u : Unit} :
    Ends (tell act target sources id) f w u f' w' ↔
      (f.get? id = none ∧ f' = f ∧ w' = w) ∨
        ∃ m l v, f.get? id = some m ∧
          ((Meets act m.link w (.ok ()) l v ∧ m.state ∈ sources ∧
              f' = (f.withLink id l).withState id target ∧ w' = v) ∨
            ∃ e, Meets act m.link w (.error (.failed e)) l v ∧ Leaves f id l v f' w') := by
  simp only [tell, ends_bind, ends_exchange]
  constructor
  · intro h
    rcases h with ⟨t, g, v, ⟨hm, rfl, rfl, rfl⟩ | ⟨m, x, l, hm, hmeets, rfl, rfl⟩, h⟩
    · simp only [ends_pure] at h
      -- nobody has this number, and nothing is told
      exact .inl ⟨hm, h.2.1.symm, h.2.2.symm⟩
    · refine .inr ⟨m, l, v, hm, ?_⟩
      cases x with
      -- the link failed, so the member is let go of
      | error e => exact .inr ⟨e, hmeets, (ends_drop_withLink hm).1 h⟩
      | ok _ =>
        rcases ends_transition.1 h with ⟨hnone, -⟩ | ⟨m', hm', hs, rfl, rfl⟩
        · simp [hm] at hnone
        · -- only the link has changed since the member was found
          cases (get?_withLink_self hm l).symm.trans hm'
          exact .inl ⟨hmeets, hs, rfl, rfl⟩
  · intro h
    rcases h with ⟨hm, rfl, rfl⟩ | ⟨m, l, v, hm, ⟨hmeets, hs, rfl, rfl⟩ | ⟨e, hmeets, hleaves⟩⟩
    · exact ⟨none, f', w', .inl ⟨hm, rfl, rfl, rfl⟩, ends_pure.2 ⟨rfl, rfl, rfl⟩⟩
    · refine ⟨_, _, _, .inr ⟨m, .ok (), l, hm, hmeets, rfl, rfl⟩, ?_⟩
      exact ends_transition.2 (.inr ⟨{ m with link := l }, by simp [hm], hs, rfl, rfl⟩)
    · exact ⟨_, _, _, .inr ⟨m, .error e, l, hm, hmeets, rfl, rfl⟩,
        (ends_drop_withLink hm).2 hleaves⟩

/-- Telling a member something breaks off if it waits forever or may not move on. -/
theorem breaks_tell {act : LinkM ω ρ Unit} {target : MemberState} {sources : List MemberState} :
    Breaks (tell act target sources id) f w e w' ↔
      ∃ m l, f.get? id = some m ∧
        ((Meets act m.link w (.error .stalled) l w' ∧ e = .stalled) ∨
          Meets act m.link w (.ok ()) l w' ∧ m.state ∉ sources ∧
            e = .illegalMove id m.state target) := by
  simp only [tell, breaks_bind, breaks_exchange, ends_exchange]
  constructor
  · rintro (⟨rfl, m, l, hm, hmeets⟩ |
      ⟨t, g, v, ⟨hm, rfl, rfl, rfl⟩ | ⟨m, x, l, hm, hmeets, rfl, rfl⟩, h⟩)
    · exact ⟨m, l, hm, .inl ⟨hmeets, rfl⟩⟩
    · -- no member, no failure
      exact absurd h not_breaks_pure
    · cases x with
      | error e => exact absurd h not_breaks_drop
      | ok _ =>
        -- the words got through, and then the move is illegal
        rcases breaks_transition.1 h with ⟨m', hm', hs, rfl, rfl⟩
        cases (get?_withLink_self hm l).symm.trans hm'
        exact ⟨m, l, hm, .inr ⟨hmeets, hs, rfl⟩⟩
  · intro h
    rcases h with ⟨m, l, hm, ⟨hmeets, rfl⟩ | ⟨hmeets, hs, rfl⟩⟩
    · exact .inl ⟨rfl, m, l, hm, hmeets⟩
    · refine .inr ⟨_, _, _, .inr ⟨m, .ok (), l, hm, hmeets, rfl, rfl⟩, ?_⟩
      exact breaks_transition.2 ⟨{ m with link := l }, by simp [hm], hs, rfl, rfl⟩

/-- A member in a state that it may leave can be told something, unless that takes
forever. -/
theorem breaks_tell_of_state {act : LinkM ω ρ Unit} {s target : MemberState}
    {sources : List MemberState} (hs : f.stateOf? id = some s) (hsource : s ∈ sources)
    (h : Breaks (tell act target sources id) f w e w') : e = .stalled := by
  rcases breaks_tell.1 h with ⟨m, l, hm, ⟨-, rfl⟩ | ⟨-, hillegal, -⟩⟩
  · rfl
  · rw [state_eq_of_get? hs hm] at hillegal
    exact absurd hsource hillegal

/-! ## Concluding a work unit -/

/-- Asks a member for its busy time and makes it ready for work. -/
def conclude (id : MemberId) : FleetM ω ρ Unit := do
  match ← updateBusyTime id with
  | .ok _ => markIdle id
  | .error _ => drop id

/-- What a busy time changes. -/
def concluded (f : Fleet ρ) (id : MemberId) (l : Link ρ) (used : Real64) : Fleet ρ :=
  ((f.withLink id l).addBusyTime id used).withState id .idle

theorem ends_conclude {u : Unit} :
    Ends (conclude (ω := ω) id) f w u f' w' ↔
      (f.get? id = none ∧ f' = f ∧ w' = w) ∨
        ∃ m l v, f.get? id = some m ∧
          ((∃ used, Meets askBusyTime m.link w (.ok used) l v ∧ m.state ∈ [.fresh, .pending] ∧
              f' = f.concluded id l used ∧ w' = v) ∨
            ∃ e, Meets askBusyTime m.link w (.error (.failed e)) l v ∧ Leaves f id l v f' w') := by
  simp only [conclude, ends_bind, ends_updateBusyTime]
  constructor
  · intro h
    rcases h with
      ⟨y, g, v, ⟨hm, rfl, rfl, rfl⟩ | ⟨m, l, hm, hmeets, ⟨e, rfl, rfl⟩ | ⟨used, rfl, rfl⟩⟩, h⟩
    · -- whoever has no number here cannot be dropped either
      rcases ends_drop.1 h with h | ⟨m, hm', -⟩
      · exact .inl h
      · simp [hm] at hm'
    · exact .inr ⟨m, l, v, hm, .inr ⟨e, hmeets, (ends_drop_withLink hm).1 h⟩⟩
    · rcases ends_transition.1 h with ⟨hnone, -⟩ | ⟨m', hm', hs, rfl, rfl⟩
      · simp [hm] at hnone
      · -- the time is booked before the move, which the state does not notice
        have hstate : m'.state = m.state := by
          simp only [get?_addBusyTime, get?_withLink, hm, if_true, Option.map_some,
            Option.some.injEq] at hm'
          rw [← hm']
        exact .inr ⟨m, l, _, hm, .inl ⟨used, hmeets, hstate ▸ hs, rfl, rfl⟩⟩
  · intro h
    rcases h with
      ⟨hm, rfl, rfl⟩ | ⟨m, l, v, hm, ⟨used, hmeets, hs, rfl, rfl⟩ | ⟨e, hmeets, hleaves⟩⟩
    · exact ⟨_, _, _, .inl ⟨hm, rfl, rfl, rfl⟩, ends_drop.2 (.inl ⟨hm, rfl, rfl⟩)⟩
    · refine ⟨.ok used, _, _, .inr ⟨m, l, hm, hmeets, .inr ⟨used, rfl, rfl⟩⟩, ?_⟩
      exact ends_transition.2 (.inr ⟨{ m with link := l, busyTime := m.busyTime + used },
        by simp [hm], hs, rfl, rfl⟩)
    · exact ⟨.error e, _, _, .inr ⟨m, l, hm, hmeets, .inl ⟨e, rfl, rfl⟩⟩,
        (ends_drop_withLink hm).2 hleaves⟩

theorem breaks_conclude :
    Breaks (conclude (ω := ω) id) f w e w' ↔
      ∃ m l, f.get? id = some m ∧
        ((Meets askBusyTime m.link w (.error .stalled) l w' ∧ e = .stalled) ∨
          ∃ used, Meets askBusyTime m.link w (.ok used) l w' ∧ m.state ∉ [.fresh, .pending] ∧
            e = .illegalMove id m.state .idle) := by
  simp only [conclude, breaks_bind, breaks_updateBusyTime, ends_updateBusyTime]
  constructor
  · rintro (⟨rfl, m, l, hm, hmeets⟩ | ⟨y, g, v, ⟨hm, rfl, rfl, rfl⟩ |
      ⟨m, l, hm, hmeets, ⟨e, rfl, rfl⟩ | ⟨used, rfl, rfl⟩⟩, h⟩)
    · exact ⟨m, l, hm, .inl ⟨hmeets, rfl⟩⟩
    · -- dropping never breaks off
      exact absurd h not_breaks_drop
    · exact absurd h not_breaks_drop
    · rcases breaks_transition.1 h with ⟨m', hm', hs, rfl, rfl⟩
      -- the time is booked before the move, which the state does not notice
      have hstate : m'.state = m.state := by
        simp only [get?_addBusyTime, get?_withLink, hm, if_true, Option.map_some,
          Option.some.injEq] at hm'
        rw [← hm']
      exact ⟨m, l, hm, .inr ⟨used, hmeets, hstate ▸ hs, by rw [hstate]⟩⟩
  · intro h
    rcases h with ⟨m, l, hm, ⟨hmeets, rfl⟩ | ⟨used, hmeets, hs, rfl⟩⟩
    · exact .inl ⟨rfl, m, l, hm, hmeets⟩
    · refine .inr ⟨.ok used, _, _, .inr ⟨m, l, hm, hmeets, .inr ⟨used, rfl, rfl⟩⟩, ?_⟩
      exact breaks_transition.2 ⟨{ m with link := l, busyTime := m.busyTime + used },
        by simp [hm], hs, rfl, rfl⟩

/-- Concluding breaks off with a `pending` member only by waiting forever. -/
theorem breaks_conclude_pending (hs : f.stateOf? id = some .pending)
    (h : Breaks (conclude (ω := ω) id) f w e w') :
    e = .stalled ∧
      ∃ m l, f.get? id = some m ∧ Meets askBusyTime m.link w (.error .stalled) l w' := by
  rcases breaks_conclude.1 h with ⟨m, l, hm, ⟨hmeets, rfl⟩ | ⟨used, -, hillegal, -⟩⟩
  · exact ⟨rfl, m, l, hm, hmeets⟩
  · rw [state_eq_of_get? hs hm] at hillegal
    exact absurd (by decide) hillegal

/-! ## Reading a result -/

theorem ends_discardResult {u : Unit} :
    Ends (discardResult (ω := ω) id) f w u f' w' ↔
      (f.get? id = none ∧ f' = f ∧ w' = w) ∨
        ∃ m l v, f.get? id = some m ∧
          ((∃ r, Meets WorkResult.recv m.link w (.ok r) l v ∧
              Ends (conclude id) (f.withLink id l) v u f' w') ∨
            ∃ e, Meets WorkResult.recv m.link w (.error (.failed e)) l v ∧
              Leaves f id l v f' w') := by
  simp only [discardResult, ends_bind, ends_exchange]
  constructor
  · intro h
    rcases h with ⟨t, g, v, ⟨hm, rfl, rfl, rfl⟩ | ⟨m, x, l, hm, hmeets, rfl, rfl⟩, h⟩
    · simp only [ends_pure] at h
      exact .inl ⟨hm, h.2.1.symm, h.2.2.symm⟩
    · refine .inr ⟨m, l, v, hm, ?_⟩
      cases x with
      -- what has come is no result
      | error e => exact .inr ⟨e, hmeets, (ends_drop_withLink hm).1 h⟩
      | ok r => exact .inl ⟨r, hmeets, ends_bind.2 (ends_bind.1 h)⟩
  · intro h
    rcases h with ⟨hm, rfl, rfl⟩ | ⟨m, l, v, hm, ⟨r, hmeets, h⟩ | ⟨e, hmeets, hleaves⟩⟩
    · exact ⟨none, f', w', .inl ⟨hm, rfl, rfl, rfl⟩, ends_pure.2 ⟨rfl, rfl, rfl⟩⟩
    · exact ⟨_, _, _, .inr ⟨m, .ok r, l, hm, hmeets, rfl, rfl⟩, ends_bind.2 (ends_bind.1 h)⟩
    · exact ⟨_, _, _, .inr ⟨m, .error e, l, hm, hmeets, rfl, rfl⟩,
        (ends_drop_withLink hm).2 hleaves⟩

theorem breaks_discardResult :
    Breaks (discardResult (ω := ω) id) f w e w' ↔
      ∃ m l, f.get? id = some m ∧
        ((Meets WorkResult.recv m.link w (.error .stalled) l w' ∧ e = .stalled) ∨
          ∃ r v, Meets WorkResult.recv m.link w (.ok r) l v ∧
            Breaks (conclude id) (f.withLink id l) v e w') := by
  simp only [discardResult, breaks_bind, breaks_exchange, ends_exchange]
  constructor
  · rintro (⟨rfl, m, l, hm, hmeets⟩ |
      ⟨t, g, v, ⟨hm, rfl, rfl, rfl⟩ | ⟨m, x, l, hm, hmeets, rfl, rfl⟩, h⟩)
    · exact ⟨m, l, hm, .inl ⟨hmeets, rfl⟩⟩
    · exact absurd h not_breaks_pure
    · cases x with
      -- a link that fails is a reason to drop its member, not to break off
      | error e => exact absurd h not_breaks_drop
      | ok r => exact ⟨m, l, hm, .inr ⟨r, v, hmeets, breaks_bind.2 (breaks_bind.1 h)⟩⟩
  · intro h
    rcases h with ⟨m, l, hm, ⟨hmeets, rfl⟩ | ⟨r, v, hmeets, h⟩⟩
    · exact .inl ⟨rfl, m, l, hm, hmeets⟩
    · exact .inr ⟨_, _, _, .inr ⟨m, .ok r, l, hm, hmeets, rfl, rfl⟩,
        breaks_bind.2 (breaks_bind.1 h)⟩

variable {a : Assignment} {sofar y : Bool × Totals Real64}

theorem accept_eq_some {t t' : Totals Real64} {r : WorkResult} (h : accept a t r = .ok (some t')) :
    r.Matches a.digest a.parameter ∧ t.merge r.batch = .ok (some t') := by
  unfold accept at h
  split at h
  · rename_i hmatches
    exact ⟨hmatches, h⟩
  · cases h

theorem concluding_eq (id : MemberId) (y : Bool × Totals Real64) :
    (do
      match ← updateBusyTime id with
      | .ok _ =>
        markIdle id
        return y
      | .error _ =>
        drop id
        return y : FleetM ω ρ (Bool × Totals Real64)) = (do conclude id; return y) := by
  rw [conclude, bind_assoc]
  congr 1
  funext x
  cases x <;> rfl

theorem readResult_eq (a : Assignment) (id : MemberId) (sofar : Bool × Totals Real64) :
    readResult (ω := ω) (ρ := ρ) a id sofar = (do
      match ← exchange id WorkResult.recv with
      | none => return sofar
      | some (.error _) =>
        drop id
        return sofar
      | some (.ok r) =>
        match accept a sofar.2 r with
        | .error f => throw (.totals f)
        | .ok none =>
          reset id
          return sofar
        | .ok (some totals) =>
          conclude id
          return (true, totals)) := by
  unfold readResult
  congr 1
  funext x
  -- the cases with no member and with a failed link are written alike
  rcases x with _ | _ | r
  · rfl
  · rfl
  · dsimp only
    rcases accept a sofar.2 r with fault | _ | t
    · rfl
    · rfl
    · exact concluding_eq id (true, t)

theorem ends_readResult :
    Ends (readResult (ω := ω) a id sofar) f w y f' w' ↔
      (f.get? id = none ∧ y = sofar ∧ f' = f ∧ w' = w) ∨
        ∃ m l v, f.get? id = some m ∧
          ((∃ r, Meets WorkResult.recv m.link w (.ok r) l v ∧
              ((accept a sofar.2 r = .ok none ∧ y = sofar ∧
                  f' = (f.withLink id l).withState id .fresh ∧ w' = v) ∨
                ∃ t, accept a sofar.2 r = .ok (some t) ∧ y = (true, t) ∧
                  Ends (conclude id) (f.withLink id l) v () f' w')) ∨
            ∃ e, Meets WorkResult.recv m.link w (.error (.failed e)) l v ∧ y = sofar ∧
              Leaves f id l v f' w') := by
  simp only [readResult_eq, ends_bind, ends_exchange]
  constructor
  · intro h
    rcases h with ⟨t, g, v, ⟨hm, rfl, rfl, rfl⟩ | ⟨m, x, l, hm, hmeets, rfl, rfl⟩, h⟩
    · simp only [ends_pure] at h
      exact .inl ⟨hm, h.1.symm, h.2.1.symm, h.2.2.symm⟩
    · refine .inr ⟨m, l, v, hm, ?_⟩
      cases x with
      | error e =>
        simp only [ends_bind, ends_pure] at h
        rcases h with ⟨_, g, v', hdrop, rfl, rfl, rfl⟩
        exact .inr ⟨e, hmeets, rfl, (ends_drop_withLink hm).1 hdrop⟩
      | ok r =>
        refine .inl ⟨r, hmeets, ?_⟩
        -- the reply decides: overflow, refusal or totals with it added
        rcases hacc : accept a sofar.2 r with fault | _ | t <;> simp only [hacc] at h
        · exact absurd h not_ends_throw
        · simp only [ends_bind, ends_pure, ends_reset] at h
          rcases h with ⟨_, g, v', ⟨rfl, rfl⟩, rfl, rfl, rfl⟩
          exact .inl ⟨rfl, rfl, rfl, rfl⟩
        · simp only [ends_bind, ends_pure] at h
          rcases h with ⟨_, g, v', hconclude, rfl, rfl, rfl⟩
          exact .inr ⟨t, rfl, rfl, hconclude⟩
  · intro h
    rcases h with ⟨hm, rfl, rfl, rfl⟩ | ⟨m, l, v, hm, ⟨r, hmeets, h⟩ | ⟨e, hmeets, rfl, hleaves⟩⟩
    · exact ⟨none, f', w', .inl ⟨hm, rfl, rfl, rfl⟩, ends_pure.2 ⟨rfl, rfl, rfl⟩⟩
    · refine ⟨_, _, _, .inr ⟨m, .ok r, l, hm, hmeets, rfl, rfl⟩, ?_⟩
      rcases h with ⟨hacc, rfl, rfl, rfl⟩ | ⟨t, hacc, rfl, hconclude⟩
      · simp only [hacc]
        exact ends_bind.2 ⟨(), _, _, ends_reset.2 ⟨rfl, rfl⟩, ends_pure.2 ⟨rfl, rfl, rfl⟩⟩
      · simp only [hacc]
        exact ends_bind.2 ⟨(), _, _, hconclude, ends_pure.2 ⟨rfl, rfl, rfl⟩⟩
    · refine ⟨_, _, _, .inr ⟨m, .error e, l, hm, hmeets, rfl, rfl⟩, ?_⟩
      exact ends_bind.2 ⟨(), _, _, (ends_drop_withLink hm).2 hleaves, ends_pure.2 ⟨rfl, rfl, rfl⟩⟩

theorem breaks_readResult :
    Breaks (readResult (ω := ω) a id sofar) f w e w' ↔
      ∃ m l, f.get? id = some m ∧
        ((Meets WorkResult.recv m.link w (.error .stalled) l w' ∧ e = .stalled) ∨
          ∃ r v, Meets WorkResult.recv m.link w (.ok r) l v ∧
            ((∃ fault, accept a sofar.2 r = .error fault ∧ e = .totals fault ∧ w' = v) ∨
              ∃ t, accept a sofar.2 r = .ok (some t) ∧
                Breaks (conclude id) (f.withLink id l) v e w')) := by
  simp only [readResult_eq, breaks_bind, breaks_exchange, ends_exchange]
  constructor
  · rintro (⟨rfl, m, l, hm, hmeets⟩ |
      ⟨t, g, v, ⟨hm, rfl, rfl, rfl⟩ | ⟨m, x, l, hm, hmeets, rfl, rfl⟩, h⟩)
    · exact ⟨m, l, hm, .inl ⟨hmeets, rfl⟩⟩
    · exact absurd h not_breaks_pure
    · refine ⟨m, l, hm, ?_⟩
      cases x with
      | error e =>
        simp only [breaks_bind, not_breaks_drop, not_breaks_pure, and_false, exists_false,
          or_self] at h
      | ok r =>
        refine .inr ⟨r, v, hmeets, ?_⟩
        -- a refusal never breaks off, the other two may
        rcases hacc : accept a sofar.2 r with fault | _ | t <;> simp only [hacc] at h
        · rcases breaks_throw.1 h with ⟨rfl, rfl⟩
          exact .inl ⟨fault, rfl, rfl, rfl⟩
        · simp only [breaks_bind, not_breaks_reset, not_breaks_pure, and_false, exists_false,
            or_self] at h
        · simp only [breaks_bind, not_breaks_pure, and_false, exists_false, or_false] at h
          exact .inr ⟨t, rfl, h⟩
  · intro h
    rcases h with ⟨m, l, hm, ⟨hmeets, rfl⟩ | ⟨r, v, hmeets, h⟩⟩
    · exact .inl ⟨rfl, m, l, hm, hmeets⟩
    · refine .inr ⟨_, _, _, .inr ⟨m, .ok r, l, hm, hmeets, rfl, rfl⟩, ?_⟩
      rcases h with ⟨fault, hacc, rfl, rfl⟩ | ⟨t, hacc, h⟩
      · simp only [hacc]
        exact breaks_throw.2 ⟨rfl, rfl⟩
      · simp only [hacc]
        exact breaks_bind.2 (.inl h)

/-! ## What a task changes -/

theorem Leaves.get? {l : Link ρ} {v : ω} (h : Leaves f id l v f' w') (other : MemberId) :
    f'.get? other = if other = id then none else f.get? other := by
  rcases h with ⟨rfl, -⟩
  rw [get?_without]
  split
  · rfl
  · rename_i hne
    rw [get?_withLink, if_neg hne]

theorem Leaves.changes {l : Link ρ} {v : ω} (h : Leaves f id l v f' w') : Changes id f f' := by
  rcases h with ⟨rfl, -⟩
  exact (changes_modifyMember f id _).trans (changes_without _ id)

theorem Leaves.get?_eq_none {l : Link ρ} {v : ω} (h : Leaves f id l v f' w') :
    f'.get? id = none := by
  rw [h.get?, if_pos rfl]

theorem changes_tell {act : LinkM ω ρ Unit} {target : MemberState} {sources : List MemberState}
    {u : Unit} (h : Ends (tell act target sources id) f w u f' w') : Changes id f f' := by
  rcases ends_tell.1 h with ⟨-, rfl, -⟩ | ⟨m, l, v, -, ⟨-, -, rfl, -⟩ | ⟨e, -, hleaves⟩⟩
  · exact ⟨rfl, fun _ _ => rfl⟩
  · exact (changes_modifyMember f id _).trans (changes_modifyMember _ id _)
  · exact hleaves.changes

/-- A member that is still there was told everything. -/
theorem member_of_tell {act : LinkM ω ρ Unit} {target : MemberState}
    {sources : List MemberState} {u : Unit} {x : Member ρ}
    (h : Ends (tell act target sources id) f w u f' w') (hx : f'.get? id = some x) :
    ∃ m v, f.get? id = some m ∧ Meets act m.link w (.ok ()) x.link v ∧ x.state = target := by
  rcases ends_tell.1 h with ⟨hnone, rfl, -⟩ | ⟨m, l, v, hm, ⟨hmeets, -, rfl, -⟩ | ⟨e, -, hleaves⟩⟩
  · rw [hnone] at hx
    cases hx
  · have hnow : some { m with link := l, state := target } = some x := by
      rw [← hx]
      simp [hm]
    cases hnow
    exact ⟨m, v, hm, hmeets, rfl⟩
  · rw [hleaves.get?_eq_none] at hx
    cases hx

theorem changes_conclude {u : Unit} (h : Ends (conclude (ω := ω) id) f w u f' w') :
    Changes id f f' := by
  rcases ends_conclude.1 h with ⟨-, rfl, -⟩ | ⟨m, l, v, -, ⟨used, -, -, rfl, -⟩ | ⟨e, -, hleaves⟩⟩
  · exact ⟨rfl, fun _ _ => rfl⟩
  · have hlink : Changes id f (f.withLink id l) := changes_modifyMember f id _
    have hbusy := hlink.trans (changes_addBusyTime _ id used)
    exact hbusy.trans (changes_modifyMember _ id _)
  · exact hleaves.changes

/-- A member that is still there has told its busy time and is ready. -/
theorem member_of_conclude {u : Unit} {x : Member ρ}
    (h : Ends (conclude (ω := ω) id) f w u f' w') (hx : f'.get? id = some x) :
    ∃ m used v, f.get? id = some m ∧ Meets askBusyTime m.link w (.ok used) x.link v ∧
      x.state = .idle := by
  rcases ends_conclude.1 h with ⟨hnone, rfl, -⟩ |
    ⟨m, l, v, hm, ⟨used, hmeets, -, rfl, -⟩ | ⟨e, -, hleaves⟩⟩
  · rw [hnone] at hx
    cases hx
  · have hnow : some { m with link := l, state := .idle, busyTime := m.busyTime + used } =
        some x := by
      rw [← hx]
      simp [concluded, hm]
    cases hnow
    exact ⟨m, used, v, hm, hmeets, rfl⟩
  · -- a member that has left is not there
    rw [hleaves.get?_eq_none] at hx
    cases hx

theorem changes_discardResult {u : Unit} (h : Ends (discardResult (ω := ω) id) f w u f' w') :
    Changes id f f' := by
  rcases ends_discardResult.1 h with ⟨-, rfl, -⟩ | ⟨m, l, v, -, ⟨r, -, hc⟩ | ⟨e, -, hleaves⟩⟩
  · exact ⟨rfl, fun _ _ => rfl⟩
  · exact (changes_modifyMember f id _).trans (changes_conclude hc)
  · exact hleaves.changes

theorem changes_readResult (h : Ends (readResult (ω := ω) a id sofar) f w y f' w') :
    Changes id f f' := by
  rcases ends_readResult.1 h with ⟨-, -, rfl, -⟩ |
    ⟨m, l, v, -, ⟨r, -, ⟨-, -, rfl, -⟩ | ⟨t, -, -, hc⟩⟩ | ⟨e, -, -, hleaves⟩⟩
  · exact ⟨rfl, fun _ _ => rfl⟩
  · exact (changes_modifyMember f id _).trans (changes_modifyMember _ id _)
  · exact (changes_modifyMember f id _).trans (changes_conclude hc)
  · exact hleaves.changes

/-- A member that is still there has delivered, has told its busy time and is ready. -/
theorem member_of_discardResult {u : Unit} {x : Member ρ}
    (h : Ends (discardResult (ω := ω) id) f w u f' w') (hx : f'.get? id = some x) :
    ∃ m r l v used v', f.get? id = some m ∧ Meets WorkResult.recv m.link w (.ok r) l v ∧
      Meets askBusyTime l v (.ok used) x.link v' ∧ x.state = .idle := by
  rcases ends_discardResult.1 h with ⟨hnone, rfl, -⟩ |
    ⟨m, l, v, hm, ⟨r, hmeets, hc⟩ | ⟨e, -, hleaves⟩⟩
  · rw [hnone] at hx
    cases hx
  · rcases member_of_conclude hc hx with ⟨m', used, v', hm', hbusy, hidle⟩
    cases (get?_withLink_self hm l).symm.trans hm'
    exact ⟨m, r, l, v, used, v', hm, hmeets, hbusy, hidle⟩
  · rw [hleaves.get?_eq_none] at hx
    cases hx

theorem idle_or_gone_of_conclude {u : Unit} (h : Ends (conclude (ω := ω) id) f w u f' w') :
    f'.stateOf? id = some .idle ∨ f'.get? id = none := by
  cases hx : f'.get? id with
  | none => exact .inr rfl
  | some x =>
    rcases member_of_conclude h hx with ⟨_, _, _, -, -, hidle⟩
    exact .inl (stateOf?_eq_some_iff.2 ⟨x, hx, hidle⟩)

theorem idle_or_gone_of_discardResult {u : Unit}
    (h : Ends (discardResult (ω := ω) id) f w u f' w') :
    f'.stateOf? id = some .idle ∨ f'.get? id = none := by
  cases hx : f'.get? id with
  | none => exact .inr rfl
  | some x =>
    rcases member_of_discardResult h hx with ⟨_, _, _, _, _, _, -, -, -, hidle⟩
    exact .inl (stateOf?_eq_some_iff.2 ⟨x, hx, hidle⟩)

end FleetEstimate.Fleet
