import FleetEstimate.Proofs.Fleet.Moments
import FleetEstimate.Proofs.Fleet.Passes
import FleetEstimate.Proofs.Fleet.Settlement

/-!
# Calls are made of tasks

What a coordinator is called to do between two runs, and a run itself, is one task after
the other. A call that ends has gone through the moments between its tasks, and a call that
breaks off has done so in the handling of one member, after other tasks.
-/

namespace FleetEstimate

namespace Moment

open Fleet

variable {ω ρ : Type} [World ω ρ] [Traffic ρ]
variable {f f' g : Fleet ρ} {w w' v : ω} {added : List (Added ρ)} {e : FleetFault}

/-- A task breaks off. -/
inductive Fails : Moment ω ρ → FleetFault → ω → Prop
  | discarding {f : Fleet ρ} {w : ω} {added id e w'} (pending : f.stateOf? id = some .pending)
      (breaks : Breaks (discardResult id) f w e w') : Fails ⟨f, w, none, added⟩ e w'
  | assigning {f : Fleet ρ} {w : ω} {run added id e w'} (first : f.find? .fresh = some id)
      (breaks : Breaks (assign run.assignment id) f w e w') : Fails ⟨f, w, some run, added⟩ e w'
  | handing {f : Fleet ρ} {w : ω} {run added id e w'} (first : f.find? .idle = some id)
      (breaks : Breaks (handWork id) f w e w') : Fails ⟨f, w, some run, added⟩ e w'
  | reading {f : Fleet ρ} {w : ω} {run added id any e w'} (first : f.find? .pending = some id)
      (breaks : Breaks (readResult run.assignment id (any, run.totals)) f w e w') :
      Fails ⟨f, w, some run, added⟩ e w'
  /-- The passes of the run cannot be counted any more. -/
  | counting {f : Fleet ρ} {w : ω} {run added} :
      Fails ⟨f, w, some run, added⟩ (.totals .countOverflow) w

/-! ## Settling -/

/-- Members that are working leave one after the other. -/
theorem tasks_forM_drop {ids : List MemberId} {u : Unit} (hnodup : ids.Nodup)
    (hworking : ∀ id ∈ ids, f.stateOf? id = some .working)
    (h : Ends (ids.forM fun id => drop (ω := ω) id) f w u f' w') :
    Tasks ⟨f, w, none, added⟩ ⟨f', w', none, added⟩ := by
  induction ids generalizing f w with
  | nil =>
    rcases ends_pure.1 h with ⟨-, rfl, rfl⟩
    exact .refl
  | cons id ids ih =>
    change Ends (drop id >>= fun _ => ids.forM fun id => drop id) f w u f' w' at h
    rcases ends_bind.1 h with ⟨⟨⟩, g, v, hdrop, hrest⟩
    rcases List.nodup_cons.1 hnodup with ⟨hnot, hnodup'⟩
    -- the others are still working when their turn comes
    have hstill : ∀ i ∈ ids, g.stateOf? i = some .working := by
      intro i hi
      have hne : i ≠ id := by
        intro heq
        exact hnot (heq ▸ hi)
      have hsame : g.get? i = f.get? i := by
        rcases ends_drop.1 hdrop with ⟨-, rfl, -⟩ | ⟨m, -, rfl, -⟩
        · rfl
        · exact (changes_without f id).get? i hne
      rw [stateOf?_congr hsame]
      exact hworking i (List.mem_cons_of_mem id hi)
    have htask : Task (⟨f, w, none, added⟩ : Moment ω ρ) ⟨g, v, none, added⟩ :=
      .dropped (hworking id List.mem_cons_self) hdrop
    exact .head htask (ih hnodup' hstill hrest)

theorem tasks_settling (h : Settling f w g v) :
    Tasks (⟨f, w, none, added⟩ : Moment ω ρ) ⟨g, v, none, added⟩ := by
  induction h with
  | start => exact .refl
  | waited _ _ wait ih => exact ih.tail (.waited wait)
  | discarded _ first discard ih => exact ih.tail (.discarded first discard)
  | gaveUp _ giveUp ih =>
    -- the only step that is several tasks: one for every member that is working
    simp only [dropWorking, ends_getFleet_bind] at giveUp
    exact ih.trans (tasks_forM_drop nodup_idsIn (fun id hid => mem_idsIn.1 hid) giveUp)

/-- If nobody is `pending`, nobody is after a settlement. -/
theorem tasks_settle (added : List (Added ρ)) {u : Unit} (hread : f.find? .pending = none)
    (h : Ends settle f w u f' w') :
    Tasks ⟨f, w, none, added⟩ ⟨f', w', none, added⟩ ∧ f'.find? .working = none ∧
      f'.find? .pending = none := by
  have hsettled := settled_of_ends h
  refine ⟨tasks_settling (ends_settleWithin (ends_settle.1 h)).1, ?_, ?_⟩
  · exact find?_eq_none_iff.2 hsettled.none_working
  · exact find?_eq_none_iff.2 (hsettled.none_pending_iff.2 (.inl (find?_eq_none_iff.1 hread)))

/-- A settlement breaks off while a result is discarded. -/
theorem fails_settle (h : Breaks settle f w e w') :
    ∃ m, Tasks ⟨f, w, none, added⟩ m ∧ Fails m e w' := by
  rcases breaks_settleWithin (breaks_settle.1 h) with
    ⟨rfl, g, v, id, hset, m, l, hm, hpending, hstalls⟩
  refine ⟨⟨g, v, none, added⟩, tasks_settling hset, ?_⟩
  refine .discarding (stateOf?_eq_some_iff.2 ⟨m, hm, hpending⟩) (breaks_discardResult.2 ?_)
  rcases hstalls with hresult | ⟨r, l₁, v₁, hresult, hbusy⟩
  · exact ⟨m, l, hm, .inl ⟨hresult, rfl⟩⟩
  · refine ⟨m, l₁, hm, .inr ⟨r, v₁, hresult, breaks_conclude.2 ?_⟩⟩
    exact ⟨{ m with link := l₁ }, l, by simp [hm], .inl ⟨hbusy, rfl⟩⟩

/-! ## One pass -/

variable {r : Run}

theorem tasks_assign (added : List (Added ρ)) {u : Unit}
    (h : Handling .fresh (fun id () => assign r.assignment id) () f w u g v) :
    Tasks (⟨f, w, some r, added⟩ : Moment ω ρ) ⟨g, v, some r, added⟩ := by
  induction h with
  | none => exact .refl
  | more _ first step ih => exact ih.tail (.assigned first step)

theorem tasks_handWork (added : List (Added ρ)) {u : Unit}
    (h : Handling .idle (fun id () => handWork id) () f w u g v) :
    Tasks (⟨f, w, some r, added⟩ : Moment ω ρ) ⟨g, v, some r, added⟩ := by
  induction h with
  | none => exact .refl
  | more _ first step ih => exact ih.tail (.handed first step)

theorem tasks_getReady (added : List (Added ρ)) {ev : Event}
    (h : Ends (getReady r.assignment) f w ev f' w') :
    Tasks ⟨f, w, some r, added⟩ ⟨f', w', some r, added⟩ := by
  simp only [getReady, ends_bind] at h
  rcases h with ⟨_, _, _, hassign, _, _, _, hwork, hwait⟩
  have hassigned := tasks_assign added (ends_handleAll hassign)
  have hhanded := tasks_handWork (r := r) added (ends_handleAll hwork)
  exact (hassigned.trans hhanded).tail (.listened hwait)

/-- What is read is added to the totals of the run, or leaves them as they are. -/
theorem tasks_readResult (added : List (Added ρ)) {y : Bool × Totals Real64}
    (h : Handling .pending (readResult r.assignment) (false, r.totals) f w y g v) :
    ∃ added', Tasks (⟨f, w, some r, added⟩ : Moment ω ρ)
      ⟨g, v, some { r with totals := y.2 }, added'⟩ := by
  -- the run of each moment has the totals that are read so far
  induction h with
  | none => exact ⟨added, .refl⟩
  | @more id sofar g v y g' v' _ first step ih =>
    rcases ih with ⟨added', hsofar⟩
    have hmember : g.get? id ≠ none := by
      intro hnone
      have hpending := stateOf?_of_find? first
      rw [Fleet.stateOf?, hnone] at hpending
      cases hpending
    rcases ends_readResult.1 step with ⟨hnone, -⟩ | ⟨m, l, v₁, hm, ⟨r', hmeets, hreply⟩ |
      ⟨e, hmeets, rfl, hleaves⟩⟩
    · exact absurd hnone hmember
    · rcases hreply with ⟨hacc, rfl, rfl, rfl⟩ | ⟨t, hacc, rfl, hconclude⟩
      · exact ⟨added', hsofar.tail (.refused first hm hmeets hacc)⟩
      · exact ⟨_, hsofar.tail (.counted first hm hmeets hacc hconclude)⟩
    · exact ⟨added', hsofar.tail (.lost first hm hmeets hleaves)⟩

variable {E : Type} {s s' : Estimator E}

theorem tasks_afterReading (added : List (Added ρ)) {y : Bool × Totals Real64}
    (h : Ends (Estimator.afterReading s y) f w s' f' w') :
    Tasks ⟨f, w, some r, added⟩ ⟨f', w', some r, added⟩ ∧ f' = f ∧ s' = { s with totals := y.2 } := by
  rcases Estimator.ends_afterReading h with ⟨rfl, rfl, rfl | ⟨r, rfl⟩⟩
  · exact ⟨.refl, rfl, rfl⟩
  · exact ⟨.single (.reported r), rfl, rfl⟩

/-- After a pass every result is read. -/
theorem tasks_pass (added : List (Added ρ)) (htotals : r.totals = s.totals)
    (h : Ends (s.pass r.assignment) f w s' f' w') :
    ∃ added', Tasks ⟨f, w, some r, added⟩ ⟨f', w', some { r with totals := s'.totals }, added'⟩ ∧
      f'.find? .pending = none := by
  rw [Estimator.pass_eq] at h
  rcases ends_bind.1 h with ⟨_, f₁, w₁, hready, h⟩
  rcases ends_bind.1 h with ⟨y, f₂, w₂, hread, hafter⟩
  have hnone := find?_handleAll lessens_readResult hread
  have hhandling := ends_handleAll hread
  rw [← htotals] at hhandling
  rcases tasks_readResult added hhandling with ⟨added', hadded⟩
  rcases tasks_afterReading (r := { r with totals := y.2 }) added' hafter with
    ⟨hreported, rfl, rfl⟩
  exact ⟨added', ((tasks_getReady added hready).trans hadded).trans hreported, hnone⟩

theorem fails_getReady (h : Breaks (getReady r.assignment) f w e w') :
    ∃ m, Tasks ⟨f, w, some r, added⟩ m ∧ Fails m e w' := by
  simp only [getReady, breaks_bind, not_breaks_waitForEvent, and_false, exists_false,
    or_false] at h
  rcases h with hassign | ⟨_, g, v, hassign, hwork⟩
  · rcases breaks_handleAll hassign with ⟨id, _, g, v, hhandling, hfirst, hbreak⟩
    exact ⟨_, tasks_assign added hhandling, .assigning hfirst hbreak⟩
  · rcases breaks_handleAll hwork with ⟨id, _, g', v', hhandling, hfirst, hbreak⟩
    have hassigned := tasks_assign added (ends_handleAll hassign)
    exact ⟨_, hassigned.trans (tasks_handWork added hhandling), .handing hfirst hbreak⟩

/-- A pass breaks off with one of its members. -/
theorem fails_pass (htotals : r.totals = s.totals) (h : Breaks (s.pass r.assignment) f w e w') :
    ∃ m, Tasks ⟨f, w, some r, added⟩ m ∧ Fails m e w' := by
  rw [Estimator.pass_eq] at h
  simp only [breaks_bind, Estimator.not_breaks_afterReading, and_false, exists_false,
    or_false] at h
  rcases h with hready | ⟨ev, f₁, w₁, hready, hread⟩
  · exact fails_getReady hready
  · rcases breaks_handleAll hread with ⟨id, ⟨any, t⟩, g, v, hhandling, hfirst, hbreak⟩
    rw [← htotals] at hhandling
    rcases tasks_readResult added hhandling with ⟨added', hadded⟩
    exact ⟨_, (tasks_getReady added hready).trans hadded, .reading hfirst hbreak⟩

/-! ## A whole run -/

theorem tasks_passUntilDone (added : List (Added ρ)) {counts : ℕ} {x : Estimate Real64}
    (htotals : r.totals = s.totals)
    (h : Ends (s.passUntilDone r.assignment counts) f w (x, s') f' w') :
    ∃ added', Tasks ⟨f, w, some r, added⟩ ⟨f', w', some { r with totals := s'.totals }, added'⟩ ∧
      f'.find? .pending = none := by
  -- each pass goes on with the run as the pass before has left it
  induction counts generalizing s r f w added with
  | zero => exact absurd h not_ends_throw
  | succ counts ih =>
    rw [Estimator.passUntilDone] at h
    rcases ends_bind.1 h with ⟨t, g, v, hpass, hrest⟩
    rw [ends_getWorld_bind] at hrest
    rcases tasks_pass added htotals hpass with ⟨added', hpassed, hnone⟩
    split at hrest
    · rcases ends_pure.1 hrest with ⟨heq, rfl, rfl⟩
      cases heq
      exact ⟨added', hpassed, hnone⟩
    · rcases ih (r := { r with totals := t.totals }) added' rfl hrest with
        ⟨added'', hrest', hnone'⟩
      exact ⟨added'', hpassed.trans hrest', hnone'⟩

theorem fails_passUntilDone (added : List (Added ρ)) {counts : ℕ} (htotals : r.totals = s.totals)
    (h : Breaks (s.passUntilDone r.assignment counts) f w e w') :
    ∃ m, Tasks ⟨f, w, some r, added⟩ m ∧ Fails m e w' := by
  induction counts generalizing s r f w added with
  | zero =>
    rcases breaks_throw.1 h with ⟨rfl, rfl⟩
    exact ⟨_, .refl, .counting⟩
  | succ counts ih =>
    rw [Estimator.passUntilDone] at h
    rcases breaks_bind.1 h with hpass | ⟨t, g, v, hpass, hrest⟩
    · exact fails_pass htotals hpass
    · -- the passes before the one that fails are tasks
      rcases tasks_pass added htotals hpass with ⟨added', hpassed, -⟩
      rw [breaks_getWorld_bind] at hrest
      split at hrest
      · exact absurd hrest not_breaks_pure
      · rcases ih (r := { r with totals := t.totals }) added' rfl hrest with
          ⟨m, hrest', hfails⟩
        exact ⟨m, hpassed.trans hrest', hfails⟩

variable [Experiment E] {x : Estimate Real64}

/-- The run of an estimator, begun when so many results were added, that has left it as
`s'`. -/
structure Ran (s s' : Estimator E) (mark : ℕ) (r : Run) : Prop where
  assignment : r.assignment = .of s.experiment
  mark : r.mark = mark
  start : r.start = .zero (Experiment.count s.experiment)
  totals : r.totals = s'.totals

theorem eq_of_start (h : s.start = .ok s') :
    s'.experiment = s.experiment ∧ s'.totals = .zero (Experiment.count s.experiment) := by
  unfold Estimator.start Estimator.dimension at h
  split at h
  · cases h
  · cases h
    exact ⟨rfl, rfl⟩

omit [Traffic ρ] in
/-- A run that is refused leaves everything as it is. -/
theorem eq_of_refused {err : EstimationError}
    (h : Ends s.estimateDistributed f w (.error err) f' w') : f' = f ∧ w' = w := by
  unfold Estimator.estimateDistributed at h
  cases hstart : s.start with
  | error err' =>
    rw [hstart] at h
    rcases ends_pure.1 h with ⟨-, rfl, rfl⟩
    exact ⟨rfl, rfl⟩
  | ok s₀ =>
    rw [hstart] at h
    simp only [ends_bind, ends_pure, reduceCtorEq, false_and, and_false, exists_false] at h

/-- With every result read, a run begins once the fleet is settled. -/
theorem tasks_begin (added : List (Added ρ)) {f₁ f₂ : Fleet ρ} {w₁ w₂ : ω}
    (hread : f.find? .pending = none) (hstart : s.start = .ok s')
    (hsettle : Ends settle f w () f₁ w₁) (hreset : Ends resetAll f₁ w₁ () f₂ w₂)
    (htime : Ends resetBusyTime f₂ w₂ () f' w') :
    ∃ r, Tasks ⟨f, w, none, added⟩ ⟨f', w', some r, added⟩ ∧ Ran s s' added.length r := by
  rcases eq_of_start hstart with ⟨-, htotals⟩
  rcases tasks_settle added hread hsettle with ⟨hsettled, hidle, hnone⟩
  have hbegan : Task (⟨f₁, w₁, none, added⟩ : Moment ω ρ) ⟨f', w',
      some ⟨.of s.experiment, givenBy f₁, added.length, s'.totals, s'.totals⟩, added⟩ :=
    .began _ _ hidle hnone (ends_bind.2 ⟨_, f₂, w₂, hreset, htime⟩)
  exact ⟨_, hsettled.tail hbegan, ⟨rfl, rfl, htotals, rfl⟩⟩

/-- If every result is read before a run, every result is read after it. -/
theorem tasks_estimateDistributed (hread : f.find? .pending = none)
    (h : Ends s.estimateDistributed f w (.ok (x, s')) f' w') :
    ∃ r added', Tasks ⟨f, w, none, added⟩ ⟨f', w', some r, added'⟩ ∧ Ran s s' added.length r ∧
      f'.find? .pending = none := by
  unfold Estimator.estimateDistributed at h
  cases hstart : s.start with
  | error err =>
    rw [hstart] at h
    cases (ends_pure.1 h).1
  | ok s₀ =>
    rw [hstart] at h
    rcases ends_bind.1 h with ⟨_, f₁, w₁, hsettle, h⟩
    rcases ends_bind.1 h with ⟨_, f₂, w₂, hreset, h⟩
    rcases ends_bind.1 h with ⟨_, f₃, w₃, htime, h⟩
    rcases ends_bind.1 h with ⟨⟨x', s₁⟩, f₄, w₄, hpasses, h⟩
    rcases ends_pure.1 h with ⟨heq, rfl, rfl⟩
    cases heq
    -- what comes before the passes is one beginning, whatever members do meanwhile
    rcases tasks_begin added hread hstart hsettle hreset htime with ⟨r, hbegan, hran⟩
    rw [(eq_of_start hstart).1, ← hran.assignment] at hpasses
    rcases tasks_passUntilDone added hran.totals hpasses with ⟨added', hpassed, hnone⟩
    exact ⟨_, added', hbegan.trans hpassed, ⟨hran.assignment, hran.mark, hran.start, rfl⟩, hnone⟩

theorem fails_estimateDistributed (hread : f.find? .pending = none)
    (h : Breaks s.estimateDistributed f w e w') :
    ∃ m, Tasks ⟨f, w, none, added⟩ m ∧ Fails m e w' := by
  unfold Estimator.estimateDistributed at h
  cases hstart : s.start with
  | error err =>
    rw [hstart] at h
    exact absurd h not_breaks_pure
  | ok s₀ =>
    rw [hstart] at h
    rcases breaks_bind.1 h with h | ⟨_, f₁, w₁, hsettle, h⟩
    · exact fails_settle h
    rcases breaks_bind.1 h with h | ⟨_, f₂, w₂, hreset, h⟩
    · -- nobody is asked anything here
      exact absurd h not_breaks_modifyFleet
    rcases breaks_bind.1 h with h | ⟨_, f₃, w₃, htime, h⟩
    · exact absurd h not_breaks_modifyFleet
    rcases breaks_bind.1 h with hpasses | ⟨_, _, _, _, h⟩
    · rcases tasks_begin added hread hstart hsettle hreset htime with ⟨r, hbegan, hran⟩
      rw [(eq_of_start hstart).1, ← hran.assignment] at hpasses
      rcases fails_passUntilDone added hran.totals hpasses with ⟨m, hpassed, hfails⟩
      exact ⟨m, hbegan.trans hpassed, hfails⟩
    · exact absurd h not_breaks_pure

end Moment

end FleetEstimate
