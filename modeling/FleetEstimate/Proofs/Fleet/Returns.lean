import FleetEstimate.Proofs.Estimation.Convergence
import FleetEstimate.Proofs.Fleet.Moments
import FleetEstimate.Proofs.Fleet.Showing
import FleetEstimate.Rehearsal.Stage

/-!
# What a run returns

A run goes through passes, each of which merges the batches of some results, or none. It ends
with the first pass behind which the stopping rule holds or the interrupt is raised, and it
returns what the totals say then: those of all batches that its passes have merged. Whoever
follows the run is shown a report of every pass that has merged any, and so the last report
shows what is returned.

An estimate that is kept from pass to pass and refreshed only with new results never lags behind
the totals.
-/

namespace FleetEstimate

theorem Totals.Sums.trans {α : Type} [Scalar α] {start t t' : Totals α}
    {batches batches' : List (Totals α)} (h : Sums start batches t) (h' : Sums t batches' t') :
    Sums start (batches ++ batches') t' := by
  induction h' with
  | none =>
    rw [List.append_nil]
    exact h
  | more _ merged ih =>
    rw [← List.append_assoc]
    exact .more ih merged

/-- A report shows what an estimate says. -/
structure Report.Tells (r : Report) (e : Estimate Real64) : Prop where
  samples : r.samples = e.samples
  mean : r.mean = e.worstMean
  percent : r.percent = percentOf e.accuracy

namespace Fleet

variable {ω ρ : Type} [World ω ρ] {f f' : Fleet ρ} {w w' : ω} {a : Assignment}

/-! ## Batches -/

/-- What the member `id` has sent is received as the result `r`. -/
def Yields (f : Fleet ρ) (w : ω) (id : MemberId) (r : WorkResult) : Prop :=
  ∃ m l v, f.get? id = some m ∧ Meets WorkResult.recv m.link w (.ok r) l v

/-- Results are read until nobody is `pending` any more, and those of the run that fit its totals
are merged, batch by batch. -/
inductive Merging (a : Assignment) (t : Totals Real64) (f : Fleet ρ) (w : ω) :
    List (Totals Real64) → Totals Real64 → Fleet ρ → ω → Prop
  | none : Merging a t f w [] t f w
  | merged {batches u g v id r u' g' v'} (sofar : Merging a t f w batches u g v)
      (first : g.find? .pending = some id) (yields : Yields g v id r)
      (belongs : r.Matches a.digest a.parameter) (fits : u.merge r.batch = .ok (some u'))
      (step : Ends (readResult a id (decide (batches ≠ []), u)) g v (true, u') g' v') :
      Merging a t f w (batches ++ [r.batch]) u' g' v'
  | passedOver {batches u g v id g' v'} (sofar : Merging a t f w batches u g v)
      (first : g.find? .pending = some id)
      (unfit : ∀ r, Yields g v id r → r.Matches a.digest a.parameter → u.merge r.batch = .ok .none)
      (step : Ends (readResult a id (decide (batches ≠ []), u)) g v
        (decide (batches ≠ []), u) g' v') :
      Merging a t f w batches u g' v'

theorem Merging.sums {t u : Totals Real64} {batches : List (Totals Real64)}
    (h : Merging a t f w batches u f' w') : t.Sums batches u := by
  induction h with
  | none => exact .none
  | merged _ _ _ _ fits _ ih => exact .more ih fits
  | passedOver _ _ _ _ ih => exact ih

theorem Merging.log_eq {log : ω → List Report} (hlog : Shows ω ρ log) {t u : Totals Real64}
    {batches : List (Totals Real64)} (h : Merging a t f w batches u f' w') : log w' = log w := by
  induction h with
  | none => rfl
  | merged _ _ _ _ _ step ih => rw [log_readResult hlog step, ih]
  | passedOver _ _ _ step ih => rw [log_readResult hlog step, ih]

theorem merge_of_accept_none {t : Totals Real64} {r : WorkResult} (h : accept a t r = .ok none)
    (hmatches : r.Matches a.digest a.parameter) : t.merge r.batch = .ok none := by
  unfold accept at h
  rwa [if_pos hmatches] at h

/-- Whatever is read is merged or passed over, and it is known whether any has been merged. -/
theorem merging_of_handling {t : Totals Real64} {y : Bool × Totals Real64}
    (h : Handling .pending (readResult a) (false, t) f w y f' w') :
    ∃ batches, y.1 = decide (batches ≠ []) ∧ Merging a t f w batches y.2 f' w' := by
  induction h with
  | none => exact ⟨[], rfl, .none⟩
  | @more id c g v c' g' v' _ first step ih =>
    rcases ih with ⟨batches, hany, hsofar⟩
    rcases c with ⟨any, u⟩
    obtain rfl : any = decide (batches ≠ []) := hany
    rcases ends_readResult.1 step with ⟨hnone, rfl, -⟩ | ⟨m, l, v₁, hm, ⟨r, hmeets, hreply⟩ |
      ⟨e, hmeets, rfl, -⟩⟩
    · refine ⟨batches, rfl, .passedOver hsofar first ?_ step⟩
      intro r hyields
      rcases hyields with ⟨m, l, v₁, hm, -⟩
      rw [hnone] at hm
      cases hm
    · rcases hreply with ⟨hacc, rfl, -⟩ | ⟨u', hacc, rfl, -⟩
      · refine ⟨batches, rfl, .passedOver hsofar first ?_ step⟩
        intro r' hyields hmatches
        -- a link yields one result
        rcases hyields with ⟨m', l', v₁', hm', hmeets'⟩
        rw [hm] at hm'
        cases hm'
        cases (hmeets.unique hmeets').1
        exact merge_of_accept_none hacc hmatches
      · rcases accept_eq_some hacc with ⟨hmatches, hmerge⟩
        have hsome : true = decide (batches ++ [r.batch] ≠ []) := by simp
        exact ⟨batches ++ [r.batch], hsome,
          .merged hsofar first ⟨m, l, v₁, hm, hmeets⟩ hmatches hmerge step⟩
    · refine ⟨batches, rfl, .passedOver hsofar first ?_ step⟩
      intro r hyields
      rcases hyields with ⟨m', l', v₁', hm', hmeets'⟩
      rw [hm] at hm'
      cases hm'
      cases (hmeets.unique hmeets').1

end Fleet

namespace Estimator

open Fleet

variable {E : Type} {ω ρ : Type} [World ω ρ] {log : ω → List Report}
variable {a : Assignment} {s s' : Estimator E} {f f' : Fleet ρ} {w w' : ω}

/-! ## Passes -/

/-- What a report at the end of a pass shows. -/
def progress (s : Estimator E) (f : Fleet ρ) (w : ω) : Report :=
  .ofEstimate s.evaluate (some f.size) (some (f.speedup (World.elapsed ρ w)))

/-- A pass that merges some batches and reports on them, or none. -/
inductive Passing (a : Assignment) (s : Estimator E) (f : Fleet ρ) (w : ω) :
    List (Totals Real64) → Estimator E → Fleet ρ → ω → Prop
  | quiet {ev f₁ w₁ f' w'} (ready : Ends (getReady a) f w ev f₁ w₁)
      (merging : Merging a s.totals f₁ w₁ [] s.totals f' w') : Passing a s f w [] s f' w'
  | added {ev f₁ w₁ batches t f' v} (ready : Ends (getReady a) f w ev f₁ w₁)
      (any : batches ≠ []) (merging : Merging a s.totals f₁ w₁ batches t f' v) :
      Passing a s f w batches { s with totals := t } f'
        (Watch.report (progress { s with totals := t } f' v) v)

theorem passing_of_ends (h : Ends (s.pass a) f w s' f' w') :
    ∃ batches, Passing a s f w batches s' f' w' := by
  rw [pass_eq] at h
  rcases ends_bind.1 h with ⟨ev, f₁, w₁, hready, h⟩
  rcases ends_bind.1 h with ⟨⟨any, t⟩, f₂, w₂, hread, hafter⟩
  rcases merging_of_handling (ends_handleAll hread) with ⟨batches, hany, hmerging⟩
  dsimp only at hany hmerging
  -- a pass reports exactly if it has merged a batch
  by_cases hnil : batches = []
  · subst hnil
    obtain rfl : any = false := hany
    obtain rfl : t = s.totals := hmerging.sums.eq_start
    rcases ends_pure.1 hafter with ⟨rfl, rfl, rfl⟩
    exact ⟨[], .quiet hready hmerging⟩
  · obtain rfl : any = true := by
      rw [hany]
      exact decide_eq_true hnil
    simp only [afterReading, if_true, ends_getFleet_bind, ends_getWorld_bind,
      ends_modifyWorld_bind] at hafter
    rcases ends_pure.1 hafter with ⟨rfl, rfl, rfl⟩
    exact ⟨batches, .added hready hnil hmerging⟩

theorem Passing.sums {batches : List (Totals Real64)} (h : Passing a s f w batches s' f' w') :
    s' = { s with totals := s'.totals } ∧ s.totals.Sums batches s'.totals := by
  cases h with
  | quiet _ merging => exact ⟨rfl, .none⟩
  | added _ _ merging => exact ⟨rfl, merging.sums⟩

/-! ## A run -/

/-- Behind a pass, the stopping rule holds for the totals or the interrupt is raised. -/
def Stops {E ω : Type} [Watch ω] (s : Estimator E) (w : ω) : Prop :=
  s.target.IsMet (s.totals.estimate s.multiplier) ∨ Watch.interrupted w = true

theorem stops_iff {E ω : Type} [Watch ω] {s : Estimator E} {w : ω} :
    Stops s w ↔ (s.evaluate.converged || Watch.interrupted w) = true := by
  rw [Bool.or_eq_true]
  exact or_congr decide_eq_true_iff.symm Iff.rfl

/-- Passes up to the first one behind which the run stops, with the batches that each of them
has merged. -/
inductive Course (a : Assignment) : Estimator E → Fleet ρ → ω → List (List (Totals Real64)) →
    Estimator E → Fleet ρ → ω → Prop
  | last {s f w batches s' f' w'} (pass : Ends (s.pass a) f w s' f' w')
      (passing : Passing a s f w batches s' f' w') (stops : Stops s' w') :
      Course a s f w [batches] s' f' w'
  | more {s f w batches s₁ f₁ w₁ passes s' f' w'} (pass : Ends (s.pass a) f w s₁ f₁ w₁)
      (passing : Passing a s f w batches s₁ f₁ w₁) (goesOn : ¬ Stops s₁ w₁)
      (rest : Course a s₁ f₁ w₁ passes s' f' w') : Course a s f w (batches :: passes) s' f' w'

theorem ends_passUntilDone_iff {counts : ℕ} {e : Estimate Real64} :
    Ends (s.passUntilDone a counts) f w (e, s') f' w' ↔
      ∃ passes, Course a s f w passes s' f' w' ∧ passes.length ≤ counts ∧ e = s'.evaluate := by
  -- by induction on the passes left: the first of them stops the run or hands on to the rest
  induction counts generalizing s f w with
  | zero =>
    constructor
    · intro h
      -- no pass left: the run has broken off, and a course has at least one pass
      exact absurd h not_ends_throw
    · intro h
      rcases h with ⟨passes, hcourse, hlen, -⟩
      obtain rfl := List.length_eq_zero_iff.1 (Nat.le_zero.1 hlen)
      cases hcourse
  | succ counts ih =>
    rw [passUntilDone]
    constructor
    · intro h
      rcases ends_bind.1 h with ⟨s₁, f₁, w₁, hpass, hrest⟩
      rcases passing_of_ends hpass with ⟨batches, hpassing⟩
      rw [ends_getWorld_bind] at hrest
      split at hrest
      · rename_i hstops
        rcases ends_pure.1 hrest with ⟨heq, rfl, rfl⟩
        cases heq
        exact ⟨[batches], .last hpass hpassing (stops_iff.2 hstops), by simp, rfl⟩
      · rename_i hgoesOn
        rcases ih.1 hrest with ⟨passes, hcourse, hlen, he⟩
        refine ⟨batches :: passes, .more hpass hpassing ?_ hcourse, by simpa using hlen, he⟩
        rwa [stops_iff]
    · intro h
      rcases h with ⟨passes, hcourse, hlen, rfl⟩
      cases hcourse with
      | last pass _ stops =>
        refine (ends_bind_of_ends pass).2 ?_
        rw [ends_getWorld_bind, if_pos (stops_iff.1 stops)]
        exact ends_pure.2 ⟨rfl, rfl, rfl⟩
      | @more _ _ _ _ s₁ f₁ w₁ passes _ _ _ pass _ goesOn rest =>
        refine (ends_bind_of_ends pass).2 ?_
        rw [ends_getWorld_bind, if_neg (by rwa [← stops_iff])]
        exact ih.2 ⟨passes, rest, by simpa using hlen, rfl⟩

variable {passes : List (List (Totals Real64))}

theorem Course.sums (h : Course a s f w passes s' f' w') :
    s' = { s with totals := s'.totals } ∧ s.totals.Sums passes.flatten s'.totals := by
  -- the totals are handed on from pass to pass, nothing else is
  induction h with
  | last _ passing _ =>
    rcases passing.sums with ⟨hs, hsums⟩
    refine ⟨hs, ?_⟩
    rw [List.flatten_cons, List.flatten_nil, List.append_nil]
    exact hsums
  | more _ passing _ _ ih =>
    rcases passing.sums with ⟨hs₁, hsums₁⟩
    rcases ih with ⟨hs, hsums⟩
    constructor
    · rw [hs, hs₁]
    · rw [List.flatten_cons]
      exact hsums₁.trans hsums

/-- The reports of a pass: one if it has merged any batches. -/
theorem Passing.log_eq (hlog : Shows ω ρ log) {batches : List (Totals Real64)}
    (h : Passing a s f w batches s' f' w') :
    (batches = [] ∧ s' = s ∧ log w' = log w) ∨
      (batches ≠ [] ∧ ∃ r, log w' = log w ++ [r] ∧ r.Tells s'.evaluate) := by
  cases h with
  | quiet ready merging =>
    refine .inl ⟨rfl, rfl, ?_⟩
    rw [merging.log_eq hlog, log_getReady hlog ready]
  | @added ev f₁ w₁ batches t f' v ready any merging =>
    refine .inr ⟨any, progress { s with totals := t } f' v, ?_, ⟨rfl, rfl, rfl⟩⟩
    rw [hlog.report, merging.log_eq hlog, log_getReady hlog ready]

/-- The reports `made` of a run from `s` to `s'` with these passes. Without any, nothing has
been merged, and the last one shows what has been. -/
structure Shown (s s' : Estimator E) (passes : List (List (Totals Real64))) (made : List Report) :
    Prop where
  length : made.length = (passes.filter (· ≠ [])).length
  none : made = [] → s' = s
  last : ∀ r ∈ made.getLast?, r.Tells s'.evaluate

theorem Course.shown (hlog : Shows ω ρ log) (h : Course a s f w passes s' f' w') :
    ∃ made, log w' = log w ++ made ∧ Shown s s' passes made := by
  -- from the last pass backwards: the last report of the rest is the last of all, if there is one
  induction h with
  | last _ passing _ =>
    rcases passing.log_eq hlog with ⟨rfl, hs, hw⟩ | ⟨hany, r, hw, htells⟩
    · refine ⟨[], by rw [hw, List.append_nil], rfl, fun _ => hs, ?_⟩
      intro r hr
      cases hr
    · refine ⟨[r], hw, by simp [hany], nofun, ?_⟩
      intro r' hr'
      cases hr'
      exact htells
  | more _ passing _ _ ih =>
    rcases ih with ⟨made, hw', hshown⟩
    rcases passing.log_eq hlog with ⟨rfl, hs, hw⟩ | ⟨hany, r, hw, htells⟩
    · -- a pass without a batch leaves no trace
      subst hs
      refine ⟨made, by rw [hw', hw], ?_, hshown.none, hshown.last⟩
      rw [hshown.length]
      simp
    · refine ⟨r :: made, by rw [hw', hw, List.append_assoc]; rfl, ?_, nofun, ?_⟩
      · rw [List.length_cons, hshown.length]
        simp [hany]
      · by_cases hnone : made = []
        · -- nothing is merged any more, so the report still shows what the totals say
          subst hnone
          intro r' hr'
          cases hr'
          rw [hshown.none rfl]
          exact htells
        · rw [List.getLast?_cons_of_ne_nil hnone]
          exact hshown.last

/-! ## An estimate that is kept -/

/-- A pass of a run that keeps its estimate: work is handed out only while the estimate that is
kept has not converged, and it is refreshed only if any batch has been merged. -/
def passKeeping (a : Assignment) (kept : Estimate Real64) (s : Estimator E) :
    FleetM ω ρ (Estimate Real64 × Estimator E) := do
  handleAll .fresh (fun id () => assign a id) ()
  if !kept.converged then handleAll .idle (fun id () => handWork id) ()
  let _ ← waitForEvent true
  let (added, totals) ← readResults a s.totals
  let s := { s with totals }
  if added then
    let f ← getThe (Fleet ρ)
    let wall := World.elapsed ρ (← getThe ω)
    let kept := s.evaluate
    modifyThe ω (Watch.report (.ofEstimate kept (some f.size) (some (f.speedup wall))))
    return (kept, s)
  return (kept, s)

/-- Passes until the estimate that is kept has converged or the interrupt is raised. -/
def keepUntilDone (a : Assignment) : (counts : ℕ) → (kept : Estimate Real64) → Estimator E →
    FleetM ω ρ (Estimate Real64 × Estimator E)
  | 0, _, _ => throw (.totals .countOverflow)
  | counts + 1, kept, s => do
    let (kept, s) ← passKeeping a kept s
    if kept.converged || Watch.interrupted (← getThe ω) then return (kept, s)
    else keepUntilDone a counts kept s

/-- A run over a fleet that keeps its estimate from pass to pass. -/
def estimateKeeping [Experiment E] (s : Estimator E) :
    FleetM ω ρ (Except EstimationError (Estimate Real64 × Estimator E)) := do
  match s.start with
  | .error e => return .error e
  | .ok s =>
    Fleet.settle
    Fleet.resetAll
    Fleet.resetBusyTime
    return .ok (← keepUntilDone (.of s.experiment) (UInt64.size - 1) s.evaluate s)

/-- What a pass that keeps its estimate does once it has read results. -/
def keepAfterReading (kept : Estimate Real64) (s : Estimator E) (y : Bool × Totals Real64) :
    FleetM ω ρ (Estimate Real64 × Estimator E) := do
  let s' ← afterReading s y
  return (if y.1 then s'.evaluate else kept, s')

theorem passKeeping_eq {kept : Estimate Real64} (hgoesOn : kept.converged = false) :
    (passKeeping a kept s : FleetM ω ρ (Estimate Real64 × Estimator E)) = (do
      let _ ← getReady a
      let y ← readResults a s.totals
      keepAfterReading kept s y) := by
  unfold passKeeping getReady
  simp only [hgoesOn, Bool.not_false, if_true, bind_assoc]
  refine bind_congr fun _ => bind_congr fun _ => bind_congr fun _ => bind_congr fun y => ?_
  rcases y with ⟨any, t⟩
  cases any with
  | false => rfl
  | true => rfl

theorem passKeeping_evaluate (hgoesOn : s.evaluate.converged = false) :
    (passKeeping a s.evaluate s : FleetM ω ρ (Estimate Real64 × Estimator E)) = (do
      let s' ← s.pass a
      return (s'.evaluate, s')) := by
  rw [passKeeping_eq hgoesOn, pass_eq]
  simp only [bind_assoc]
  refine fleetM_ext fun f w => ?_
  refine run_bind_congr fun _ => run_bind_congr fun {y f₁ w₁} hread => ?_
  rcases y with ⟨any, t⟩
  cases any with
  | false =>
    -- without a batch the totals are those that the estimate was made from
    rcases merging_of_handling (ends_handleAll hread) with ⟨batches, hany, hmerging⟩
    obtain rfl : batches = [] := by
      by_contra hne
      exact absurd hany (by simp [hne])
    obtain rfl : t = s.totals := hmerging.sums.eq_start
    have hquiet : (afterReading s (false, s.totals) : FleetM ω ρ (Estimator E)) = pure s := rfl
    simp only [keepAfterReading, hquiet, pure_bind, Bool.false_eq_true, if_false]
  | true => simp only [keepAfterReading, if_true]

theorem keepUntilDone_evaluate {counts : ℕ} (hgoesOn : s.evaluate.converged = false) :
    (keepUntilDone a counts s.evaluate s : FleetM ω ρ (Estimate Real64 × Estimator E)) =
      passUntilDone a counts s := by
  induction counts generalizing s with
  | zero => rfl
  | succ counts ih =>
    rw [keepUntilDone, passUntilDone, passKeeping_evaluate hgoesOn, bind_assoc]
    -- the kept estimate is the one of the totals, as the run goes on only if it has not converged
    refine bind_congr fun s₁ => ?_
    rw [pure_bind]
    refine bind_congr fun w₁ => ?_
    by_cases hstops : (s₁.evaluate.converged || Watch.interrupted w₁) = true
    · rw [if_pos hstops, if_pos hstops]
    · rw [if_neg hstops, if_neg hstops]
      rw [Bool.or_eq_true, not_or, Bool.not_eq_true] at hstops
      exact ih hstops.1

variable [Experiment E]

/-- An estimate that is kept never lags behind the totals, so that it makes no difference whether
it is kept or the totals are evaluated behind every pass. -/
theorem estimateKeeping_eq (ht : s.target.Configured) :
    (s.estimateKeeping : FleetM ω ρ (Except EstimationError (Estimate Real64 × Estimator E))) =
      s.estimateDistributed := by
  unfold estimateKeeping estimateDistributed
  by_cases hcount : Experiment.count s.experiment = 0
  · rw [start_eq_error hcount]
  · rw [start_eq_ok hcount]
    dsimp only
    rw [keepUntilDone_evaluate (not_converged_begun ht)]

/-! ## What is returned -/

/-- A run that returns is a course of passes from no samples on, which ends with the first pass
behind which the stopping rule holds or the interrupt is raised. The totals that it leaves are
those of all batches that its passes have merged, and it returns what they say, converged if the
stopping rule holds for them, even if the interrupt has been raised as well. It has reported as
often as a pass has merged any batch, and its last report shows what it returns. A run that keeps
its estimate from pass to pass does all the same. -/
theorem returns_what_it_accumulated (hlog : Shows ω ρ log) (ht : s.target.Configured)
    {e : Estimate Real64} (h : Ends s.estimateDistributed f w (.ok (e, s')) f' w') :
    ∃ f₀ w₀ passes made,
      Ends (do settle; resetAll; resetBusyTime) f w ⟨⟩ f₀ w₀ ∧
      Course (.of s.experiment) s.begun f₀ w₀ passes s' f' w' ∧
      s' = { s with totals := s'.totals } ∧
      (Totals.zero (Experiment.count s.experiment)).Sums passes.flatten s'.totals ∧
      e = { s'.totals.estimate s.multiplier with converged := e.converged } ∧
      (e.converged = true ↔ e.accuracy ≤ s.target.accuracy ∧ leastSamples ≤ e.samples) ∧
      log w' = log w ++ made ∧ made.length = (passes.filter (· ≠ [])).length ∧
      (∀ r ∈ made.getLast?,
        r.samples = e.samples ∧ r.mean = e.worstMean ∧ r.percent = Report.percentOf e.accuracy) ∧
      (s.estimateKeeping : FleetM ω ρ (Except EstimationError (Estimate Real64 × Estimator E))) =
        s.estimateDistributed := by
  by_cases hcount : Experiment.count s.experiment = 0
  · unfold estimateDistributed at h
    rw [start_eq_error hcount] at h
    -- nothing to estimate: such a run returns an error
    cases (ends_pure.1 h).1
  rw [estimateDistributed_eq hcount] at h
  rcases ends_bind.1 h with ⟨_, f₀, w₀, hsettled, h⟩
  rcases ends_bind.1 h with ⟨r, f₁, w₁, hpasses, h⟩
  rcases ends_pure.1 h with ⟨heq, rfl, rfl⟩
  cases heq
  -- the passes give the totals by `Course.sums` and the reports by `Course.shown`
  rcases ends_passUntilDone_iff.1 hpasses with ⟨passes, hcourse, -, rfl⟩
  rcases hcourse.sums with ⟨hs, hsums⟩
  rcases hcourse.shown hlog with ⟨made, hmade, hshown⟩
  rw [log_settled hlog hsettled] at hmade
  have hkept : s' = { s with totals := s'.totals } := hs
  have htarget : s'.target = s.target := by rw [hkept]
  have hmultiplier : s'.multiplier = s.multiplier := by rw [hkept]
  have hevaluate : s'.evaluate =
      { s'.totals.estimate s.multiplier with converged := s'.evaluate.converged } := by
    rw [← hmultiplier]
    rfl
  have hconverged : s'.evaluate.converged = true ↔
      s'.evaluate.accuracy ≤ s.target.accuracy ∧ leastSamples ≤ s'.evaluate.samples := by
    rw [← htarget, ← ht.bounds.1, ← htarget]
    exact decide_eq_true_iff
  refine ⟨f₀, w₀, passes, made, hsettled, hcourse, hkept, hsums, hevaluate, hconverged, hmade,
    hshown.length, ?_, estimateKeeping_eq ht⟩
  intro r hr
  have htells := hshown.last r hr
  exact ⟨htells.samples, htells.mean, htells.percent⟩

/-- A stage keeps every report. -/
theorem shows_stage : Shows Stage Player (fun w => w.recorder.reports.toList) where
  report _ _ := Array.toList_push
  write bytes p w := by
    change (Stage.write bytes p w).2.2.recorder.reports.toList = _
    unfold Stage.write
    split
    · rfl
    · rfl
  await _ _ := rfl
  close _ _ := rfl
  waiting accepting w := by
    cases accepting with
    | false => rfl
    | true => rfl
  acting _ _ _ := rfl
  offer quiet w := by
    rcases w with ⟨recorder, door, requests, waits, lastWait⟩
    cases quiet with
    | false => rfl
    | true =>
      cases door with
      | nil => rfl
      | cons connection door => rfl

/-- Two hundred samples, all of them 1. -/
def twoHundred : Totals Real64 := ⟨[⟨0x4069000000000000⟩], [⟨0x4069000000000000⟩], 200⟩

/-- A worker that has drawn them whenever it is handed work. -/
def steady : Player :=
  .new 0 ⟨some [], false, [], [.result twoHundred none none none]⟩ false

/-- A run that a single reply ends, with a single report. -/
theorem return_of_steady :
    ∃ passes : List (List (Totals Real64)), ∃ made : List Report,
      (passes.filter (· ≠ [])).length = 1 ∧ made.length = 1 ∧
        ∀ r ∈ made.getLast?, r.samples = 200 := by
  -- one pass of 200 samples, as computed
  have hends : ∃ y f' w', Ends
      (⟨ones, .standard, 1, .zero 1⟩ : Estimator Replay).estimateDistributed
      (Fleet.empty : Fleet Player) (Stage.empty.enqueue (.ok steady)) y f' w' ∧
        y.toOption.map (fun p => p.1.samples) = some 200 ∧ w'.recorder.reports.size = 1 := by
    decide +kernel
  rcases hends with ⟨y, f', w', hrun, hsamples, hsize⟩
  rcases y with _ | ⟨e, s'⟩
  · cases hsamples
  rcases returns_what_it_accumulated shows_stage .standard hrun with
    ⟨f₀, w₀, passes, made, -, -, -, -, -, -, hlog, hlen, hlast, -⟩
  have hone : made.length = 1 := by
    rw [← hsize, ← Array.length_toList, hlog]
    rfl
  refine ⟨passes, made, hlen.symm.trans hone, hone, fun r hr => ?_⟩
  rw [(hlast r hr).1]
  exact Option.some.inj hsamples

end Estimator

end FleetEstimate
