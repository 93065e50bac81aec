import FleetEstimate.Coordinator
import FleetEstimate.Experiment.Replay
import FleetEstimate.Proofs.Estimation.Tolerance
import FleetEstimate.Proofs.Estimation.Totals
import FleetEstimate.Proofs.Fleet.Handling
import FleetEstimate.Proofs.Fleet.Tasks
import FleetEstimate.Recorder

/-!
# What a converged estimate promises

A run stops by itself when the largest tolerance is within the target. The largest one is
found by passing NaNs over, so that a dimension whose tolerance is a NaN does not keep a
run from stopping. Every other dimension of a converged estimate is sound: its mean is
above zero, and its tolerance is within the target. With a finite multiplier other than
zero the dimensions that are passed over are those whose mean is a NaN.

The totals of a run keep the dimension of the experiment, sample by sample and batch by
batch, so that no dimension is missing from the estimate.
-/

namespace FleetEstimate

open Real64

/-! ## Targets -/

/-- The targets that can be configured, beginning with the standard one. -/
inductive Target.Configured : Target → Prop
  | standard : Configured .standard
  | withAccuracy {t t' : Target} {accuracy : Real64} (h : Configured t)
      (h' : t.withAccuracy accuracy = .ok t') : Configured t'
  | withConfidence {t t' : Target} {confidence : Real64} (h : Configured t)
      (h' : t.withConfidence confidence = .ok t') : Configured t'

theorem Target.withAccuracy_eq_ok {t t' : Target} {accuracy : Real64}
    (h : t.withAccuracy accuracy = .ok t') : IsAccuracy accuracy ∧ t' = { t with accuracy } := by
  unfold withAccuracy at h
  split at h
  · rename_i hacc
    cases h
    exact ⟨hacc, rfl⟩
  · cases h

theorem Target.withConfidence_eq_ok {t t' : Target} {confidence : Real64}
    (h : t.withConfidence confidence = .ok t') : t' = { t with confidence } := by
  unfold withConfidence at h
  cases hz : multiplierOf confidence with
  | error e =>
    rw [hz] at h
    cases h
  | ok z =>
    rw [hz] at h
    cases h
    rfl

theorem Target.Configured.bounds {t : Target} (h : t.Configured) :
    t.minSamples = leastSamples ∧ IsAccuracy t.accuracy := by
  induction h with
  | standard => exact ⟨rfl, by decide⟩
  | withAccuracy _ h' ih =>
    rcases Target.withAccuracy_eq_ok h' with ⟨hacc, rfl⟩
    exact ⟨ih.1, hacc⟩
  | withConfidence _ h' ih =>
    rw [Target.withConfidence_eq_ok h']
    exact ih

/-! ## Evaluation -/

namespace Estimator

variable {E : Type} [Experiment E]

/-- A moment of the run that an estimator has begun. -/
structure InRun (s s' : Estimator E) : Prop where
  target : s'.target = s.target
  multiplier : s'.multiplier = s.multiplier
  count : Experiment.count s'.experiment = Experiment.count s.experiment
  fits : s'.totals.Fits (Experiment.count s.experiment)

/-- What a converged estimate says about a dimension. Its mean is above zero and its
tolerance within the target exactly if the tolerance is no NaN, which, but for a
degenerate multiplier, it is exactly if the mean is none. -/
structure Verdict (s : Estimator E) (mean tolerance : Real64) : Prop where
  sound_iff : 0 < mean ∧ tolerance.isNaN = false ∧ tolerance ≤ s.target.accuracy ↔
    tolerance.isNaN = false
  isNaN_of_mean : mean.isNaN = true → tolerance.isNaN = true
  isNaN_of_tolerance : s.multiplier.isFinite = true → (s.multiplier == 0) = false →
    tolerance.isNaN = true → mean.isNaN = true

theorem mean_eq {t : Totals Real64} {sum : Real64} (ht : ¬ t.samples < 2) :
    t.mean sum = sum / Scalar.ofCount t.samples := by
  have hpos : 0 < t.samples := by
    rw [UInt64.lt_iff_toNat_lt] at ht ⊢
    have htwo : (2 : UInt64).toNat = 2 := rfl
    have hzero : (0 : UInt64).toNat = 0 := rfl
    omega
  exact if_pos hpos

/-- The stopping rule holds only if every dimension is as `Verdict` says. -/
theorem verdict_of_evaluate {s s' : Estimator E} (hrun : InRun s s') (ht : s.target.Configured)
    (hc : s'.evaluate.converged = true) :
    leastSamples ≤ s'.evaluate.samples ∧
      ∀ i < Experiment.count s.experiment, ∃ mean tolerance,
        s'.evaluate.result[i]? = some mean ∧ s'.evaluate.tolerance[i]? = some tolerance ∧
          Verdict s mean tolerance := by
  rcases ht.bounds with ⟨hmin, -, hbelow⟩
  have hmet : s'.target.IsMet (s'.totals.estimate s'.multiplier) := of_decide_eq_true hc
  rw [hrun.target] at hmet
  rcases hmet with ⟨haccuracy, hsamples⟩
  rw [hmin] at hsamples
  have hmany : ¬ s'.totals.samples < 2 := by
    have hle : leastSamples ≤ s'.totals.samples := hsamples
    rw [UInt64.le_iff_toNat_le] at hle
    rw [UInt64.lt_iff_toNat_lt]
    have hleast : leastSamples.toNat = 128 := rfl
    have htwo : (2 : UInt64).toNat = 2 := rfl
    omega
  refine ⟨hsamples, fun i hi => ?_⟩
  rcases hrun.fits with ⟨hsum, hsumSq⟩
  have hi₁ : i < s'.totals.sum.length := hsum ▸ hi
  have hi₂ : i < s'.totals.sumSq.length := hsumSq ▸ hi
  have hresult : s'.evaluate.result[i]? = some (s'.totals.mean s'.totals.sum[i]) := by
    simp [evaluate, Totals.estimate, hi₁, hi₂]
  have htolerance : s'.evaluate.tolerance[i]? =
      some (tolerance s'.totals.sum[i] s'.totals.sumSq[i] s'.totals.samples s'.multiplier) := by
    simp [evaluate, Totals.estimate, hi₁, hi₂]
  refine ⟨_, _, hresult, htolerance, ?_⟩
  rw [mean_eq hmany, hrun.multiplier]
  have hmem : tolerance s'.totals.sum[i] s'.totals.sumSq[i] s'.totals.samples s.multiplier ∈
      s'.evaluate.tolerance := hrun.multiplier ▸ List.mem_of_getElem? htolerance
  refine ⟨⟨fun h => h.2.1, fun h => ?_⟩, isNaN_tolerance_of_mean hmany,
    fun hfin hzero h => (isNaN_mean_of_tolerance hfin hzero h).2⟩
  -- the largest tolerance bounds every other that is no NaN
  have hle := (le_of_foldl_larger s'.evaluate.tolerance haccuracy).2 _ hmem h
  exact ⟨(mean_pos_of_tolerance_le hbelow hle).2, h, hle⟩

/-! ## Runs -/

variable {s s' s'' : Estimator E} {e : Estimate Real64} {ω ρ : Type}

theorem inRun_start (h : s.start = .ok s') : InRun s s' := by
  unfold start dimension at h
  split at h
  · cases h
  · cases h
    exact ⟨rfl, rfl, rfl, Totals.fits_zero _⟩

theorem InRun.seeded (h : InRun s s') (seed : UInt64) :
    InRun s { s' with experiment := Experiment.seed seed s'.experiment } :=
  ⟨h.target, h.multiplier, (Experiment.count_seed _ _).trans h.count, h.fits⟩

theorem draw_eq (s : Estimator E) :
    s.draw = (s.totals.accumulate (Experiment.sample s.experiment).1).map fun totals =>
      { s with experiment := (Experiment.sample s.experiment).2, totals } := by
  change (s.totals.accumulate (Experiment.sample s.experiment).1).bind _ = _
  cases s.totals.accumulate (Experiment.sample s.experiment).1 <;> rfl

theorem InRun.draw (h : InRun s s') (hdraw : s'.draw = .ok s'') : InRun s s'' := by
  unfold Estimator.draw at hdraw
  cases hacc : s'.totals.accumulate (Experiment.sample s'.experiment).1 with
  | error f =>
    simp only [hacc] at hdraw
    cases hdraw
  | ok t =>
    simp only [hacc] at hdraw
    cases hdraw
    exact ⟨h.target, h.multiplier, (Experiment.count_sample _).trans h.count, h.fits.accumulate hacc⟩

/-- One turn of a run in one process. -/
theorem drawUntilDone_succ [Watch ω] (counts : ℕ) (s : Estimator E) (w : ω) :
    (drawUntilDone (counts + 1) s).run w = match s.draw with
      | .error f => (.error f, w)
      | .ok s' =>
        let w' := Watch.report (.ofEstimate s'.evaluate none none) w
        if s'.evaluate.converged || Watch.interrupted w' then (.ok (s'.evaluate, s'), w')
        else (drawUntilDone counts s').run w' := by
  rw [drawUntilDone]
  cases s.draw with
  | error f => rfl
  | ok s' =>
    dsimp only
    let w' := Watch.report (.ofEstimate s'.evaluate none none) w
    -- the report is made before the verdict is looked at
    change (if s'.evaluate.converged || Watch.interrupted w' then pure (s'.evaluate, s')
      else drawUntilDone counts s' :
        ExceptT TotalsFault (StateM ω) (Estimate Real64 × Estimator E)).run w' = _
    split <;> rfl

/-- A run in one process ends with what its last totals say. -/
theorem inRun_drawUntilDone [Watch ω] {counts : ℕ} {w w' : ω} (h : InRun s s')
    (hrun : (drawUntilDone counts s').run w = (.ok (e, s''), w')) :
    InRun s s'' ∧ e = s''.evaluate := by
  -- by induction on the turns: a draw stays in the run, and the last one gives the estimate
  induction counts generalizing s' w with
  -- out of turns, a run breaks off
  | zero => cases hrun
  | succ counts ih =>
    rw [drawUntilDone_succ] at hrun
    cases hdraw : s'.draw with
    | error f =>
      rw [hdraw] at hrun
      cases hrun
    | ok t =>
      simp only [hdraw] at hrun
      split at hrun
      · cases hrun
        exact ⟨h.draw hdraw, rfl⟩
      · exact ih (h.draw hdraw) hrun

theorem estimateLocal_eq_ok [Watch ω] {w w' : ω} {r : Estimate Real64 × Estimator E}
    (hstart : s.start = .ok s')
    (hrun : (drawUntilDone UInt64.size
      { s' with experiment := Experiment.seed 0 s'.experiment }).run w = (.ok r, w')) :
    s.estimateLocal w = (.ok r, w') := by
  unfold estimateLocal
  simp only [hstart, hrun]

variable [World ω ρ] {a : Assignment} {f f' : Fleet ρ} {w w' : ω}

theorem merge_of_accept {t t' : Totals Real64} {r : WorkResult}
    (h : Fleet.accept a t r = .ok (some t')) : t.merge r.batch = .ok (some t') := by
  unfold Fleet.accept at h
  split at h
  · exact h
  · cases h

/-- Whatever members reply, totals keep their dimension. -/
theorem fits_readResults {k : ℕ} {t : Totals Real64} {y : Bool × Totals Real64} (ht : t.Fits k)
    (h : Fleet.Ends (Fleet.readResults a t) f w y f' w') : y.2.Fits k := by
  have hreached := Fleet.ends_handleAll h
  clear h
  -- a result is added as a batch that fits, and all else leaves the totals alone
  induction hreached with
  | none => exact ht
  | more _ _ step ih =>
    rcases Fleet.ends_readResult.1 step with ⟨-, rfl, -⟩ | ⟨m, l, v, -, ⟨r, -, hr⟩ | ⟨e, -, rfl, -⟩⟩
    · exact ih
    · rcases hr with ⟨-, rfl, -⟩ | ⟨t', hacc, rfl, -⟩
      · exact ih
      · exact Totals.Fits.merge ih (merge_of_accept hacc)
    · exact ih

theorem InRun.pass (h : InRun s s') (hpass : Fleet.Ends (s'.pass a) f w s'' f' w') :
    InRun s s'' := by
  simp only [Estimator.pass, Fleet.ends_bind] at hpass
  -- whatever happens to the fleet, only the totals of the estimator are replaced
  rcases hpass with ⟨_, _, _, -, _, _, _, -, _, _, _, -, ⟨added, t⟩, _, _, hread, hreport⟩
  have hs : s'' = { s' with totals := t } := by
    cases added with
    | false => exact (Fleet.ends_pure.1 hreport).1.symm
    | true =>
      simp only [if_true, Fleet.ends_bind, Fleet.ends_pure] at hreport
      rcases hreport with ⟨_, _, _, -, _, _, _, -, _, _, _, -, rfl, -⟩
      rfl
  subst hs
  exact ⟨h.target, h.multiplier, h.count, fits_readResults h.fits hread⟩

/-- A run over a fleet ends with what its last totals say. -/
theorem inRun_passUntilDone {counts : ℕ} (h : InRun s s')
    (hrun : Fleet.Ends (passUntilDone a counts s') f w (e, s'') f' w') :
    InRun s s'' ∧ e = s''.evaluate := by
  -- the same induction as for a run in one process, with passes for draws
  induction counts generalizing s' f w with
  | zero => exact absurd hrun Fleet.not_ends_throw
  | succ counts ih =>
    rw [passUntilDone] at hrun
    rcases Fleet.ends_bind.1 hrun with ⟨t, g, v, hpass, hrest⟩
    rw [Fleet.ends_getWorld_bind] at hrest
    split at hrest
    · have heq := (Fleet.ends_pure.1 hrest).1
      cases heq
      exact ⟨h.pass hpass, rfl⟩
    · exact ih (h.pass hpass) hrest

/-- An estimator gives an estimate, by a run in one process or over a fleet, whatever
surrounds the run and whatever members do. -/
inductive Gives (s : Estimator E) (e : Estimate Real64) (s' : Estimator E) : Prop
  | alone {ω : Type} [Watch ω] {w w' : ω} (h : s.estimateLocal w = (.ok (e, s'), w'))
  | fleet {ω ρ : Type} [World ω ρ] {f f' : Fleet ρ} {w w' : ω}
      (h : Fleet.Ends s.estimateDistributed f w (.ok (e, s')) f' w')

theorem Gives.inRun (h : Gives s e s') : InRun s s' ∧ e = s'.evaluate := by
  cases h with
  | alone h =>
    unfold estimateLocal at h
    -- a run starts only if the experiment has a dimension
    cases hstart : s.start with
    | error e =>
      rw [hstart] at h
      cases h
    | ok t =>
      simp only [hstart] at h
      split at h
      · rename_i hrun
        cases h
        exact inRun_drawUntilDone ((inRun_start hstart).seeded 0) hrun
      · cases h
  | fleet h =>
    unfold estimateDistributed at h
    cases hstart : s.start with
    | error e =>
      rw [hstart] at h
      cases (Fleet.ends_pure.1 h).1
    | ok t =>
      simp only [hstart, Fleet.ends_bind, Fleet.ends_pure] at h
      rcases h with ⟨_, _, _, -, _, _, _, -, _, _, _, -, _, _, _, hrun, heq, -⟩
      cases heq
      exact inRun_passUntilDone (inRun_start hstart) hrun

/-- A converged estimate has enough samples, and every dimension of it is sound but for
those whose tolerance is a NaN. -/
theorem converged_verdict (ht : s.target.Configured) (h : Gives s e s')
    (hc : e.converged = true) :
    leastSamples ≤ e.samples ∧
      ∀ i < Experiment.count s.experiment, ∃ mean tolerance,
        e.result[i]? = some mean ∧ e.tolerance[i]? = some tolerance ∧ Verdict s mean tolerance := by
  rcases h.inRun with ⟨hrun, rfl⟩
  exact verdict_of_evaluate hrun ht hc

/-! ## The beginning of a run -/

theorem multiplierOf_of_level {confidence : Real64} (h : Normal.IsLevel confidence) :
    ∃ z, multiplierOf confidence = .ok z := by
  unfold multiplierOf Normal.multiplier?
  rw [if_pos h]
  exact ⟨_, rfl⟩

theorem multiplierOf_standard : ∃ z, multiplierOf Target.standard.confidence = .ok z :=
  multiplierOf_of_level (by decide)

/-- An experiment with a dimension and a confidence with a multiplier are enough for an
estimator. -/
theorem new_of_multiplier {experiment : E} {target : Target} {z : Real64}
    (hcount : Experiment.count experiment ≠ 0) (hz : multiplierOf target.confidence = .ok z) :
    Estimator.new experiment target =
      .ok ⟨experiment, target, z, .zero (Experiment.count experiment)⟩ := by
  unfold Estimator.new dimension
  rw [if_neg hcount, hz]
  rfl

/-- An estimator at the start of a run. -/
def begun (s : Estimator E) : Estimator E :=
  { s with totals := .zero (Experiment.count s.experiment) }

theorem start_eq_ok (hcount : Experiment.count s.experiment ≠ 0) : s.start = .ok s.begun := by
  unfold start dimension
  rw [if_neg hcount]
  rfl

theorem start_eq_error (hcount : Experiment.count s.experiment = 0) :
    s.start = .error .emptyResult := by
  unfold start dimension
  rw [if_pos hcount]
  rfl

/-- Nothing converges without a sample. -/
theorem not_converged_begun (ht : s.target.Configured) : s.begun.evaluate.converged = false := by
  refine decide_eq_false fun h => ?_
  have hsamples : s.target.minSamples ≤ 0 := h.2
  rw [ht.bounds.1] at hsamples
  exact absurd hsamples (by decide)

theorem estimateDistributed_eq {ω ρ : Type} [World ω ρ]
    (hcount : Experiment.count s.experiment ≠ 0) :
    (s.estimateDistributed : FleetM ω ρ (Except EstimationError (Estimate Real64 × Estimator E))) =
      (do Fleet.settle; Fleet.resetAll; Fleet.resetBusyTime) >>= fun _ =>
        passUntilDone (.of s.experiment) (UInt64.size - 1) s.begun >>= fun r => pure (.ok r) := by
  unfold estimateDistributed
  simp only [start_eq_ok hcount, bind_assoc]
  rfl

/-! ## Samples that are NaNs

A replay of a single NaN converges as soon as there are enough samples, whatever the
multiplier is. -/

/-- A NaN. -/
def undefined : Real64 := ⟨0x7ff8000000000000⟩

/-- A replay of a NaN. -/
def undefinedReplay : Replay := ⟨1, [⟨[undefined], rfl⟩], [⟨[undefined], rfl⟩], [], 0⟩

/-- The replay after its first sample of a run. -/
def undefinedRest : Replay := { undefinedReplay with upcoming := [], seeds := [0] }

/-- An estimator that has drawn some samples from the replay. -/
def undefinedAfter (multiplier : Real64) (n : UInt64) : Estimator Replay :=
  ⟨undefinedRest, .standard, multiplier, ⟨[undefined], [undefined], n⟩⟩

theorem toNat_ofNat_small {n : ℕ} (hn : n ≤ 128) : (UInt64.ofNat n).toNat = n := by
  have hsize : UInt64.size = 18446744073709551616 := rfl
  exact UInt64.toNat_ofNat_of_lt' (by omega)

theorem draw_undefined (z : Real64) {n : ℕ} (hn : n < 128) :
    (undefinedAfter z (.ofNat n)).draw = .ok (undefinedAfter z (.ofNat (n + 1))) := by
  -- what is undefined once stays so, whatever is added
  have hsum : undefined + undefined = undefined := by decide
  have hsumSq : undefined + undefined * undefined = undefined := by decide
  -- the count is far from its end
  have hcount : addCounts (.ofNat n) 1 = .ok (.ofNat (n + 1)) := by
    have hlt : (UInt64.ofNat n).toNat + (1 : UInt64).toNat < UInt64.size := by
      have hone : (1 : UInt64).toNat = 1 := rfl
      have hsize : UInt64.size = 18446744073709551616 := rfl
      rw [toNat_ofNat_small hn.le]
      omega
    rw [addCounts, if_pos hlt, UInt64.ofNat_add]
    rfl
  have hlen : [undefined].length = (undefinedAfter z (.ofNat n)).totals.count := rfl
  have hacc : (undefinedAfter z (.ofNat n)).totals.accumulate [undefined] =
      .ok ⟨[undefined + undefined], [undefined + undefined * undefined], .ofNat (n + 1)⟩ := by
    unfold Totals.accumulate
    rw [if_pos hlen]
    change (addCounts (.ofNat n) 1).bind _ = _
    rw [hcount]
    rfl
  rw [hsum, hsumSq] at hacc
  change (Totals.accumulate _ [undefined]).bind _ = _
  rw [hacc]
  rfl

theorem not_converged_undefined (z : Real64) {n : ℕ} (hn : n < 128) :
    (undefinedAfter z (.ofNat n)).evaluate.converged = false := by
  refine decide_eq_false ?_
  intro h
  rcases h with ⟨-, hsamples⟩
  have hle : leastSamples ≤ UInt64.ofNat n := hsamples
  have hleast : leastSamples.toNat = 128 := rfl
  rw [UInt64.le_iff_toNat_le, toNat_ofNat_small hn.le, hleast] at hle
  omega

/-- The lost tolerance leaves an accuracy of zero. -/
theorem converged_undefined (z : Real64) : (undefinedAfter z 128).evaluate.converged = true := by
  have hmean : (undefined / Scalar.ofCount 128).isNaN = true := by decide
  have hnan : (tolerance undefined undefined 128 z).isNaN = true :=
    isNaN_tolerance_of_mean (by decide) hmean
  -- the only tolerance is passed over
  have hlost : larger 0 (tolerance undefined undefined 128 z) = 0 := by
    have hlt : ¬ 0 < tolerance undefined undefined 128 z := fun h => by
      rw [(isNaN_of_lt h).2] at hnan
      exact absurd hnan (by decide)
    have hzero : (0 : Real64).isNaN ≠ true := by decide
    rw [larger, if_neg hzero, if_neg hlt]
  have haccuracy : larger 0 (tolerance undefined undefined 128 z) ≤ Target.standard.accuracy := by
    rw [hlost]
    decide
  have hsamples : leastSamples ≤ 128 := by decide
  exact decide_eq_true ⟨haccuracy, hsamples⟩

/-- Once the first sample is drawn, a run goes on to the least number of samples. -/
theorem drawUntilDone_undefined (z : Real64) {counts n : ℕ} (hn : n < 128)
    (hcounts : 128 ≤ n + counts) {w : Recorder} (hlimit : w.limit = none)
    (hraised : w.raised = false) :
    ∃ w', (drawUntilDone counts (undefinedAfter z (.ofNat n))).run w =
      (.ok ((undefinedAfter z 128).evaluate, undefinedAfter z 128), w') := by
  induction counts generalizing n w with
  | zero => omega
  | succ counts ih =>
    simp only [drawUntilDone_succ, draw_undefined z hn]
    generalize Report.ofEstimate _ none none = r
    have hquiet : Watch.interrupted (Watch.report r w) = false := by
      change (w.raised || w.limit.any _) = false
      simp [hraised, hlimit]
    -- before the least number of samples nothing converges
    by_cases hlast : n + 1 = 128
    · have hlit : UInt64.ofNat 128 = 128 := rfl
      rw [hlast, hlit, converged_undefined]
      exact ⟨_, rfl⟩
    · rw [not_converged_undefined z (by omega), hquiet]
      exact ih (by omega) (by omega) hlimit hquiet

/-- An estimator of the replay that has not run. -/
def undefinedStart (multiplier : Real64) : Estimator Replay :=
  ⟨undefinedReplay, .standard, multiplier, .zero 1⟩

theorem estimateLocal_undefined (z : Real64) :
    ∃ w', (undefinedStart z).estimateLocal (Recorder.new none false) =
      (.ok ((undefinedAfter z 128).evaluate, undefinedAfter z 128), w') := by
  obtain ⟨counts, hcounts⟩ : ∃ counts, UInt64.size = counts + 1 := ⟨UInt64.size - 1, rfl⟩
  have hmany : 128 ≤ 1 + counts := by
    have hsize : UInt64.size = 18446744073709551616 := rfl
    omega
  let seeded : Estimator Replay :=
    { undefinedStart z with experiment := Experiment.seed 0 undefinedReplay }
  have hfirst : seeded.draw = .ok (undefinedAfter z (.ofNat 1)) := rfl
  -- the first sample leaves a NaN, and each one behind it leaves the NaN and counts on
  have hrun : ∃ w', (drawUntilDone UInt64.size seeded).run (Recorder.new none false) =
      (.ok ((undefinedAfter z 128).evaluate, undefinedAfter z 128), w') := by
    rw [hcounts]
    simp only [drawUntilDone_succ, hfirst]
    rw [not_converged_undefined z (by decide)]
    exact drawUntilDone_undefined z (by decide) hmany rfl rfl
  rcases hrun with ⟨w', hrun⟩
  exact ⟨w', estimateLocal_eq_ok rfl hrun⟩

/-- A NaN among the means does not keep a standard run from converging. -/
theorem converged_with_undefined_mean :
    ∃ s e s' w', Estimator.new undefinedReplay .standard = .ok s ∧
      s.estimateLocal (Recorder.new none false) = (.ok (e, s'), w') ∧ e.converged = true ∧
      ∃ mean, e.result[0]? = some mean ∧ ¬ 0 < mean := by
  rcases multiplierOf_standard with ⟨z, hz⟩
  have hnew : Estimator.new undefinedReplay .standard = .ok (undefinedStart z) :=
    new_of_multiplier Nat.one_ne_zero hz
  rcases estimateLocal_undefined z with ⟨w', hrun⟩
  let mean := Totals.mean (⟨[undefined], [undefined], 128⟩ : Totals Real64) undefined
  refine ⟨_, _, _, w', hnew, hrun, converged_undefined z, mean, rfl, fun hpos => ?_⟩
  -- a NaN is above nothing
  have hmean : mean.isNaN = true := by decide
  rw [(isNaN_of_lt hpos).2] at hmean
  exact absurd hmean (by decide)

/-- The verdict on a converged run whose only dimension is lost. -/
theorem verdict_with_undefined_mean :
    ∃ w', (undefinedStart 1).target.Configured ∧
      (undefinedStart 1).estimateLocal (Recorder.new none false) =
        (.ok ((undefinedAfter 1 128).evaluate, undefinedAfter 1 128), w') ∧
      (undefinedAfter 1 128).evaluate.converged = true ∧
      leastSamples ≤ (undefinedAfter 1 128).evaluate.samples ∧
      ∃ mean tolerance, (undefinedAfter 1 128).evaluate.result[0]? = some mean ∧
        (undefinedAfter 1 128).evaluate.tolerance[0]? = some tolerance ∧
        Verdict (undefinedStart 1) mean tolerance := by
  rcases estimateLocal_undefined 1 with ⟨w', hrun⟩
  rcases converged_verdict .standard (.alone hrun) (converged_undefined 1) with ⟨hsamples, hall⟩
  exact ⟨w', .standard, hrun, converged_undefined 1, hsamples, hall 0 (by decide)⟩

end Estimator

end FleetEstimate
