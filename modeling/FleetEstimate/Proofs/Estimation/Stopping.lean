import FleetEstimate.Proofs.Estimation.Samples
import FleetEstimate.Proofs.Fleet.Returns
import FleetEstimate.Recorder

/-!
# Where a run in one process stops

A run in one process goes along the samples that the experiment draws behind the seed zero. How
far it goes is told without the run: the first count of samples behind which the stopping rule
holds for their totals, or behind whose reports the interrupt is raised. The run gets exactly
there, has reported every count on the way, and leaves the totals of these samples alone, whatever
an earlier run has left in the estimator. The stopping rule need not hold for good once it holds,
so that a later start of the search would find another count.
-/

namespace FleetEstimate

open Experiment

/-- What follows a run, behind some reports. -/
def Watch.follow {ω : Type} [Watch ω] (reports : List Report) (w : ω) : ω :=
  reports.foldl (fun w r => Watch.report r w) w

namespace Estimator

variable {E : Type} [Experiment E]

/-- The samples that a run in one process draws first. -/
def runDraws (s : Estimator E) (n : ℕ) : List (List Real64) := draws n (seed 0 s.experiment)

/-- An estimator whose run in one process has drawn `n` samples. -/
def behind (s : Estimator E) (n : ℕ) : Estimator E :=
  { s with
    experiment := skip n (seed 0 s.experiment)
    totals := (Totals.zero (count s.experiment)).withSamples (s.runDraws n) }

/-- The reports of the first `n` samples. -/
def reports (s : Estimator E) (n : ℕ) : List Report :=
  (List.range n).map fun i => .ofEstimate (s.behind (i + 1)).evaluate none none

/-- The counts of samples behind which a run in one process may end. -/
def stoppingPoints {ω : Type} [Watch ω] (s : Estimator E) (w : ω) : Set ℕ :=
  {n | 1 ≤ n ∧ Stops (s.behind n) (Watch.follow (s.reports n) w)}

/-! ## Along the samples -/

theorem length_runDraws (s : Estimator E) (n : ℕ) : (s.runDraws n).length = n := length_draws n _

theorem length_of_mem_runDraws {s : Estimator E} {n : ℕ} {x : List Real64} (hx : x ∈ s.runDraws n) :
    x.length = count s.experiment := (length_of_mem_draws hx).trans (count_seed _ _)

theorem reports_succ (s : Estimator E) (n : ℕ) :
    s.reports (n + 1) = s.reports n ++ [.ofEstimate (s.behind (n + 1)).evaluate none none] := by
  unfold reports
  rw [List.range_succ, List.map_append, List.map_singleton]

theorem follow_reports_succ {ω : Type} [Watch ω] (s : Estimator E) (n : ℕ) (w : ω) :
    Watch.follow (s.reports (n + 1)) w =
      Watch.report (.ofEstimate (s.behind (n + 1)).evaluate none none)
        (Watch.follow (s.reports n) w) := by
  unfold Watch.follow
  rw [reports_succ, List.foldl_append]
  rfl

theorem samples_behind {s : Estimator E} {n : ℕ} (hn : n < UInt64.size) :
    (s.behind n).totals.samples.toNat = n := by
  have hlen : (0 : UInt64).toNat + (s.runDraws n).length = n := by
    rw [length_runDraws]
    exact Nat.zero_add n
  exact (Totals.samples_withSamples (hlen.trans_lt hn)).trans hlen

theorem fits_behind (s : Estimator E) (n : ℕ) :
    (s.behind n).totals.Fits (count s.experiment) :=
  (Totals.fits_zero _).withSamples fun _ hx => length_of_mem_runDraws hx

theorem behind_zero (s : Estimator E) :
    s.behind 0 = { s.begun with experiment := seed 0 s.experiment } := by
  unfold behind
  rw [runDraws, draws, Totals.withSamples_nil]
  rfl

theorem runDraws_succ (s : Estimator E) (n : ℕ) :
    s.runDraws (n + 1) = s.runDraws n ++ [(sample (s.behind n).experiment).1] := draws_succ n _

theorem length_sample_behind (s : Estimator E) (n : ℕ) :
    (sample (s.behind n).experiment).1.length = (s.behind n).totals.count := by
  have hcount : count (s.behind n).experiment = count s.experiment :=
    (count_skip n _).trans (count_seed _ _)
  have hdimension : (s.behind n).totals.count = count s.experiment := (fits_behind s n).1
  rw [length_sample, hcount, hdimension]

/-- A run draws the next sample, as long as it can be counted. -/
theorem draw_behind {s : Estimator E} {n : ℕ} (hn : n + 1 < UInt64.size) :
    (s.behind n).draw = .ok (s.behind (n + 1)) := by
  have hcount : (s.behind n).totals.samples.toNat + 1 < UInt64.size := by
    rw [samples_behind (by omega)]
    exact hn
  -- samples of one draw behind the others are the first draws of one more
  have htotals : (s.behind n).totals.withSamples [(sample (s.behind n).experiment).1] =
      (s.behind (n + 1)).totals := by
    unfold behind
    rw [← Totals.withSamples_append, runDraws_succ]
    rfl
  have hexperiment : (sample (s.behind n).experiment).2 = (s.behind (n + 1)).experiment :=
    (skip_succ n _).symm
  rw [draw_eq, Totals.accumulate_eq_withSamples (length_sample_behind s n) hcount, htotals, hexperiment]
  rfl

/-- One sample more than can be counted is not drawn. -/
theorem draw_behind_last (s : Estimator E) :
    (s.behind (UInt64.size - 1)).draw = .error .countOverflow := by
  have hsamples := samples_behind (s := s) (n := UInt64.size - 1) (by decide)
  have hcount : addCounts (s.behind (UInt64.size - 1)).totals.samples 1 = .error .countOverflow :=
    addCounts_eq_error_iff.2 ⟨rfl, by rw [hsamples]; decide⟩
  rw [draw_eq, Totals.accumulate_of_length (length_sample_behind s _), hcount]
  rfl

/-! ## The run -/

variable {ω : Type} [Watch ω] {s : Estimator E} {w : ω} {n counts : ℕ}

/-- A sample behind which the run may end is the last one. -/
theorem drawUntilDone_of_stops (hn : n + 1 < UInt64.size) (hstops : n + 1 ∈ s.stoppingPoints w) :
    (drawUntilDone (counts + 1) (s.behind n)).run (Watch.follow (s.reports n) w) =
      (.ok ((s.behind (n + 1)).evaluate, s.behind (n + 1)),
        Watch.follow (s.reports (n + 1)) w) := by
  have hdone := stops_iff.1 hstops.2
  rw [drawUntilDone_succ, draw_behind hn]
  rw [follow_reports_succ] at hdone ⊢
  exact if_pos hdone

/-- A run goes on behind any other sample. -/
theorem drawUntilDone_of_not_stops (hn : n + 1 < UInt64.size)
    (hgoesOn : n + 1 ∉ s.stoppingPoints w) :
    (drawUntilDone (counts + 1) (s.behind n)).run (Watch.follow (s.reports n) w) =
      (drawUntilDone counts (s.behind (n + 1))).run (Watch.follow (s.reports (n + 1)) w) := by
  have hdone : ¬ Stops (s.behind (n + 1)) (Watch.follow (s.reports (n + 1)) w) :=
    fun h => hgoesOn ⟨Nat.le_add_left 1 n, h⟩
  rw [stops_iff] at hdone
  rw [drawUntilDone_succ, draw_behind hn]
  rw [follow_reports_succ] at hdone ⊢
  exact if_neg hdone

/-- A run gets to the first sample behind which it may end. -/
theorem drawUntilDone_behind {m : ℕ} (hm : m < UInt64.size) (hstops : m ∈ s.stoppingPoints w)
    (hn : n < m) (hcounts : m ≤ n + counts)
    (hfirst : ∀ k, n < k → k < m → k ∉ s.stoppingPoints w) :
    (drawUntilDone counts (s.behind n)).run (Watch.follow (s.reports n) w) =
      (.ok ((s.behind m).evaluate, s.behind m), Watch.follow (s.reports m) w) := by
  -- by induction on the turns; the stopping point is at the next sample or further behind
  induction counts generalizing n with
  | zero => omega
  | succ counts ih =>
    rcases Nat.eq_or_lt_of_le (Nat.succ_le_of_lt hn) with rfl | hlt
    · exact drawUntilDone_of_stops hm hstops
    · rw [drawUntilDone_of_not_stops (by omega) (hfirst (n + 1) (Nat.lt_succ_self n) hlt)]
      exact ih hlt (by omega) fun k hk => hfirst k (by omega)

/-- A run that may end nowhere draws all samples that can be counted. -/
theorem drawUntilDone_overflows (hn : n + counts + 1 = UInt64.size)
    (hnever : ∀ k, n < k → k < UInt64.size → k ∉ s.stoppingPoints w) :
    (drawUntilDone (counts + 1) (s.behind n)).run (Watch.follow (s.reports n) w) =
      (.error .countOverflow, Watch.follow (s.reports (UInt64.size - 1)) w) := by
  induction counts generalizing n with
  | zero =>
    obtain rfl : n = UInt64.size - 1 := by omega
    rw [drawUntilDone_succ, draw_behind_last]
  | succ counts ih =>
    rw [drawUntilDone_of_not_stops (by omega) (hnever (n + 1) (Nat.lt_succ_self n) (by omega))]
    exact ih (by omega) fun k hk => hnever k (by omega)

/-- A run of no dimension is refused. -/
theorem estimateLocal_of_empty (hcount : count s.experiment = 0) (w : ω) :
    s.estimateLocal w = (.error (.refused .emptyResult), w) := by
  unfold estimateLocal
  rw [start_eq_error hcount]

theorem estimateLocal_of_run {r : Except TotalsFault (Estimate Real64 × Estimator E)} {w' : ω}
    (hcount : count s.experiment ≠ 0)
    (hrun : (drawUntilDone UInt64.size (s.behind 0)).run (Watch.follow (s.reports 0) w) = (r, w')) :
    s.estimateLocal w = (r.mapError .broken, w') := by
  -- behind no samples the estimator has begun and its experiment is seeded
  rw [behind_zero] at hrun
  have hrun' : (drawUntilDone UInt64.size
      { s.begun with experiment := seed 0 s.begun.experiment }).run w = (r, w') := hrun
  unfold estimateLocal
  rw [start_eq_ok hcount]
  dsimp only
  rw [hrun']
  cases r <;> rfl

theorem estimateLocal_of_least (hcount : count s.experiment ≠ 0) (hn : n < UInt64.size)
    (hleast : IsLeast (s.stoppingPoints w) n) :
    s.estimateLocal w =
      (.ok ((s.behind n).evaluate, s.behind n), Watch.follow (s.reports n) w) := by
  have hfirst : ∀ k, 0 < k → k < n → k ∉ s.stoppingPoints w :=
    fun k _ hk hmem => Nat.not_lt.2 (hleast.2 hmem) hk
  exact estimateLocal_of_run hcount
    (drawUntilDone_behind hn hleast.1 hleast.1.1 (by omega) hfirst)

theorem estimateLocal_of_never (hcount : count s.experiment ≠ 0)
    (hnever : ∀ n < UInt64.size, n ∉ s.stoppingPoints w) :
    s.estimateLocal w =
      (.error (.broken .countOverflow), Watch.follow (s.reports (UInt64.size - 1)) w) := by
  have hall : 0 + (UInt64.size - 1) + 1 = UInt64.size := rfl
  exact estimateLocal_of_run hcount (drawUntilDone_overflows hall fun k _ hk => hnever k hk)

/-- A run in one process ends in one of two ways. -/
theorem estimateLocal_cases (hcount : count s.experiment ≠ 0) (w : ω) :
    (∃ n < UInt64.size, IsLeast (s.stoppingPoints w) n ∧ s.estimateLocal w =
      (.ok ((s.behind n).evaluate, s.behind n), Watch.follow (s.reports n) w)) ∨
    ((∀ n < UInt64.size, n ∉ s.stoppingPoints w) ∧ s.estimateLocal w =
      (.error (.broken .countOverflow), Watch.follow (s.reports (UInt64.size - 1)) w)) := by
  by_cases hstops : ∃ n < UInt64.size, n ∈ s.stoppingPoints w
  · rcases hstops with ⟨n, hn, hmem⟩
    -- among all counts behind which it may end there is a least one
    have hleast : IsLeast (s.stoppingPoints w) (sInf (s.stoppingPoints w)) := isLeast_csInf ⟨n, hmem⟩
    have hlt : sInf (s.stoppingPoints w) < UInt64.size := (Nat.sInf_le hmem).trans_lt hn
    exact .inl ⟨_, hlt, hleast, estimateLocal_of_least hcount hlt hleast⟩
  · have hnever : ∀ n < UInt64.size, n ∉ s.stoppingPoints w :=
      fun n hn hmem => hstops ⟨n, hn, hmem⟩
    exact .inr ⟨hnever, estimateLocal_of_never hcount hnever⟩

theorem samples_reports (s : Estimator E) (hn : n < UInt64.size) :
    (s.reports n).map (fun r => r.samples.toNat) = List.range' 1 n := by
  have hshown : ∀ i ∈ List.range n, (s.behind (i + 1)).totals.samples.toNat = 1 + i :=
    fun i hi => (samples_behind (by have := List.mem_range.1 hi; omega)).trans (Nat.add_comm i 1)
  unfold reports
  rw [List.map_map, List.range'_eq_map_range]
  exact List.map_congr_left hshown

/-- A run in one process ends behind the least count of samples, not zero, behind which the
stopping rule holds for their totals or the interrupt is raised. It has drawn no more and has
reported every count on the way, its estimate says what the totals of these samples alone do, and
these totals are left in the estimator. The estimate is converged exactly if the stopping rule
holds for them, even if the interrupt is raised as well. Where there is no such count the run
draws and reports every sample that can be counted, and returns nothing. -/
theorem stops_at_first_sample (hcount : 1 ≤ count s.experiment) :
    (∀ n < UInt64.size, (s.reports n).map (fun r => r.samples.toNat) = List.range' 1 n) ∧
    (∀ n < UInt64.size, IsLeast (s.stoppingPoints w) n → ∃ e s',
      s.estimateLocal w = (.ok (e, s'), Watch.follow (s.reports n) w) ∧
      e.samples.toNat = n ∧
      s'.totals = (Totals.zero (count s.experiment)).withSamples (s.runDraws n) ∧
      s' = { s with
        experiment := skip n (seed 0 s.experiment)
        totals := s'.totals } ∧
      e = { s'.totals.estimate s.multiplier with converged := e.converged } ∧
      (e.converged = true ↔ s.target.IsMet (s'.totals.estimate s.multiplier))) ∧
    ((∀ n < UInt64.size, n ∉ s.stoppingPoints w) → s.estimateLocal w =
      (.error (.broken .countOverflow), Watch.follow (s.reports (UInt64.size - 1)) w)) := by
  have hdimension : count s.experiment ≠ 0 := by omega
  -- all three parts are about the estimator behind as many samples as it has drawn
  refine ⟨fun n hn => samples_reports s hn, fun n hn hleast => ?_,
    estimateLocal_of_never hdimension⟩
  exact ⟨_, _, estimateLocal_of_least hdimension hn hleast, samples_behind hn, rfl, rfl, rfl,
    decide_eq_true_iff⟩

/-- An estimator of samples that are all 1, with totals that an earlier run has left. -/
def worn : Estimator Replay := ⟨ones, .standard, 1, ⟨[1], [1], 1⟩⟩

/-- A run that is interrupted at its second report has the totals of two samples. -/
theorem stops_at_second_sample :
    1 ≤ count worn.experiment ∧ IsLeast (worn.stoppingPoints (Recorder.new (some 2) false)) 2 ∧
      ∃ e s', worn.estimateLocal (Recorder.new (some 2) false) =
          (.ok (e, s'), Watch.follow (worn.reports 2) (Recorder.new (some 2) false)) ∧
        e.samples.toNat = 2 ∧
        s'.totals = (Totals.zero 1).withSamples [[1], [1]] := by
  have hleast : IsLeast (worn.stoppingPoints (Recorder.new (some 2) false)) 2 := by
    refine ⟨⟨by decide, .inr rfl⟩, fun n hn => ?_⟩
    -- the first report does not raise the interrupt, and one sample does not converge
    have hone : ¬ Stops (worn.behind 1)
        (Watch.follow (worn.reports 1) (Recorder.new (some 2) false)) := by
      rw [stops_iff]
      decide +kernel
    rcases hn with ⟨hpos, hstops⟩
    by_contra hlt
    obtain rfl : n = 1 := by omega
    exact hone hstops
  rcases (stops_at_first_sample (by decide)).2.1 2 (by decide) hleast with
    ⟨e, s', hrun, hsamples, htotals, -⟩
  exact ⟨by decide, hleast, e, s', hrun, hsamples, htotals⟩

end Estimator

end FleetEstimate
