import FleetEstimate.Proofs.Estimation.Stopping
import FleetEstimate.Sweep

/-!
# Sweeps have no memory

A run in one process overwrites all that earlier runs have left. It begins with totals of no
samples and with the random source of seed zero, and so two estimators that agree on target,
multiplier and seeded experiment run alike: they show the same reports and come to the same end,
as long as their followers raise the interrupt behind the same reports. Of an uncoded channel the
seed leaves the block size and the ratio, with which the noise goes. Hence a sweep shows at every
parameter what an estimator shows that has never run before, wherever the parameter stands.
-/

namespace FleetEstimate

open Experiment

theorem Watch.follow_append {ω : Type} [Watch ω] (rs rs' : List Report) (w : ω) :
    Watch.follow (rs ++ rs') w = Watch.follow rs' (Watch.follow rs w) := List.foldl_append

/-- The experiments that seeding and sampling make of another. -/
inductive Experiment.Along {E : Type} [Experiment E] (e : E) : E → Prop
  | here : Along e e
  | seeded {e' : E} (h : Along e e') (s : UInt64) : Along e (seed s e')
  | sampled {e' : E} (h : Along e e') : Along e (sample e').2

theorem Experiment.Along.skip {E : Type} [Experiment E] {e e' : E} (h : Along e e') (n : ℕ) :
    Along e (skip n e') := by
  induction n with
  | zero => exact h
  | succ n ih =>
    rw [skip_succ]
    exact ih.sampled

namespace Estimator

/-! ## Two runs -/

section

variable {E ω ν : Type} [Experiment E] [Watch ω] [Watch ν]
variable {s s' t : Estimator E} {e : Estimate Real64} {w : ω} {v : ν}

/-- A run does no more to an experiment than to seed it and to draw from it. -/
theorem Gives.along (h : Gives s e s') : Along s.experiment s'.experiment := by
  -- without a dimension no run gives anything
  by_cases hcount : count s.experiment = 0
  · cases h with
    | alone h =>
      rw [estimateLocal_of_empty hcount] at h
      cases h
    | fleet h =>
      unfold estimateDistributed at h
      rw [start_eq_error hcount] at h
      cases (Fleet.ends_pure.1 h).1
  cases h with
  | @alone _ _ w _ h =>
    rcases estimateLocal_cases hcount w with ⟨n, -, -, hrun⟩ | ⟨-, hrun⟩
    · rw [hrun] at h
      cases h
      -- seeded once, and then as many samples as the run has drawn
      exact (Along.here.seeded 0).skip n
    · rw [hrun] at h
      cases h
  | fleet h =>
    rw [estimateDistributed_eq hcount] at h
    rcases Fleet.ends_bind.1 h with ⟨_, _, _, -, h⟩
    rcases Fleet.ends_bind.1 h with ⟨_, _, _, hpasses, h⟩
    cases (Fleet.ends_pure.1 h).1
    rcases ends_passUntilDone_iff.1 hpasses with ⟨passes, hcourse, -, -⟩
    -- the passes replace the totals; the experiment is sampled by the workers
    rw [hcourse.sums.1]
    exact .here

/-- Two estimators that runs in one process do not tell apart. -/
structure RunAlike (s t : Estimator E) : Prop where
  target : s.target = t.target
  multiplier : s.multiplier = t.multiplier
  seeded : seed 0 s.experiment = seed 0 t.experiment

theorem RunAlike.count_eq (h : RunAlike s t) : count s.experiment = count t.experiment := by
  rw [← count_seed 0 s.experiment, h.seeded, count_seed]

theorem RunAlike.behind_eq (h : RunAlike s t) (n : ℕ) : s.behind n = t.behind n := by
  unfold behind runDraws
  rw [h.target, h.multiplier, h.seeded, h.count_eq]

theorem RunAlike.reports_eq (h : RunAlike s t) (n : ℕ) : s.reports n = t.reports n := by
  unfold reports
  simp only [h.behind_eq]

/-- Two followers that raise the interrupt behind the same reports of a run. -/
def SameSchedule (s : Estimator E) (w : ω) (v : ν) : Prop :=
  ∀ n, 1 ≤ n → Watch.interrupted (Watch.follow (s.reports n) w) =
    Watch.interrupted (Watch.follow (s.reports n) v)

theorem RunAlike.stoppingPoints_eq (h : RunAlike s t) (hschedule : SameSchedule s w v) :
    s.stoppingPoints w = t.stoppingPoints v := by
  ext n
  refine and_congr_right fun hn => ?_
  rw [stops_iff, stops_iff, ← h.behind_eq, ← h.reports_eq, hschedule n hn]

/-- Runs of estimators that are not told apart show the same reports and have the same result. -/
theorem RunAlike.run (h : RunAlike s t) (hschedule : SameSchedule s w v) :
    ∃ n r, s.estimateLocal w = (r, Watch.follow (s.reports n) w) ∧
      t.estimateLocal v = (r, Watch.follow (s.reports n) v) := by
  by_cases hcount : count s.experiment = 0
  · exact ⟨0, .error (.refused .emptyResult), estimateLocal_of_empty hcount w,
      estimateLocal_of_empty (h.count_eq ▸ hcount) v⟩
  have hcount' : count t.experiment ≠ 0 := h.count_eq ▸ hcount
  -- the same stopping points, so both runs end behind the same sample or neither ends
  rcases estimateLocal_cases hcount w with ⟨n, hn, hleast, hrun⟩ | ⟨hnever, hrun⟩
  · rw [h.stoppingPoints_eq hschedule] at hleast
    have hrun' := estimateLocal_of_least hcount' hn hleast
    rw [← h.behind_eq, ← h.reports_eq] at hrun'
    exact ⟨n, _, hrun, hrun'⟩
  · rw [h.stoppingPoints_eq hschedule] at hnever
    have hrun' := estimateLocal_of_never hcount' hnever
    rw [← h.reports_eq] at hrun'
    exact ⟨_, _, hrun, hrun'⟩

end

end Estimator

/-! ## Runs over the uncoded channel -/

namespace UncodedChannel

/-- The channels there are: built, set to a ratio, seeded and sampled. -/
inductive Made : UncodedChannel → Prop
  | new (blockSize : UInt64) (h : blockSize ≠ 0) : Made (.new blockSize h)
  | set {c : UncodedChannel} (h : Made c) (ratio : Real64) : Made (setParameter ratio c)
  | seeded {c : UncodedChannel} (h : Made c) (s : UInt64) : Made (seed s c)
  | sampled {c : UncodedChannel} (h : Made c) : Made (sample c).2

/-- The noise of a channel goes with its ratio. -/
theorem Made.sigma_eq {c : UncodedChannel} (h : Made c) :
    c.sigma = noiseDeviation c.ratio.toFloat := by
  have hzero : (0.0 : Float) = (0 : Real64).toFloat := rfl
  induction h with
  | new => exact congrArg noiseDeviation hzero
  | set => rfl
  | seeded _ _ ih => exact ih
  | sampled _ ih => exact ih

/-- A seed leaves nothing of a channel but its block size and its ratio. -/
theorem Made.seed_eq {c c' : UncodedChannel} (h : Made c) (h' : Made c')
    (hsize : c.blockSize = c'.blockSize) (hratio : c.ratio = c'.ratio) (s : UInt64) :
    seed s c = seed s c' := by
  have hsigma : c.sigma = c'.sigma := by rw [h.sigma_eq, h'.sigma_eq, hratio]
  rcases c with ⟨n, hn, ratio, sigma, g⟩
  rcases c' with ⟨n', hn', ratio', sigma', g'⟩
  obtain rfl : n = n' := hsize
  obtain rfl : ratio = ratio' := hratio
  obtain rfl : sigma = sigma' := hsigma
  rfl

theorem Made.along {c c' : UncodedChannel} (h : Made c) (halong : Along c c') : Made c' := by
  induction halong with
  | here => exact h
  | seeded _ s ih => exact ih.seeded s
  | sampled _ ih => exact ih.sampled

theorem blockSize_along {c c' : UncodedChannel} (h : Along c c') : c'.blockSize = c.blockSize := by
  induction h with
  | here => rfl
  | seeded _ _ ih => exact ih
  | sampled _ ih => exact ih

end UncodedChannel

namespace Estimator

open UncodedChannel (Made)

/-- What can be made of an estimator over an uncoded channel: it is built, its channel is handled
or replaced in any way, its target is changed, and it runs, in one process or over a fleet. -/
inductive Used : Estimator UncodedChannel → Prop
  | new {c : UncodedChannel} {target : Target} {s : Estimator UncodedChannel} (hc : Made c)
      (h : Estimator.new c target = .ok s) : Used s
  | handled {s : Estimator UncodedChannel} {c : UncodedChannel} (h : Used s) (hc : Made c) :
      Used { s with experiment := c }
  | setAccuracy {s s' : Estimator UncodedChannel} {accuracy : Real64} (h : Used s)
      (h' : s.setAccuracy accuracy = .ok s') : Used s'
  | setConfidence {s s' : Estimator UncodedChannel} {confidence : Real64} (h : Used s)
      (h' : s.setConfidence confidence = .ok s') : Used s'
  | ran {s s' : Estimator UncodedChannel} {e : Estimate Real64} (h : Used s)
      (h' : Gives s e s') : Used s'

section

variable {E : Type} {s s' : Estimator E}

theorem new_eq_ok [Experiment E] {e : E} {target : Target} (h : Estimator.new e target = .ok s) :
    multiplierOf target.confidence = .ok s.multiplier ∧ s.experiment = e ∧ s.target = target := by
  unfold Estimator.new at h
  -- two things are checked in turn: the dimension and then the level
  cases hcount : dimension e with
  | error err =>
    rw [hcount] at h
    cases h
  | ok count =>
    cases hz : multiplierOf target.confidence with
    | error err =>
      rw [hcount, hz] at h
      cases h
    | ok z =>
      rw [hcount, hz] at h
      cases h
      exact ⟨rfl, rfl, rfl⟩

theorem setAccuracy_eq_ok {accuracy : Real64} (h : s.setAccuracy accuracy = .ok s') :
    IsAccuracy accuracy ∧ s' = { s with target := { s.target with accuracy } } := by
  unfold setAccuracy at h
  cases ht : s.target.withAccuracy accuracy with
  | error e =>
    rw [ht] at h
    cases h
  | ok target =>
    rw [ht] at h
    cases h
    rcases Target.withAccuracy_eq_ok ht with ⟨haccuracy, rfl⟩
    exact ⟨haccuracy, rfl⟩

theorem setConfidence_eq_ok {confidence : Real64} (h : s.setConfidence confidence = .ok s') :
    multiplierOf confidence = .ok s'.multiplier ∧
      s' = { s with target := { s.target with confidence }, multiplier := s'.multiplier } := by
  unfold setConfidence at h
  cases ht : s.target.withConfidence confidence with
  | error e =>
    rw [ht] at h
    cases h
  | ok target =>
    cases hz : multiplierOf confidence with
    | error e =>
      rw [ht, hz] at h
      cases h
    | ok z =>
      rw [ht, hz] at h
      cases h
      rw [Target.withConfidence_eq_ok ht]
      exact ⟨rfl, rfl⟩

end

variable {s t : Estimator UncodedChannel}

/-- Whatever has become of an estimator, its channel is one that there is, and its multiplier is
that of its confidence. -/
theorem Used.sound (h : Used s) :
    Made s.experiment ∧ multiplierOf s.target.confidence = .ok s.multiplier := by
  -- by induction on what was done with the estimator
  induction h with
  | new hc h =>
    rcases new_eq_ok h with ⟨hz, rfl, rfl⟩
    exact ⟨hc, hz⟩
  | handled _ hc ih => exact ⟨hc, ih.2⟩
  | setAccuracy _ h' ih =>
    rw [(setAccuracy_eq_ok h').2]
    exact ih
  | setConfidence _ h' ih =>
    rcases setConfidence_eq_ok h' with ⟨hz, hs⟩
    rw [hs]
    exact ⟨ih.1, hz⟩
  | ran _ h' ih =>
    -- a run leaves the target and the multiplier
    rcases h'.inRun with ⟨hrun, -⟩
    rw [hrun.target, hrun.multiplier]
    exact ⟨ih.1.along h'.along, ih.2⟩

/-- Of all that has become of an estimator, a run depends on nothing but the block size, the
ratio and the target. -/
theorem Used.runAlike (hs : Used s) (ht : Used t)
    (hsize : s.experiment.blockSize = t.experiment.blockSize)
    (hratio : s.experiment.ratio = t.experiment.ratio) (htarget : s.target = t.target) :
    RunAlike s t := by
  refine ⟨htarget, ?_, hs.sound.1.seed_eq ht.sound.1 hsize hratio 0⟩
  have hz := hs.sound.2
  rw [htarget, ht.sound.2] at hz
  exact (Except.ok.inj hz).symm

end Estimator

/-! ## Sweeps -/

/-- A follower that raises no interrupt, whatever it is shown. -/
def Watch.Quiet {ω : Type} [Watch ω] (w : ω) : Prop :=
  ∀ rs, Watch.interrupted (Watch.follow rs w) = false

theorem Watch.Quiet.follow {ω : Type} [Watch ω] {w : ω} (h : Watch.Quiet w) (rs : List Report) :
    Watch.Quiet (Watch.follow rs w) := by
  intro rs'
  rw [← Watch.follow_append]
  exact h _

theorem quiet_unwatched : Watch.Quiet Unwatched.mk := fun _ => rfl

/-- The estimate at a parameter that an estimator of the settings gives if it is new, over a new
channel at this parameter. -/
def Settings.freshEstimate (settings : Settings) (p : Real64) : Option (Estimate Real64) :=
  let channel := UncodedChannel.new settings.blockSize settings.blockSize_ne_zero
  match Estimator.new (setParameter p channel) settings.target with
  | .error _ => none
  | .ok s =>
    match (s.estimateLocal Unwatched.mk).1 with
    | .error _ => none
    | .ok (e, _) => some e

namespace Estimator

open UncodedChannel (Made)

theorem fresh_of_freshEstimate {settings : Settings} {p : Real64} {e : Estimate Real64}
    (h : settings.freshEstimate p = some e) :
    ∃ s s', Estimator.new (setParameter p
        (UncodedChannel.new settings.blockSize settings.blockSize_ne_zero)) settings.target = .ok s ∧
      (s.estimateLocal Unwatched.mk).1 = .ok (e, s') := by
  simp only [Settings.freshEstimate] at h
  -- an estimate has come about only if there is an estimator and its run ends
  split at h
  · cases h
  · rename_i s hnew
    split at h
    · cases h
    · rename_i hrun
      cases h
      exact ⟨s, _, hnew, hrun⟩

/-- An estimator of a node with these settings. -/
structure Serves (settings : Settings) (s : Estimator UncodedChannel) : Prop where
  used : Used s
  blockSize : s.experiment.blockSize = settings.blockSize
  target : s.target = settings.target

variable {settings : Settings} {s s' : Estimator UncodedChannel}
variable {ω : Type} [Watch ω] {w : ω} {p : Real64} {e : Estimate Real64}

theorem serves_new (h : settings.estimator = .ok s) : Serves settings s := by
  rcases new_eq_ok h with ⟨-, hexperiment, htarget⟩
  exact ⟨.new (.new _ _) h, by rw [hexperiment]; rfl, htarget⟩

/-- Whatever has become of the estimator of a node, at a parameter it gives what a new one does. -/
theorem Serves.estimateAt (h : Serves settings s) (hquiet : Watch.Quiet w)
    (hfresh : settings.freshEstimate p = some e) :
    ∃ s' w', s.estimateAt p w = (.ok (e, s'), w') ∧ Serves settings s' ∧ Watch.Quiet w' := by
  rcases fresh_of_freshEstimate hfresh with ⟨t, t', hnew, hrun⟩
  rcases new_eq_ok hnew with ⟨-, hchannel, htarget⟩
  let at_p : Estimator UncodedChannel := { s with experiment := setParameter p s.experiment }
  have hused : Used at_p := h.used.handled (h.used.sound.1.set p)
  -- used or new, both have the same block size, parameter and target
  have halike : RunAlike at_p t := by
    refine hused.runAlike (.new ((Made.new _ _).set p) hnew) ?_ ?_ (h.target.trans htarget.symm)
    · rw [hchannel]
      exact h.blockSize
    · rw [hchannel]
      rfl
  have hschedule : SameSchedule at_p w Unwatched.mk := fun n _ => hquiet _
  rcases halike.run hschedule with ⟨n, r, hat, hnew'⟩
  obtain rfl : r = .ok (e, t') := by
    rw [hnew'] at hrun
    exact hrun
  have hgives : Gives at_p e t' := .alone hat
  refine ⟨t', _, hat, ⟨hused.ran hgives, ?_, ?_⟩, hquiet.follow _⟩
  · rw [UncodedChannel.blockSize_along hgives.along]
    exact h.blockSize
  · rw [hgives.inRun.1.target]
    exact h.target

/-- A sweep has a row for each parameter, with what a new estimator gives there. -/
theorem Serves.sweep {estimates : Real64 → Estimate Real64} {ps : List Real64}
    (h : Serves settings s) (hquiet : Watch.Quiet w)
    (hfresh : ∀ p ∈ ps, settings.freshEstimate p = some (estimates p)) :
    ∃ w', s.sweep ps w = (ps.map fun p => (p, estimates p), none, w') := by
  -- by induction on the parameters; every estimate leaves an estimator that serves the next
  induction ps generalizing s w with
  | nil => exact ⟨w, rfl⟩
  | cons p ps ih =>
    rcases h.estimateAt hquiet (hfresh p List.mem_cons_self) with ⟨s', w', hrun, h', hquiet'⟩
    rcases ih h' hquiet' fun q hq => hfresh q (List.mem_cons_of_mem p hq) with ⟨w'', hrest⟩
    have hgoesOn : Watch.interrupted w' = false := hquiet' []
    refine ⟨w'', ?_⟩
    rw [Estimator.sweep, hrun]
    simp only [hgoesOn, hrest]
    rfl

theorem runAlone_of_sweep {rows : List (Real64 × Estimate Real64)} {w' : Unwatched}
    (h : settings.estimator = .ok s)
    (hsweep : s.sweep settings.parameters Unwatched.mk = (rows, none, w')) :
    settings.runAlone = ⟨0, rows.map fun r => sweepRow r.1 r.2, []⟩ := by
  unfold Settings.runAlone
  simp only [h, hsweep]

/-- A sweep has no memory. If a new estimator comes to an end at every parameter, a sweep over any
of the parameters, in any order and with any repetitions, has a row for each of them in this
order, and each row has the estimate of the new estimator, which depends on the parameter alone.
More generally a run in one process shows reports and comes to a result that depend, of all that
has become of the estimator, only on the block size, the parameter and the target, and on when the
interrupt is raised. -/
theorem sweep_has_no_memory (hnew : settings.estimator = .ok s)
    (hends : ∀ p ∈ settings.parameters, (settings.freshEstimate p).isSome) :
    (∃ estimates : Real64 → Estimate Real64,
      (∀ p ∈ settings.parameters, settings.freshEstimate p = some (estimates p)) ∧
      ∀ ps ⊆ settings.parameters,
        (∀ (ω : Type) [Watch ω] (w : ω), Watch.Quiet w →
          ∃ w', s.sweep ps w = (ps.map fun p => (p, estimates p), none, w')) ∧
        { settings with parameters := ps }.runAlone =
          ⟨0, ps.map fun p => sweepRow p (estimates p), []⟩) ∧
    ∀ s₁ s₂ : Estimator UncodedChannel, Used s₁ → Used s₂ →
      s₁.experiment.blockSize = s₂.experiment.blockSize →
      parameter s₁.experiment = parameter s₂.experiment → s₁.target = s₂.target →
      ∀ (ω ν : Type) [Watch ω] [Watch ν] (w : ω) (v : ν), SameSchedule s₁ w v →
        ∃ n r, s₁.estimateLocal w = (r, Watch.follow (s₁.reports n) w) ∧
          s₂.estimateLocal v = (r, Watch.follow (s₁.reports n) v) := by
  constructor
  · -- the estimates are those of new estimators, found before the sweep is run
    have hfound : ∀ p ∈ settings.parameters, settings.freshEstimate p =
        some ((settings.freshEstimate p).getD (s.totals.estimate 0)) := by
      intro p hp
      rcases Option.isSome_iff_exists.1 (hends p hp) with ⟨e, he⟩
      rw [he, Option.getD_some]
    refine ⟨_, hfound, fun ps hps => ?_⟩
    have hserves := serves_new hnew
    have hfresh := fun p hp => hfound p (hps hp)
    refine ⟨fun ω _ w hquiet => hserves.sweep hquiet hfresh, ?_⟩
    rcases hserves.sweep quiet_unwatched hfresh with ⟨w', hsweep⟩
    -- the program shows the rows of this sweep
    let some_of_them : Settings := { settings with parameters := ps }
    have hshown : some_of_them.runAlone = _ := runAlone_of_sweep hnew hsweep
    rw [hshown, List.map_map]
    rfl
  · intro s₁ s₂ h₁ h₂ hsize hratio htarget ω ν _ _ w v hschedule
    exact (h₁.runAlike h₂ hsize hratio htarget).run hschedule

/-- Settings with which every run ends at once: any tolerance will do, for any number of
samples. No node can be given such a target. But whether a run comes to a tolerance that can be
asked for hangs on the noise, which goes with a power of ten, and nothing is known here of the
powers of floats. If the noise were zero, there would be no errors and no end. -/
def lenient : Settings where
  endpoint := .alone
  target := { Target.standard with accuracy := Scalar.infinity, minSamples := 0 }
  parameters := [1, 0, 1]
  blockSize := 1
  blockSize_ne_zero := by decide
  workUnit := 500
  workerName := none

/-- The tolerances of a single sample say nothing. -/
theorem accuracy_of_single {t : Totals Real64} (z : Real64) (ht : t.Fits 2)
    (hsamples : t.samples = 1) : (t.estimate z).accuracy = Scalar.infinity := by
  have htolerance : ∀ sum sumSq, tolerance sum sumSq 1 z = Scalar.infinity := fun _ _ => rfl
  have hlargest : [Scalar.infinity, Scalar.infinity].foldl Scalar.larger (0 : Real64) =
      Scalar.infinity := by decide
  rcases List.length_eq_two.1 ht.1 with ⟨a, b, hsum⟩
  rcases List.length_eq_two.1 ht.2 with ⟨c, d, hsumSq⟩
  unfold Totals.estimate
  simp only [hsum, hsumSq, hsamples, List.zipWith_cons_cons, List.zipWith_nil_right, htolerance,
    hlargest]

theorem freshEstimate_lenient (p : Real64) : (lenient.freshEstimate p).isSome := by
  rcases multiplierOf_standard with ⟨z, hz⟩
  let s : Estimator UncodedChannel :=
    ⟨setParameter p (.new 1 (by decide)), lenient.target, z, .zero 2⟩
  have hdimension : count s.experiment ≠ 0 := Nat.succ_ne_zero 1
  have hnew : Estimator.new (setParameter p (UncodedChannel.new lenient.blockSize
      lenient.blockSize_ne_zero)) lenient.target = .ok s := new_of_multiplier hdimension hz
  have haccuracy := accuracy_of_single z (fits_behind s 1) rfl
  have hwithin : (Scalar.infinity : Real64) ≤ Scalar.infinity := by decide
  -- any accuracy and any count will do, so one sample is enough
  have hleast : IsLeast (s.stoppingPoints Unwatched.mk) 1 :=
    ⟨⟨le_refl 1, .inl ⟨haccuracy.trans_le hwithin, UInt64.zero_le⟩⟩, fun n hn => hn.1⟩
  have hrun := estimateLocal_of_least hdimension (by decide) hleast
  simp only [Settings.freshEstimate, hnew, hrun, Option.isSome_some]

/-- The same settings with the target that a node has by default. -/
def exacting : Settings := { lenient with target := .standard }

/-- The environment of a node with these settings. -/
def singleBits : String → Option String
  | "PARAMETERS" => some "1,0,1"
  | "BLOCK_SIZE" => some "1"
  | _ => none

/-- A run shows and returns the same after its channel was seeded and sampled. -/
def Forgets (s : Estimator UncodedChannel) : Prop :=
  ∃ n r, s.estimateLocal Unwatched.mk = (r, Watch.follow (s.reports n) Unwatched.mk) ∧
    estimateLocal { s with experiment := (sample (seed 7 s.experiment)).2 } Unwatched.mk =
      (r, Watch.follow (s.reports n) Unwatched.mk)

/-- A sweep with a repetition, and runs over a channel that was seeded and sampled before, also
with settings that a node can be given. -/
theorem sweep_of_lenient :
    (∃ s e₀ e₁, lenient.estimator = .ok s ∧
      lenient.runAlone = ⟨0, [sweepRow 1 e₁, sweepRow 0 e₀, sweepRow 1 e₁], []⟩ ∧ s.Forgets) ∧
    Settings.read singleBits = .ok exacting ∧ ∃ s, exacting.estimator = .ok s ∧ s.Forgets := by
  rcases multiplierOf_standard with ⟨z, hz⟩
  let channel := UncodedChannel.new lenient.blockSize lenient.blockSize_ne_zero
  let s : Estimator UncodedChannel := ⟨channel, lenient.target, z, .zero 2⟩
  let t : Estimator UncodedChannel := ⟨channel, exacting.target, z, .zero 2⟩
  have hdimension : count channel ≠ 0 := Nat.succ_ne_zero 1
  have hs : lenient.estimator = .ok s := new_of_multiplier hdimension hz
  have ht : exacting.estimator = .ok t := new_of_multiplier hdimension hz
  have hchannel : Made channel := .new _ _
  rcases sweep_has_no_memory hs fun p _ => freshEstimate_lenient p with
    ⟨⟨estimates, -, hrows⟩, hruns⟩
  -- seeded and sampled, the channel is the same to a run: seeding it again wipes out both
  have hforgets : ∀ target, Used ⟨channel, target, z, .zero 2⟩ →
      Forgets ⟨channel, target, z, .zero 2⟩ := by
    intro target hused
    have hhandled := hused.handled (hchannel.seeded 7).sampled
    exact hruns _ _ hused hhandled rfl rfl rfl _ _ _ _ fun _ _ => rfl
  exact ⟨⟨s, estimates 0, estimates 1, hs, (hrows _ (List.Subset.refl _)).2,
    hforgets _ (.new hchannel hs)⟩, rfl, t, ht, hforgets _ (.new hchannel ht)⟩

end Estimator

end FleetEstimate
