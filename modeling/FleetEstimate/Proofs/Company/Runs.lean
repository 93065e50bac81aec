import FleetEstimate.Experiment.Replay
import FleetEstimate.Proofs.Company.Passes
import FleetEstimate.Proofs.Estimation.Convergence

/-!
# Runs over one worker

A run over a worker with work units of one sample does what a run in one process does: the same
samples in the same order, a report after each of them, and the same end.
-/

namespace FleetEstimate

open Fleet

variable {E : Type} [Experiment E]

/-! ## Reports -/

/-- What a report shows of the totals. -/
def Report.shown (r : Report) : UInt64 × Real64 × Real64 := (r.samples, r.mean, r.percent)

/-- Two recorders that have been shown the same, and raise the interrupt at the same report. -/
structure Recorder.Alike (x y : Recorder) : Prop where
  reports : x.reports.toList.map Report.shown = y.reports.toList.map Report.shown
  limit : x.limit = y.limit
  raised : x.raised = y.raised

theorem Recorder.alike_refl (x : Recorder) : x.Alike x := ⟨rfl, rfl, rfl⟩

theorem Recorder.Alike.add {x y : Recorder} (h : x.Alike y) {r r' : Report}
    (hshown : r.shown = r'.shown) : (x.add r).Alike (y.add r') := by
  have hsize : x.reports.size = y.reports.size := by
    simpa using congrArg List.length h.reports
  refine ⟨?_, h.limit, ?_⟩
  · simp only [Recorder.add, Array.toList_push, List.map_append, List.map_cons, List.map_nil,
      h.reports, hshown]
  · simp only [Recorder.add, h.raised, h.limit, hsize]

/-! ## Runs in one process -/

namespace Estimator

/-- The estimator of a run of `e` in one process that has drawn `n` samples. -/
def along (s : Estimator E) (e : E) (n : ℕ) : Estimator E :=
  { s with experiment := Experiment.skip n (Experiment.seed 0 e) }

variable {s : Estimator E} {e : E} {n : ℕ}

theorem draw_along (s : Estimator E) (e : E) (n : ℕ) :
    (s.along e n).draw = (s.totals.accumulate (runSample e n)).map fun totals =>
      along { s with totals } e (n + 1) := by
  rw [draw_eq]
  unfold along
  rw [Experiment.skip_succ]
  rfl

theorem samples_of_draw {s' : Estimator E} (h : s.draw = .ok s') :
    s'.totals.samples.toNat = s.totals.samples.toNat + 1 := by
  rw [draw_eq] at h
  cases hadds : s.totals.accumulate (Experiment.sample s.experiment).1 with
  | error fault =>
    rw [hadds] at h
    cases h
  | ok t =>
    rw [hadds] at h
    cases h
    exact Totals.samples_of_accumulate hadds

/-- A run in one process that ends has drawn another sample. -/
theorem lt_samples_of_drawUntilDone {ω : Type} [Watch ω] {counts : ℕ} {w w' : ω}
    {estimate : Estimate Real64} {s' : Estimator E}
    (h : (drawUntilDone counts s).run w = (.ok (estimate, s'), w')) :
    s.totals.samples.toNat < estimate.samples.toNat := by
  -- by induction on the turns that are left; every turn adds one sample
  induction counts generalizing s w with
  | zero => cases h
  | succ counts ih =>
    rw [drawUntilDone_succ] at h
    cases hdraw : s.draw with
    | error fault =>
      rw [hdraw] at h
      cases h
    | ok s₁ =>
      have hsamples := samples_of_draw hdraw
      simp only [hdraw] at h
      split at h
      · cases h
        change _ < s'.totals.samples.toNat
        omega
      · have hlt := ih h
        omega

end Estimator

/-! ## Runs over a worker -/

variable {c : WorkerConfig} {f : Fleet (WorkerEnd E)} {w : Ensemble E} {e e₀ : E} {n : ℕ}

/-- What is left of a run over a worker, with `counts` passes at most, and what is left of the run
in one process, `alone`, come to the same. -/
inductive Agree (c : WorkerConfig) (s : Estimator E) (e : E) (n counts : ℕ)
    (f : Fleet (WorkerEnd E)) (w : Ensemble E)
    (alone : Except TotalsFault (Estimate Real64 × Estimator E) × Recorder) : Prop
  | ends {estimate : Estimate Real64} {s' : Estimator E} {r : Recorder}
      {past : List Turn} {f' : Fleet (WorkerEnd E)} {w' : Ensemble E}
      (process : alone = (.ok (estimate, s'), r))
      (fleet : Ends (Estimator.passUntilDone (.of e) counts s) f w
        (estimate, { s with totals := s'.totals }) f' w')
      (alike : w'.recorder.Alike r)
      (staffed : Staffed c .idle past [] f' w')
  | overflows {w' : Ensemble E}
      (process : ∀ estimate s' r, alone = (.ok (estimate, s'), r) →
        n + counts < estimate.samples.toNat + w.holdups)
      (fleet : Breaks (Estimator.passUntilDone (.of e) counts s) f w (.totals .countOverflow) w')

section Steps

variable {s s₁ : Estimator E} {counts : ℕ} {f₁ : Fleet (WorkerEnd E)} {w₁ : Ensemble E}
variable {alone : Except TotalsFault (Estimate Real64 × Estimator E) × Recorder}

/-- A run goes on behind a pass that ends neither by the stopping rule nor by the interrupt. -/
theorem run_passUntilDone_succ {a : Assignment} (counts : ℕ)
    (hpass : Ends (s.pass a) f w s₁ f₁ w₁) :
    ((Estimator.passUntilDone a (counts + 1) s).run f).run w =
      if s₁.evaluate.converged || w₁.recorder.raised then (.ok ((s₁.evaluate, s₁), f₁), w₁)
      else ((Estimator.passUntilDone a counts s₁).run f₁).run w₁ := by
  unfold Ends at hpass
  rw [Estimator.passUntilDone, run_bind, hpass]
  change (((if s₁.evaluate.converged || w₁.recorder.raised then pure (s₁.evaluate, s₁)
    else Estimator.passUntilDone a counts s₁ :
      FleetM (Ensemble E) (WorkerEnd E) (Estimate Real64 × Estimator E)).run f₁).run w₁ = _)
  split <;> rfl

/-- A pass in vain changes nothing but the holdups. -/
theorem Agree.held (hpass : Ends (s.pass (.of e)) f w s f₁ w₁)
    (hgoesOn : s.evaluate.converged = false) (hraised : w₁.recorder.raised = false)
    (hholdups : w₁.holdups < w.holdups) (h : Agree c s e n counts f₁ w₁ alone) :
    Agree c s e n (counts + 1) f w alone := by
  have hrun := run_passUntilDone_succ counts hpass
  rw [hgoesOn, hraised] at hrun
  -- the run goes on with the same estimator, so it is up against the same run in one process
  cases h with
  | ends process fleet alike staffed =>
    exact .ends process (hrun.trans fleet) alike staffed
  | overflows process fleet =>
    refine .overflows (fun estimate s' r hdone => ?_) (hrun.trans fleet)
    have hlt := process estimate s' r hdone
    -- one pass more, and one holdup more than those that are left
    omega

variable {t : Totals Real64} {k : ℕ} {r : Recorder}

/-- A run in one process goes on behind a sample after which it need not end. -/
theorem drawUntilDone_along_succ (hadds : s.totals.accumulate (runSample e n) = .ok t)
    (hs : s₁ = { s with totals := t }) :
    (Estimator.drawUntilDone (k + 1) (s.along e n)).run r =
      let r₁ := r.add (.ofEstimate s₁.evaluate none none)
      if s₁.evaluate.converged || r₁.raised then (.ok (s₁.evaluate, s₁.along e (n + 1)), r₁)
      else (Estimator.drawUntilDone k (s₁.along e (n + 1))).run r₁ := by
  rw [Estimator.drawUntilDone_succ, Estimator.draw_along, hadds, hs]
  rfl

/-- A pass that adds a sample leaves a run over a worker where the run in one process is behind
that sample. -/
theorem Agree.sampled (hpass : Ends (s.pass (.of e)) f w s₁ f₁ w₁)
    (hs : s₁ = { s with totals := t }) (hgoesOn : s₁.evaluate.converged = false)
    (hraised : w₁.recorder.raised = false) (hholdups : w₁.holdups ≤ w.holdups)
    (h : Agree c s₁ e (n + 1) counts f₁ w₁ alone) : Agree c s e n (counts + 1) f w alone := by
  have hrun := run_passUntilDone_succ counts hpass
  rw [hgoesOn, hraised] at hrun
  subst hs
  cases h with
  | ends process fleet alike staffed =>
    exact .ends process (hrun.trans fleet) alike staffed
  | overflows process fleet =>
    refine .overflows (fun estimate s' r hdone => ?_) (hrun.trans fleet)
    have hlt := process estimate s' r hdone
    -- one pass more and one sample more: the sum is the same
    omega

end Steps

/-- From the same totals on, a run over a worker does what a run in one process does. -/
theorem passUntilDone_agrees (hsuits : Suits c e e₀) {s : Estimator E} {k : ℕ} {r : Recorder}
    (ht : s.totals.Holds (Experiment.count e) n) (hk : k + n = UInt64.size)
    (hgoesOn : s.evaluate.converged = false) (hraised : r.raised = false)
    (halike : w.recorder.Alike r) (h : Phase c e e₀ f w n) (counts : ℕ) :
    Agree c s e n counts f w ((Estimator.drawUntilDone k (s.along e n)).run r) := by
  -- a pass in vain keeps everything but the holdups; behind any other pass the run in one process
  -- has drawn one sample more, which is the sample that the pass has added
  induction counts generalizing s n k r f w with
  | zero =>
    -- out of passes, but a run in one process that ends draws at least one more sample
    refine .overflows (fun estimate s' r' hdone => ?_) (breaks_throw.2 ⟨rfl, rfl⟩)
    have hlt := Estimator.lt_samples_of_drawUntilDone hdone
    have hsame : (s.along e n).totals.samples = s.totals.samples := rfl
    rw [hsame, ht.samples] at hlt
    omega
  | succ counts ih =>
    obtain ⟨k, rfl⟩ : ∃ k', k = k' + 1 := by
      have hlt := s.totals.samples.toNat_lt
      have hsize : UInt64.size = 2 ^ 64 := rfl
      rw [ht.samples] at hlt
      exact ⟨k - 1, by omega⟩
    cases passed hsuits ht h with
    | held ends phase recorder holdups =>
      rw [← recorder] at halike
      refine Agree.held ends hgoesOn (halike.raised.trans hraised) holdups ?_
      exact ih ht hk hgoesOn hraised halike phase
    | @sampled t past f₁ w₁ workers speedup adds ends staffed assigned recorder holdups =>
      obtain ⟨s₁, hs⟩ : ∃ s₁, s₁ = { s with totals := t } := ⟨_, rfl⟩
      rw [← hs] at ends recorder
      have halike₁ : w₁.recorder.Alike (r.add (.ofEstimate s₁.evaluate none none)) := by
        rw [recorder]
        exact halike.add rfl
      rw [drawUntilDone_along_succ adds hs]
      dsimp only
      split
      · -- both runs end here
        rename_i hstop
        have hrun := run_passUntilDone_succ counts ends
        rw [halike₁.raised, if_pos hstop] at hrun
        subst hs
        exact .ends rfl hrun halike₁ staffed
      · rename_i hgoesOn₁
        rw [Bool.or_eq_true, not_or, Bool.not_eq_true, Bool.not_eq_true] at hgoesOn₁
        have hraised₁ := halike₁.raised.trans hgoesOn₁.2
        have ht₁ : s₁.totals.Holds (Experiment.count e) (n + 1) := by
          rw [hs]
          exact ht.accumulate adds
        refine Agree.sampled ends hs hgoesOn₁.1 hraised₁ holdups ?_
        exact ih ht₁ (by omega) hgoesOn₁.1 hgoesOn₁.2 halike₁ (.idle staffed assigned)
    | overflows adds breaks =>
      -- a sample that cannot be counted ends neither run
      refine .overflows (fun estimate s' r' hdone => ?_) (breaks_bind.2 (.inl breaks))
      rw [Estimator.drawUntilDone_succ, Estimator.draw_along, adds] at hdone
      cases hdone

/-! ## Whole runs -/

namespace Estimator

variable {s : Estimator E}

/-- A run in one process is what it does from its first sample on. -/
theorem estimateLocal_eq_ok_iff {ω : Type} [Watch ω] {w w' : ω} {r : Estimate Real64 × Estimator E}
    (hcount : Experiment.count s.experiment ≠ 0) :
    s.estimateLocal w = (.ok r, w') ↔
      (drawUntilDone UInt64.size (s.begun.along s.experiment 0)).run w = (.ok r, w') := by
  refine ⟨fun h => ?_, estimateLocal_eq_ok (start_eq_ok hcount)⟩
  unfold estimateLocal at h
  simp only [start_eq_ok hcount] at h
  split at h
  · cases h
    assumption
  · cases h

end Estimator

theorem AtDoor.ends_settled {w : Ensemble E} (h : AtDoor c f w) :
    ∃ f', Ends (do settle; resetAll; resetBusyTime) f w ⟨⟩ f' w ∧ AtDoor c f' w := by
  have hnone : f.anyWorking = false := by
    rw [anyWorking, find?_of_nobody h.nobody]
    rfl
  refine ⟨_, (ends_bind_of_ends (ends_settle_of_none hnone)).2
    (ends_modifyFleet_bind.2 (ends_modifyFleet.2 ⟨rfl, rfl⟩)), ?_, h.door⟩
  simp [Roster.mapEntries, h.nobody]

theorem Staffed.ends_settled {past : List Turn} {out : Bytes} {s : MemberState}
    (h : Staffed c s past out f w) (hs : s ≠ .working) :
    ∃ f', Ends (do settle; resetAll; resetBusyTime) f w ⟨⟩ f' w ∧
      Staffed c .fresh past out f' w := by
  rcases h.member with ⟨id, m, hsole, rfl, hattended⟩
  rcases hsole.ends_resetAll (w := w) with ⟨f', hreset, hsole'⟩
  refine ⟨_, (ends_bind_of_ends (ends_settle_of_none (hsole.anyWorking_eq_false hs))).2
    ((ends_bind_of_ends hreset).2 (ends_modifyFleet.2 ⟨rfl, rfl⟩)), h.door, id, _, hsole', rfl,
    hattended⟩

namespace Company

/-- The only worker of a company is at its door, or is a member that owes nothing. -/
inductive Manned (config : WorkerConfig) (c : Company E) : Prop
  | door (atDoor : AtDoor config c.fleet c.world)
  | member {s : MemberState} {past : List Turn} (staffed : Staffed config s past [] c.fleet c.world)
      (quiet : s ≠ .working)

variable {config : WorkerConfig} {x : Company E}

theorem Manned.ends_settled (h : x.Manned config) (e e₀ : E) (recorder : Recorder) :
    ∃ f', Ends (do settle; resetAll; resetBusyTime) x.fleet { x.world with recorder } ⟨⟩ f'
        { x.world with recorder } ∧ Phase config e e₀ f' { x.world with recorder } 0 := by
  cases h with
  | door h =>
    -- before the worker comes in there is nobody to settle with
    have hdoor : AtDoor config x.fleet { x.world with recorder } := ⟨h.nobody, h.door⟩
    rcases hdoor.ends_settled with ⟨f', hends, hdoor'⟩
    exact ⟨f', hends, .door hdoor'⟩
  | member h hs =>
    -- what the member sent in an earlier run was read there; it is reset like a newcomer
    have hstaffed : Staffed config _ _ [] x.fleet { x.world with recorder } := ⟨h.door, h.member⟩
    rcases hstaffed.ends_settled hs with ⟨f', hends, hstaffed'⟩
    exact ⟨f', hends, .fresh hstaffed'⟩

/-! ## Runs of a company -/

omit [Experiment E] in
theorem perform_of_ends {α : Type} {act : FleetM (Ensemble E) (WorkerEnd E) α} {a : α}
    {f' : Fleet (WorkerEnd E)} {w' : Ensemble E} (h : Ends act x.fleet x.world a f' w') :
    x.perform act = .ok (a, { x with fleet := f', world := w' }) := by
  have hrun : (act x.fleet).run x.world = (.ok (a, f'), w') := h
  rw [perform, hrun]

omit [Experiment E] in
theorem perform_of_breaks {α : Type} {act : FleetM (Ensemble E) (WorkerEnd E) α}
    {fault : FleetFault} {w' : Ensemble E} (h : Breaks act x.fleet x.world fault w') :
    x.perform act = .error fault := by
  have hrun : (act x.fleet).run x.world = (.error fault, w') := h
  rw [perform, hrun]

variable {recorder : Recorder}

theorem run_of_ends {estimate : Estimate Real64} {s : Estimator E} {f' : Fleet (WorkerEnd E)}
    {w' : Ensemble E} (h : Ends x.estimator.estimateDistributed x.fleet
      { x.world with recorder } (.ok (estimate, s)) f' w') :
    x.run recorder = .ok (.ok estimate, ⟨s, f', w'⟩) := by
  have hperform := perform_of_ends (x := { x with world.recorder := recorder }) h
  rw [run]
  dsimp only
  rw [hperform]
  rfl

theorem run_of_breaks {fault : FleetFault} {w' : Ensemble E}
    (h : Breaks x.estimator.estimateDistributed x.fleet { x.world with recorder } fault w') :
    x.run recorder = .error fault := by
  have hperform := perform_of_breaks (x := { x with world.recorder := recorder }) h
  rw [run]
  dsimp only
  rw [hperform]
  rfl

/-- A run over one worker with work units of one sample does what the same run does in one process,
unless so many waits are held up that the passes cannot be counted. -/
theorem run_agrees (hsuits : Suits config x.estimator.experiment e₀)
    (hcount : Experiment.count x.estimator.experiment ≠ 0) (ht : x.estimator.target.Configured)
    (hraised : recorder.raised = false) (hmanned : x.Manned config) :
    (∃ estimate s r x', x.estimator.estimateLocal recorder = (.ok (estimate, s), r) ∧
      x.run recorder = .ok (.ok estimate, x') ∧
      x'.estimator = { x.estimator with totals := s.totals } ∧
      x'.world.recorder.Alike r ∧ x'.Manned config) ∨
    (x.run recorder = .error (.totals .countOverflow) ∧
      ∀ estimate s r, x.estimator.estimateLocal recorder = (.ok (estimate, s), r) →
        UInt64.size ≤ estimate.samples.toNat + x.world.holdups) := by
  rcases hmanned.ends_settled x.estimator.experiment e₀ recorder with ⟨f₁, hsettled, hphase⟩
  have hagree := passUntilDone_agrees (n := 0) (s := x.estimator.begun) (k := UInt64.size)
    hsuits (Totals.holds_zero _) rfl
    (Estimator.not_converged_begun ht) hraised (Recorder.alike_refl recorder) hphase
  -- at most as many passes as can be counted
  cases hagree (UInt64.size - 1) with
  | @ends estimate s' r past f' w' process fleet alike staffed =>
    have hends : Ends x.estimator.estimateDistributed x.fleet { x.world with recorder }
        (.ok (estimate, { x.estimator.begun with totals := s'.totals })) f' w' := by
      rw [Estimator.estimateDistributed_eq hcount]
      exact (ends_bind_of_ends hsettled).2
        ((ends_bind_of_ends fleet).2 (ends_pure.2 ⟨rfl, rfl, rfl⟩))
    exact .inl ⟨estimate, s', r, _, (Estimator.estimateLocal_eq_ok_iff hcount).2 process,
      run_of_ends hends, rfl, alike, .member staffed nofun⟩
  | @overflows w' process fleet =>
    have hbreaks : Breaks x.estimator.estimateDistributed x.fleet { x.world with recorder }
        (.totals .countOverflow) w' := by
      rw [Estimator.estimateDistributed_eq hcount]
      exact (breaks_bind_of_ends hsettled).2 (breaks_bind.2 (.inl fleet))
    refine .inr ⟨run_of_breaks hbreaks, fun estimate s r hdone => ?_⟩
    have hlt := process _ _ _ ((Estimator.estimateLocal_eq_ok_iff hcount).1 hdone)
    have hsize : UInt64.size = 2 ^ 64 := rfl
    change 0 + (UInt64.size - 1) < _ + x.world.holdups at hlt
    omega

/-- A company that has just been founded is ready for a run, and nothing will hold it up. -/
theorem manned_found (s : Estimator E) (hname : config.name.utf8ByteSize ≤ maxPayload) :
    ∃ x, found s config = .ok x ∧ x.estimator = s ∧ x.Manned config ∧ x.world.holdups = 0 := by
  let x : Company E := ⟨s, .empty, .ofConfigs [config]⟩
  have hdoor : AtDoor config x.fleet x.world := ⟨rfl, _, rfl, WorkerEnd.attends_new config⟩
  rcases hdoor.ends_wait hname with ⟨f', w', ⟨ev, hwait⟩, -, hholdups, hready⟩
  refine ⟨{ x with fleet := f', world := w' }, ?_, rfl, ?_, Nat.lt_one_iff.1 hholdups⟩
  · unfold found
    dsimp only
    rw [perform_of_ends (x := x) hwait]
    rfl
  · rcases hready with hdoor' | ⟨past, hstaffed⟩
    · exact .door hdoor'
    · exact .member hstaffed nofun

end Company

/-! ## Replays -/

namespace Replay

theorem draws_of_rows (n : ℕ) (e : Replay) (seeds : List UInt64) (parameter : Real64) :
    Experiment.draws n { e with seeds, parameter } = Experiment.draws n e := by
  induction n generalizing e with
  | zero => rfl
  | succ n ih =>
    -- one sample reads the rows alone and hands the seeds and the parameter on
    have hsample : Experiment.sample { e with seeds, parameter } =
        (e.sample.1, { e.sample.2 with seeds, parameter }) := by
      rcases e with ⟨k, _ | ⟨row, rows⟩, _ | ⟨next, rest⟩, _, _⟩ <;> rfl
    rw [Experiment.draws, Experiment.draws, hsample]
    dsimp only
    rw [ih]
    rfl

/-- A replay draws the same rows from every seed. -/
theorem reproduces {e : Replay}
    (htext : ofText e.toText = .ok { e with upcoming := e.rows, seeds := [], parameter := 0 }) :
    Reproduces e { e with upcoming := e.rows, seeds := [], parameter := 0 } where
  text := htext
  count _ := rfl
  parameter _ n := keepsParameter.skip n _
  draws seed n := by
    have hrows : ∀ seeds parameter, Experiment.draws n
        { e with upcoming := e.rows, seeds, parameter } =
          Experiment.draws n { e with upcoming := e.rows } :=
      draws_of_rows n { e with upcoming := e.rows }
    exact (hrows [seed] e.parameter).trans (hrows (0 :: e.seeds) e.parameter).symm

/-- A replay of two rows. -/
def pair : Replay := ⟨2, [⟨[1, 0], rfl⟩, ⟨[0, 1], rfl⟩], [], [], 0⟩

end Replay

namespace Company

open Replay (pair)

theorem suits_pair :
    Suits ⟨"w", 0⟩ pair { pair with upcoming := pair.rows, seeds := [], parameter := 0 } where
  toReproduces := Replay.reproduces rfl
  unit := rfl
  name := by decide
  system := by decide
  dimension := by decide
  number := by decide

/-- A company for a run of the two rows, whose worker joins late and whose first reply comes in
parts. -/
def paired : Company Replay where
  estimator := ⟨pair, .standard, 1, .zero 2⟩
  fleet := .empty
  world := { Ensemble.ofConfigs [⟨"w", 0⟩] with
    spells := [⟨none, false⟩, ⟨none, true⟩, ⟨some 0, true⟩, ⟨some 3, true⟩], seeds := [7] }

/-- In one process the interrupt ends the run after three samples. -/
theorem estimateLocal_pair :
    ∃ estimate s r, paired.estimator.estimateLocal (Recorder.new (some 3) false) =
      (.ok (estimate, s), r) ∧ estimate.samples = 3 ∧ r.reports.size = 3 := by
  have hsamples : ((paired.estimator.estimateLocal (Recorder.new (some 3) false)).1.toOption.map
      fun x => x.1.samples) = some 3 := by decide +kernel
  have hreports : (paired.estimator.estimateLocal (Recorder.new (some 3) false)).2.reports.size =
      3 := by decide +kernel
  -- only these two facts of the run are computed; a run that was broken has no sample count
  rcases hrun : paired.estimator.estimateLocal (Recorder.new (some 3) false) with ⟨_ | ⟨⟩, r⟩
  · rw [hrun] at hsamples
    cases hsamples
  · rw [hrun] at hsamples hreports
    exact ⟨_, _, _, rfl, Option.some_inj.1 hsamples, hreports⟩

/-- A company whose worker is held up runs as one process does, and so does a company that has
just been founded. -/
theorem run_of_pair :
    (∃ estimate x', paired.run (.new (some 3) false) = .ok (.ok estimate, x') ∧
      estimate.samples = 3 ∧ x'.world.recorder.reports.size = 3) ∧
    ∃ x estimate x', found paired.estimator ⟨"w", 0⟩ = .ok x ∧
      x.run (.new (some 3) false) = .ok (.ok estimate, x') ∧ estimate.samples = 3 ∧
      x'.world.recorder.reports.size = 3 := by
  have hruns : ∀ f w, Manned ⟨"w", 0⟩ (⟨paired.estimator, f, w⟩ : Company Replay) → w.holdups ≤ 5 →
      ∃ estimate x', run ⟨paired.estimator, f, w⟩ (.new (some 3) false) = .ok (.ok estimate, x') ∧
        estimate.samples = 3 ∧ x'.world.recorder.reports.size = 3 := by
    intro f w hmanned hholdups
    rcases estimateLocal_pair with ⟨estimate, s, r, hlocal, hsamples, hreports⟩
    have hcount : Experiment.count pair ≠ 0 := by decide
    have hraised : (Recorder.new (some 3) false).raised = false := rfl
    rcases run_agrees suits_pair hcount .standard hraised hmanned with
      ⟨estimate', s', r', x', hlocal', hrun, -, halike, -⟩ | ⟨-, hmany⟩
    · rw [hlocal] at hlocal'
      cases hlocal'
      refine ⟨estimate, x', hrun, hsamples, ?_⟩
      rw [← hreports]
      simpa using congrArg List.length halike.reports
    · -- five holdups are not enough to lose count
      have hlt := hmany estimate s r hlocal
      rw [hsamples] at hlt
      have hsize : UInt64.size ≤ 3 + 5 := hlt.trans (Nat.add_le_add_left hholdups _)
      exact absurd hsize (by decide)
  constructor
  · exact hruns _ _ (.door ⟨rfl, _, rfl, WorkerEnd.attends_new ⟨"w", 0⟩⟩) (by decide)
  · have hname : (⟨"w", 0⟩ : WorkerConfig).name.utf8ByteSize ≤ maxPayload := by decide
    rcases manned_found paired.estimator hname with ⟨⟨s, f, w⟩, hfound, rfl, hmanned, hnone⟩
    rcases hruns f w hmanned (hnone.le.trans (by decide)) with ⟨estimate, x', hrun⟩
    exact ⟨_, estimate, x', hfound, hrun⟩

end Company

end FleetEstimate
