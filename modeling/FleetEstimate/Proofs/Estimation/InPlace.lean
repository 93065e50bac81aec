import FleetEstimate.Proofs.Estimation.Convergence
import FleetEstimate.Proofs.Fleet.Returns

/-!
# Estimators that change in place

The functions on estimators give a new estimator, and where they give none there is nothing to
take back. An estimator that is changed in its place, field by field, is another matter: what was
changed before a call gives up stays changed. Yet both come to the same. A call that returns has
made of its estimator what the function gives, and one that is refused has changed nothing, since
every check comes before the first change or, where it comes later, cannot fail any more.
-/

namespace FleetEstimate

/-- An estimator with all that its calls can reach. -/
structure Site (E ω ρ : Type) where
  estimator : Estimator E
  fleet : Fleet ρ
  world : ω

/-- Why a call gives up. -/
inductive CallError
  /-- It is refused. -/
  | refused (e : EstimationError)
  /-- It cannot go on. -/
  | broken (f : FleetFault)

/-- What a call does to a site. All changes stay when it gives up. -/
abbrev SiteM (E ω ρ : Type) := ExceptT CallError (StateM (Site E ω ρ))

namespace Site

variable {E ω ρ α β : Type}

/-! ## Steps of a call -/

/-- Gives up if a check does. -/
def check : Except EstimationError α → SiteM E ω ρ α
  | .ok a => pure a
  | .error e => throw (.refused e)

def getEstimator : SiteM E ω ρ (Estimator E) := do
  return (← getThe (Site E ω ρ)).estimator

def getWorld : SiteM E ω ρ ω := do
  return (← getThe (Site E ω ρ)).world

def change (g : Estimator E → Estimator E) : SiteM E ω ρ Unit :=
  modifyThe (Site E ω ρ) fun d => { d with estimator := g d.estimator }

def changeWorld (g : ω → ω) : SiteM E ω ρ Unit :=
  modifyThe (Site E ω ρ) fun d => { d with world := g d.world }

/-- Does something with the fleet. If that breaks off, the fleet is lost. -/
def withFleet (act : FleetM ω ρ α) : SiteM E ω ρ α := fun d =>
  match (act.run d.fleet).run d.world with
  | (.ok (a, f), w) => (.ok a, { d with fleet := f, world := w })
  | (.error e, w) => (.error (.broken e), { d with world := w })

/-! ## Calls -/

def setAccuracy (accuracy : Real64) : SiteM E ω ρ Unit := do
  let target ← check ((← getEstimator).target.withAccuracy accuracy)
  change fun s => { s with target }

/-- Sets the confidence first, and then its multiplier, which is worked out anew. -/
def setConfidence (confidence : Real64) : SiteM E ω ρ Unit := do
  let target ← check ((← getEstimator).target.withConfidence confidence)
  change fun s => { s with target }
  let multiplier ← check (multiplierOf confidence)
  change fun s => { s with multiplier }

section Runs

variable [Experiment E]

/-- Forgets the totals of the last run. -/
def startRun : SiteM E ω ρ Unit := do
  let count ← check (Estimator.dimension (← getEstimator).experiment)
  change fun s => { s with totals := .zero count }

/-- Draws a sample, and then adds it to the totals. -/
def draw : SiteM E ω ρ Unit := do
  let s ← getEstimator
  let (x, experiment) := Experiment.sample s.experiment
  change fun s => { s with experiment }
  match s.totals.accumulate x with
  | .ok totals => change fun s => { s with totals }
  | .error f => throw (.broken (.totals f))

variable [World ω ρ]

def drawUntilDone : (counts : ℕ) → SiteM E ω ρ (Estimate Real64)
  | 0 => throw (.broken (.totals .countOverflow))
  | counts + 1 => do
    draw
    let e := (← getEstimator).evaluate
    changeWorld (Watch.report (.ofEstimate e none none))
    if e.converged || Watch.interrupted (← getWorld) then return e
    else drawUntilDone counts

def estimateLocal : SiteM E ω ρ (Estimate Real64) := do
  startRun
  change fun s => { s with experiment := Experiment.seed 0 s.experiment }
  drawUntilDone UInt64.size

def passUntilDone (a : Assignment) : (counts : ℕ) → SiteM E ω ρ (Estimate Real64)
  | 0 => throw (.broken (.totals .countOverflow))
  | counts + 1 => do
    let passed ← withFleet ((← getEstimator).pass a)
    change fun s => { s with totals := passed.totals }
    let e := (← getEstimator).evaluate
    if e.converged || Watch.interrupted (← getWorld) then return e
    else passUntilDone a counts

def estimateDistributed : SiteM E ω ρ (Estimate Real64) := do
  startRun
  let s ← getEstimator
  withFleet Fleet.settle
  withFleet Fleet.resetAll
  withFleet Fleet.resetBusyTime
  passUntilDone (.of s.experiment) (UInt64.size - 1)

end Runs

/-! ## What the steps do -/

theorem run_bind (act : SiteM E ω ρ α) (next : α → SiteM E ω ρ β) (d : Site E ω ρ) :
    (act >>= next).run.run d = match act.run.run d with
      | (.ok a, d') => (next a).run.run d'
      | (.error e, d') => (.error e, d') := by
  simp only [ExceptT.run, StateT.run, bind, ExceptT.bind, ExceptT.mk, StateT.bind]
  rcases act d with ⟨_ | _, _⟩ <;> rfl

theorem run_getEstimator_bind (next : Estimator E → SiteM E ω ρ β) (d : Site E ω ρ) :
    (getEstimator >>= next).run.run d = (next d.estimator).run.run d := rfl

theorem run_getWorld_bind (next : ω → SiteM E ω ρ β) (d : Site E ω ρ) :
    (getWorld >>= next).run.run d = (next d.world).run.run d := rfl

theorem run_change_bind (g : Estimator E → Estimator E) (next : Unit → SiteM E ω ρ β)
    (d : Site E ω ρ) : (change g >>= next).run.run d =
      (next ()).run.run { d with estimator := g d.estimator } := rfl

theorem run_changeWorld_bind (g : ω → ω) (next : Unit → SiteM E ω ρ β) (d : Site E ω ρ) :
    (changeWorld g >>= next).run.run d = (next ()).run.run { d with world := g d.world } := rfl

theorem run_withFleet_bind (act : FleetM ω ρ α) (next : α → SiteM E ω ρ β) (d : Site E ω ρ) :
    (withFleet act >>= next).run.run d = match (act.run d.fleet).run d.world with
      | (.ok (a, f), w) => (next a).run.run { d with fleet := f, world := w }
      | (.error e, w) => (.error (.broken e), { d with world := w }) := by
  -- an action on a fleet that breaks off keeps the fleet from before it, and the world it left
  have hrun : (withFleet act : SiteM E ω ρ α).run.run d =
      match (act.run d.fleet).run d.world with
      | (.ok (a, f), w) => (.ok a, { d with fleet := f, world := w })
      | (.error e, w) => (.error (.broken e), { d with world := w }) := rfl
  rw [run_bind, hrun]
  rcases (act.run d.fleet).run d.world with ⟨e | ⟨a, f⟩, w⟩
  · rfl
  · rfl

/-! ## What the calls do -/

/-- A site at which the estimator was replaced by another, unless there is none. -/
def replaced (d : Site E ω ρ) :
    Except EstimationError (Estimator E) → Except CallError Unit × Site E ω ρ
  | .ok s => (.ok (), { d with estimator := s })
  | .error e => (.error (.refused e), d)

theorem run_setAccuracy (accuracy : Real64) (d : Site E ω ρ) :
    (setAccuracy accuracy).run.run d = d.replaced (d.estimator.setAccuracy accuracy) := by
  rw [setAccuracy, run_getEstimator_bind]
  unfold Estimator.setAccuracy
  cases d.estimator.target.withAccuracy accuracy with
  | error e => rfl
  | ok target => rfl

/-- The second check of a confidence cannot fail once the first has not. -/
theorem run_setConfidence (confidence : Real64) (d : Site E ω ρ) :
    (setConfidence confidence).run.run d =
      d.replaced (d.estimator.setConfidence confidence) := by
  rw [setConfidence, run_getEstimator_bind]
  unfold Estimator.setConfidence Target.withConfidence
  cases multiplierOf confidence with
  | error e => rfl
  | ok z => rfl

section Runs

variable [Experiment E]

/-- The dimension is checked before the totals are forgotten. -/
theorem run_startRun (d : Site E ω ρ) :
    (startRun).run.run d = d.replaced d.estimator.start := by
  rw [startRun, run_getEstimator_bind]
  unfold Estimator.start
  cases Estimator.dimension d.estimator.experiment with
  | error e => rfl
  | ok count => rfl

theorem run_draw (d : Site E ω ρ) :
    ∃ s', (draw).run.run d = match d.estimator.draw with
      | .ok s => (.ok (), { d with estimator := s })
      | .error f => (.error (.broken (.totals f)), { d with estimator := s' }) := by
  rw [draw, run_getEstimator_bind]
  unfold Estimator.draw
  -- the sample is drawn before it is counted, so a draw that breaks off leaves the experiment moved
  -- on
  refine ⟨{ d.estimator with experiment := (Experiment.sample d.estimator.experiment).2 }, ?_⟩
  rcases Experiment.sample d.estimator.experiment with ⟨x, experiment⟩
  dsimp only
  rw [run_change_bind]
  cases d.estimator.totals.accumulate x with
  | error f => rfl
  | ok totals => rfl

variable [World ω ρ]

/-- Sample by sample, a run in one process does to its estimator what becomes of it. -/
theorem run_drawUntilDone (counts : ℕ) (d : Site E ω ρ) :
    ∃ s', (drawUntilDone counts).run.run d =
      match (Estimator.drawUntilDone counts d.estimator).run d.world with
      | (.ok (e, s), w) => (.ok e, { d with estimator := s, world := w })
      | (.error f, w) => (.error (.broken (.totals f)), { d with estimator := s', world := w }) := by
  -- by induction on the turns; only the draw that breaks off leaves what the functions do not tell
  induction counts generalizing d with
  | zero => exact ⟨d.estimator, rfl⟩
  | succ counts ih =>
    rw [drawUntilDone, run_bind, Estimator.drawUntilDone_succ]
    rcases run_draw d with ⟨s', hdraw⟩
    rw [hdraw]
    cases d.estimator.draw with
    | error f => exact ⟨s', rfl⟩
    | ok s =>
      dsimp only
      rw [run_getEstimator_bind, run_changeWorld_bind, run_getWorld_bind]
      dsimp only
      split
      · exact ⟨s, rfl⟩
      · exact ih _

theorem run_estimateLocal (d : Site E ω ρ) :
    ∃ s', (estimateLocal).run.run d = match d.estimator.estimateLocal d.world with
      | (.ok (e, s), w) => (.ok e, { d with estimator := s, world := w })
      | (.error (.refused e), _) => (.error (.refused e), d)
      | (.error (.broken f), w) =>
        (.error (.broken (.totals f)), { d with estimator := s', world := w }) := by
  rw [estimateLocal, run_bind, run_startRun]
  unfold Estimator.estimateLocal
  cases d.estimator.start with
  | error e => exact ⟨d.estimator, rfl⟩
  | ok s =>
    simp only [replaced]
    rw [run_change_bind]
    dsimp only
    -- the seed is set in place before the first draw, as the function sets it in its copy
    rcases run_drawUntilDone UInt64.size { d with estimator :=
      { s with experiment := Experiment.seed 0 s.experiment } } with ⟨s', hrun⟩
    refine ⟨s', ?_⟩
    rw [hrun]
    dsimp only
    rcases (Estimator.drawUntilDone UInt64.size
      { s with experiment := Experiment.seed 0 s.experiment }).run d.world with ⟨f | ⟨e, s₁⟩, w⟩
    · rfl
    · rfl

omit [Experiment E] in
/-- Pass by pass, a run over a fleet does to its estimator what becomes of it. -/
theorem run_passUntilDone (a : Assignment) (counts : ℕ) (d : Site E ω ρ) :
    ∃ d₁, (passUntilDone a counts).run.run d =
      match ((Estimator.passUntilDone a counts d.estimator).run d.fleet).run d.world with
      | (.ok ((e, s), f), w) => (.ok e, ⟨s, f, w⟩)
      | (.error f, _) => (.error (.broken f), d₁) := by
  induction counts generalizing d with
  | zero => exact ⟨d, rfl⟩
  | succ counts ih =>
    rw [passUntilDone, run_getEstimator_bind, run_withFleet_bind, Estimator.passUntilDone,
      Fleet.run_bind]
    rcases hpass : ((d.estimator.pass a).run d.fleet).run d.world with ⟨fault | ⟨s, f⟩, w⟩
    · exact ⟨_, rfl⟩
    · -- a pass changes nothing but the totals
      rcases Estimator.passing_of_ends hpass with ⟨_, hpassing⟩
      have hs : { d.estimator with totals := s.totals } = s := hpassing.sums.1.symm
      dsimp only
      rw [run_change_bind, run_getEstimator_bind, run_getWorld_bind, Fleet.run_getWorld_bind, hs]
      dsimp only
      split
      · exact ⟨d, rfl⟩
      · exact ih _

/-- The dimension is checked before anything is asked of the fleet. -/
theorem run_estimateDistributed (d : Site E ω ρ) :
    ∃ d₁, (estimateDistributed).run.run d =
      match (d.estimator.estimateDistributed.run d.fleet).run d.world with
      | (.ok (.ok (e, s), f), w) => (.ok e, ⟨s, f, w⟩)
      | (.ok (.error e, _), _) => (.error (.refused e), d)
      | (.error f, _) => (.error (.broken f), d₁) := by
  rw [estimateDistributed, run_bind, run_startRun]
  unfold Estimator.estimateDistributed
  cases d.estimator.start with
  | error e => exact ⟨d, rfl⟩
  | ok s =>
    simp only [replaced]
    rw [run_getEstimator_bind, run_withFleet_bind, Fleet.run_bind]
    dsimp only
    -- settling, resetting and clearing the busy times are done one by one; each may break off
    rcases (Fleet.settle.run d.fleet).run d.world with ⟨fault | ⟨_, f₁⟩, w₁⟩
    · exact ⟨_, rfl⟩
    dsimp only
    rw [run_withFleet_bind, Fleet.run_bind]
    dsimp only
    rcases (Fleet.resetAll.run f₁).run w₁ with ⟨fault | ⟨_, f₂⟩, w₂⟩
    · exact ⟨_, rfl⟩
    dsimp only
    rw [run_withFleet_bind, Fleet.run_bind]
    dsimp only
    rcases (Fleet.resetBusyTime.run f₂).run w₂ with ⟨fault | ⟨_, f₃⟩, w₃⟩
    · exact ⟨_, rfl⟩
    dsimp only
    rw [Fleet.run_bind]
    -- from here on both run the same passes, over the same fleet and world
    rcases run_passUntilDone (.of s.experiment) (UInt64.size - 1)
      (⟨s, f₃, w₃⟩ : Site E ω ρ) with ⟨d₁, hrun⟩
    refine ⟨d₁, ?_⟩
    rw [hrun]
    dsimp only
    rcases ((Estimator.passUntilDone (.of s.experiment) (UInt64.size - 1) s).run f₃).run w₃ with
      ⟨fault | ⟨⟨e, s₁⟩, f₄⟩, w₄⟩
    · rfl
    · rfl

end Runs

end Site

end FleetEstimate
