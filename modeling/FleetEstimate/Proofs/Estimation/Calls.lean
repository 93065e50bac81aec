import FleetEstimate.Proofs.Estimation.InPlace
import FleetEstimate.Proofs.Estimation.Sweeps
import FleetEstimate.Rehearsal.Stage

/-!
# Calls of an estimator

Through its calls an estimator gets another target, has its experiment changed in any way, and
runs. They change it in its place. Whatever is called, and with whatever numbers, the multiplier
never parts from the confidence that it belongs to, and the target stays within its bounds. A
call that is refused leaves no trace: target, multiplier, experiment, fleet and the totals of the
last run are what they were before.
-/

namespace FleetEstimate

namespace Estimator

/-! ## Refused settings -/

variable {E : Type} {s : Estimator E} {accuracy confidence : Real64}

theorem multiplierOf_of_not_level (h : ¬ Normal.IsLevel confidence) :
    multiplierOf confidence = .error (.invalidConfidence confidence) := by
  unfold multiplierOf Normal.multiplier?
  rw [if_neg h]

theorem setAccuracy_of_accuracy (h : IsAccuracy accuracy) :
    s.setAccuracy accuracy = .ok { s with target := { s.target with accuracy } } := by
  unfold setAccuracy Target.withAccuracy
  rw [if_pos h]
  rfl

theorem setAccuracy_of_not_accuracy (h : ¬ IsAccuracy accuracy) :
    s.setAccuracy accuracy = .error (.invalidAccuracy accuracy) := by
  unfold setAccuracy Target.withAccuracy
  rw [if_neg h]
  rfl

theorem setConfidence_of_level (h : Normal.IsLevel confidence) :
    ∃ s', s.setConfidence confidence = .ok s' := by
  rcases multiplierOf_of_level h with ⟨z, hz⟩
  unfold setConfidence Target.withConfidence
  rw [hz]
  exact ⟨_, rfl⟩

theorem setConfidence_of_not_level (h : ¬ Normal.IsLevel confidence) :
    s.setConfidence confidence = .error (.invalidConfidence confidence) := by
  unfold setConfidence Target.withConfidence
  rw [multiplierOf_of_not_level h]
  rfl

end Estimator

/-! ## Calls -/

/-- What can be asked of an estimator. -/
inductive Call (E : Type)
  | setAccuracy (accuracy : Real64)
  | setConfidence (confidence : Real64)
  /-- Its experiment is changed in any way. -/
  | handle (change : E → E)
  | estimateLocal
  | estimateDistributed

namespace Call

open Fleet (Ends)

variable {E ω ρ : Type} [Experiment E]

/-- Makes a call. Only a run has a result. -/
def perform [World ω ρ] : Call E → SiteM E ω ρ (Option (Estimate Real64))
  | .setAccuracy accuracy => do
    Site.setAccuracy accuracy
    return none
  | .setConfidence confidence => do
    Site.setConfidence confidence
    return none
  | .handle g => do
    Site.change fun s => { s with experiment := g s.experiment }
    return none
  | .estimateLocal => do
    let e ← Site.estimateLocal
    return some e
  | .estimateDistributed => do
    let e ← Site.estimateDistributed
    return some e

/-- Why an estimator refuses a call. -/
def refusal (s : Estimator E) : Call E → Option EstimationError
  | .setAccuracy accuracy =>
    if IsAccuracy accuracy then none else some (.invalidAccuracy accuracy)
  | .setConfidence confidence =>
    if Normal.IsLevel confidence then none else some (.invalidConfidence confidence)
  | .handle _ => none
  | .estimateLocal | .estimateDistributed =>
    if Experiment.count s.experiment = 0 then some .emptyResult else none

section

variable [World ω ρ]

/-- What a call makes of a site, by the functions on estimators, and its result. -/
def result (d : Site E ω ρ) :
    Call E → Except CallError (Option (Estimate Real64) × Site E ω ρ)
  | .setAccuracy accuracy =>
    match d.estimator.setAccuracy accuracy with
    | .ok s => .ok (none, { d with estimator := s })
    | .error e => .error (.refused e)
  | .setConfidence confidence =>
    match d.estimator.setConfidence confidence with
    | .ok s => .ok (none, { d with estimator := s })
    | .error e => .error (.refused e)
  | .handle g =>
    .ok (none, { d with estimator := { d.estimator with experiment := g d.estimator.experiment } })
  | .estimateLocal =>
    match d.estimator.estimateLocal d.world with
    | (.ok (e, s), w) => .ok (some e, { d with estimator := s, world := w })
    | (.error (.refused e), _) => .error (.refused e)
    | (.error (.broken f), _) => .error (.broken (.totals f))
  | .estimateDistributed =>
    match (d.estimator.estimateDistributed.run d.fleet).run d.world with
    | (.ok (.ok (e, s), f), w) => .ok (some e, ⟨s, f, w⟩)
    | (.ok (.error e, _), _) => .error (.refused e)
    | (.error f, _) => .error (.broken f)

/-- How a call ends at a site, where it should end with `x`. A call that is refused leaves the
site alone; what one that breaks off leaves behind is not told. -/
inductive Lands (d : Site E ω ρ) (x : Except CallError (Option (Estimate Real64) × Site E ω ρ)) :
    Except CallError (Option (Estimate Real64)) × Site E ω ρ → Prop
  | returned {r d'} (h : x = .ok (r, d')) : Lands d x (.ok r, d')
  | refused {e} (h : x = .error (.refused e)) : Lands d x (.error (.refused e), d)
  | broken {f} (h : x = .error (.broken f)) (d' : Site E ω ρ) : Lands d x (.error (.broken f), d')

variable {d d' : Site E ω ρ} {call : Call E} {err : EstimationError}
variable {r : Option (Estimate Real64)}

/-- Made in its place, a call ends as the functions on estimators say. -/
theorem lands_perform (d : Site E ω ρ) (call : Call E) :
    Lands d (call.result d) (call.perform.run.run d) := by
  -- call by call: it is refused before anything is touched, or breaks off on its way, or returns
  cases call with
  | setAccuracy accuracy =>
    rw [perform, Site.run_bind, Site.run_setAccuracy, result]
    cases d.estimator.setAccuracy accuracy with
    | error e => exact .refused rfl
    | ok s => exact .returned rfl
  | setConfidence confidence =>
    rw [perform, Site.run_bind, Site.run_setConfidence, result]
    cases d.estimator.setConfidence confidence with
    | error e => exact .refused rfl
    | ok s => exact .returned rfl
  | handle g => exact .returned rfl
  | estimateLocal =>
    rcases Site.run_estimateLocal d with ⟨s', hrun⟩
    rw [perform, Site.run_bind, hrun, result]
    -- a run that breaks off has drawn samples in its place, which the functions do not tell
    rcases d.estimator.estimateLocal d.world with ⟨(e | f) | ⟨e, s⟩, w⟩
    · exact .refused rfl
    · exact .broken rfl _
    · exact .returned rfl
  | estimateDistributed =>
    rcases Site.run_estimateDistributed d with ⟨d₁, hrun⟩
    rw [perform, Site.run_bind, hrun, result]
    rcases (d.estimator.estimateDistributed.run d.fleet).run d.world with
      ⟨f | ⟨e | ⟨e, s⟩, f⟩, w⟩
    · exact .broken rfl _
    · exact .refused rfl
    · exact .returned rfl

theorem perform_returns_iff :
    call.perform.run.run d = (.ok r, d') ↔ call.result d = .ok (r, d') := by
  have hlands := lands_perform d call
  -- where the call lands is all that matters here
  generalize call.perform.run.run d = y at hlands
  cases hlands with
  | returned h =>
    rw [h]
    constructor
    · intro heq
      cases heq
      rfl
    · intro heq
      cases heq
      rfl
  | refused h =>
    rw [h]
    exact iff_of_false nofun nofun
  | broken h =>
    rw [h]
    exact iff_of_false nofun nofun

theorem perform_refused_iff :
    call.perform.run.run d = (.error (.refused err), d') ↔
      call.result d = .error (.refused err) ∧ d' = d := by
  have hlands := lands_perform d call
  generalize call.perform.run.run d = y at hlands
  cases hlands with
  | returned h =>
    rw [h]
    exact iff_of_false nofun fun heq => nomatch heq.1
  | refused h =>
    rw [h]
    -- a refused call lands where it started
    constructor
    · intro heq
      cases heq
      exact ⟨rfl, rfl⟩
    · intro heq
      rcases heq with ⟨heq, rfl⟩
      cases heq
      rfl
  | broken h =>
    rw [h]
    exact iff_of_false nofun fun heq => nomatch heq.1

/-! ## Refusals -/

omit [Experiment E] [World ω ρ] in
theorem refused_eq_iff {e : EstimationError} :
    (.error (.refused e) : Except CallError (Option (Estimate Real64) × Site E ω ρ)) =
      .error (.refused err) ↔ some e = some err := by
  constructor
  · intro h
    cases h
    rfl
  · intro h
    cases h
    rfl

theorem result_setAccuracy_refused_iff {accuracy : Real64} :
    result d (.setAccuracy accuracy) = .error (.refused err) ↔
      refusal d.estimator (.setAccuracy accuracy) = some err := by
  by_cases haccuracy : IsAccuracy accuracy
  · rw [result, refusal, if_pos haccuracy, Estimator.setAccuracy_of_accuracy haccuracy]
    exact iff_of_false nofun nofun
  · rw [result, refusal, if_neg haccuracy, Estimator.setAccuracy_of_not_accuracy haccuracy]
    exact refused_eq_iff

theorem result_setConfidence_refused_iff {confidence : Real64} :
    result d (.setConfidence confidence) = .error (.refused err) ↔
      refusal d.estimator (.setConfidence confidence) = some err := by
  by_cases hlevel : Normal.IsLevel confidence
  · rcases Estimator.setConfidence_of_level (s := d.estimator) hlevel with ⟨s, hset⟩
    rw [result, refusal, if_pos hlevel, hset]
    exact iff_of_false nofun nofun
  · rw [result, refusal, if_neg hlevel, Estimator.setConfidence_of_not_level hlevel]
    exact refused_eq_iff

theorem result_estimateLocal_refused_iff :
    result d .estimateLocal = .error (.refused err) ↔
      refusal d.estimator .estimateLocal = some err := by
  rw [result]
  by_cases hcount : Experiment.count d.estimator.experiment = 0
  · simp only [refusal, if_pos hcount, Estimator.estimateLocal_of_empty hcount]
    exact refused_eq_iff
  · rw [refusal, if_neg hcount]
    -- once it has started, a run ends or breaks off; it is not refused
    refine iff_of_false (fun h => ?_) nofun
    rcases Estimator.estimateLocal_cases hcount d.world with ⟨n, -, -, hrun⟩ | ⟨-, hrun⟩
    · simp only [hrun] at h
      cases h
    · simp only [hrun] at h
      cases h

theorem result_estimateDistributed_refused_iff :
    result d .estimateDistributed = .error (.refused err) ↔
      refusal d.estimator .estimateDistributed = some err := by
  rw [result]
  by_cases hcount : Experiment.count d.estimator.experiment = 0
  · have hempty : (d.estimator.estimateDistributed.run d.fleet).run d.world =
        (.ok (.error .emptyResult, d.fleet), d.world) := by
      unfold Estimator.estimateDistributed
      rw [Estimator.start_eq_error hcount]
      rfl
    simp only [refusal, if_pos hcount, hempty]
    exact refused_eq_iff
  · rw [refusal, if_neg hcount]
    refine iff_of_false (fun h => ?_) nofun
    -- once it has begun, a run gives an estimate or breaks off
    rcases hrun : (d.estimator.estimateDistributed.run d.fleet).run d.world with
      ⟨fault | ⟨e | ⟨e, s⟩, f⟩, w⟩
    · simp only [hrun] at h
      cases h
    · have hends : Ends d.estimator.estimateDistributed d.fleet d.world (.error e) f w := hrun
      rw [Estimator.estimateDistributed_eq hcount] at hends
      rcases Fleet.ends_bind.1 hends with ⟨_, _, _, -, hends⟩
      rcases Fleet.ends_bind.1 hends with ⟨_, _, _, -, hends⟩
      cases (Fleet.ends_pure.1 hends).1
    · simp only [hrun] at h
      cases h

theorem result_refused_iff :
    call.result d = .error (.refused err) ↔ call.refusal d.estimator = some err := by
  cases call with
  | setAccuracy accuracy => exact result_setAccuracy_refused_iff
  | setConfidence confidence => exact result_setConfidence_refused_iff
  | handle g => exact iff_of_false nofun nofun
  | estimateLocal => exact result_estimateLocal_refused_iff
  | estimateDistributed => exact result_estimateDistributed_refused_iff

end

end Call

/-! ## Sequences of calls -/

namespace Estimator

variable {E : Type} [Experiment E] {s s' : Estimator E}

/-- The estimators that there are: new ones, and what calls leave of them, in whatever fleet and
world they are made, whether they return or are refused. A call that breaks off leaves none behind,
since it never comes back. -/
inductive Reached : Estimator E → Prop
  | new {e : E} {target : Target} {s : Estimator E} (ht : target.Configured)
      (h : Estimator.new e target = .ok s) : Reached s
  | returned {ω ρ : Type} [World ω ρ] {call : Call E} {d d' : Site E ω ρ}
      {r : Option (Estimate Real64)} (h : Reached d.estimator)
      (h' : call.perform.run.run d = (.ok r, d')) : Reached d'.estimator
  | refused {ω ρ : Type} [World ω ρ] {call : Call E} {d d' : Site E ω ρ} {e : EstimationError}
      (h : Reached d.estimator) (h' : call.perform.run.run d = (.error (.refused e), d')) :
      Reached d'.estimator

/-- The multiplier belongs to the confidence, and the target is one that can be asked for. -/
structure Consistent (s : Estimator E) : Prop where
  multiplier : multiplierOf s.target.confidence = .ok s.multiplier
  accuracy : IsAccuracy s.target.accuracy
  minSamples : s.target.minSamples = leastSamples

theorem level_of_multiplierOf {confidence z : Real64} (h : multiplierOf confidence = .ok z) :
    Normal.IsLevel confidence := by
  by_contra hlevel
  rw [multiplierOf_of_not_level hlevel] at h
  cases h

theorem consistent_new {e : E} {target : Target} (ht : target.Configured)
    (h : Estimator.new e target = .ok s) : s.Consistent := by
  rcases new_eq_ok h with ⟨hz, -, rfl⟩
  exact ⟨hz, ht.bounds.2, ht.bounds.1⟩

theorem Consistent.ran {e : Estimate Real64} (h : s.Consistent) (hgives : Gives s e s') :
    s'.Consistent := by
  rcases hgives.inRun with ⟨hrun, -⟩
  constructor
  · rw [hrun.target, hrun.multiplier]
    exact h.multiplier
  · rw [hrun.target]
    exact h.accuracy
  · rw [hrun.target]
    exact h.minSamples

/-- A call that returns keeps an estimator consistent. -/
theorem Consistent.result {ω ρ : Type} [World ω ρ] {call : Call E} {d d' : Site E ω ρ}
    {r : Option (Estimate Real64)} (h : d.estimator.Consistent)
    (hresult : call.result d = .ok (r, d')) : d'.estimator.Consistent := by
  unfold Call.result at hresult
  cases call with
  | setAccuracy accuracy =>
    dsimp only at hresult
    split at hresult
    · rename_i hset
      cases hresult
      -- a target is replaced only by one that passes its check
      rcases setAccuracy_eq_ok hset with ⟨haccuracy, hs⟩
      rw [hs]
      exact ⟨h.multiplier, haccuracy, h.minSamples⟩
    · cases hresult
  | setConfidence confidence =>
    dsimp only at hresult
    split at hresult
    · rename_i hset
      cases hresult
      -- the multiplier is computed anew with the confidence it is for
      rcases setConfidence_eq_ok hset with ⟨hz, hs⟩
      rw [hs]
      exact ⟨hz, h.accuracy, h.minSamples⟩
    · cases hresult
  | handle g =>
    cases hresult
    exact ⟨h.multiplier, h.accuracy, h.minSamples⟩
  | estimateLocal =>
    dsimp only at hresult
    split at hresult
    · rename_i hrun
      cases hresult
      -- a run replaces the experiment and the totals alone
      exact h.ran (.alone hrun)
    · cases hresult
    · cases hresult
  | estimateDistributed =>
    dsimp only at hresult
    split at hresult
    · rename_i hrun
      cases hresult
      exact h.ran (.fleet hrun)
    · cases hresult
    · cases hresult

theorem Reached.consistent (h : Reached s) : s.Consistent := by
  induction h with
  | new ht h => exact consistent_new ht h
  | returned _ h' ih => exact ih.result (Call.perform_returns_iff.1 h')
  | refused _ h' ih =>
    rw [(Call.perform_refused_iff.1 h').2]
    exact ih

/-- Whatever calls were made of an estimator, its multiplier is that of its confidence, and its
target is within the bounds. A call is refused exactly for an accuracy or a confidence that is out
of bounds, or if a run is asked for and the experiment has no dimension, and then it leaves the
estimator with its experiment and its totals, the fleet and the world as they were. A call that
returns does to them what the functions on estimators say. -/
theorem refused_calls_leave_no_trace (h : Reached s) :
    (multiplierOf s.target.confidence = .ok s.multiplier ∧
      (0 < s.target.accuracy ∧ s.target.accuracy < 1) ∧
      (Real64.ofFloat 0.5 < s.target.confidence ∧ s.target.confidence < 1) ∧
      s.target.minSamples = 128) ∧
    ∀ (ω ρ : Type) [World ω ρ] (call : Call E) (f : Fleet ρ) (w : ω) (d : Site E ω ρ),
      (∀ e, call.perform.run.run ⟨s, f, w⟩ = (.error (.refused e), d) ↔
        call.refusal s = some e ∧ d = ⟨s, f, w⟩) ∧
      ∀ r, call.perform.run.run ⟨s, f, w⟩ = (.ok r, d) ↔ call.result ⟨s, f, w⟩ = .ok (r, d) := by
  have hs := h.consistent
  refine ⟨⟨hs.multiplier, hs.accuracy, level_of_multiplierOf hs.multiplier, hs.minSamples⟩, ?_⟩
  intro ω ρ _ call f w d
  -- what is made in its place lands where the functions say
  constructor
  · intro e
    rw [Call.perform_refused_iff, Call.result_refused_iff]
  · intro r
    exact Call.perform_returns_iff

/-- A replay without any entries. -/
def emptied : Replay := ⟨0, [], [], [], 0⟩

/-- An estimator whose experiment was replaced by one without a dimension refuses to run, and a
confidence that is a NaN, and nothing comes of it. -/
theorem refusals_of_emptied :
    ∃ s : Estimator Replay, Reached s ∧ s.experiment = emptied ∧
      Call.estimateLocal.perform.run.run (⟨s, .empty, .empty⟩ : Site Replay Stage Player) =
        (.error (.refused .emptyResult), ⟨s, .empty, .empty⟩) ∧
      Call.estimateDistributed.perform.run.run (⟨s, .empty, .empty⟩ : Site Replay Stage Player) =
        (.error (.refused .emptyResult), ⟨s, .empty, .empty⟩) ∧
      (Call.setConfidence undefined).perform.run.run
          (⟨s, .empty, .empty⟩ : Site Replay Stage Player) =
        (.error (.refused (.invalidConfidence undefined)), ⟨s, .empty, .empty⟩) := by
  rcases multiplierOf_standard with ⟨z, hz⟩
  have hnew : Estimator.new ones .standard = .ok ⟨ones, .standard, z, .zero 1⟩ :=
    new_of_multiplier Nat.one_ne_zero hz
  let site : Site Replay Stage Player := ⟨⟨ones, .standard, z, .zero 1⟩, .empty, .empty⟩
  -- the handle is what lets a caller put another experiment in place
  have hemptied : (Call.handle fun _ => emptied).perform.run.run site =
      (.ok none, ⟨⟨emptied, .standard, z, .zero 1⟩, .empty, .empty⟩) := rfl
  have hreached : Reached (⟨emptied, .standard, z, .zero 1⟩ : Estimator Replay) :=
    .returned (.new .standard hnew) hemptied
  -- the estimator was reached by calls, so its refusals are told
  rcases refused_calls_leave_no_trace hreached with ⟨-, hcalls⟩
  refine ⟨_, hreached, rfl, ?_, ?_, ?_⟩
  · exact ((hcalls Stage Player .estimateLocal .empty .empty _).1 _).2 ⟨rfl, rfl⟩
  · exact ((hcalls Stage Player .estimateDistributed .empty .empty _).1 _).2 ⟨rfl, rfl⟩
  · refine ((hcalls Stage Player (.setConfidence undefined) .empty .empty _).1 _).2 ⟨?_, rfl⟩
    have hnot : ¬ Normal.IsLevel undefined := by decide
    rw [Call.refusal, if_neg hnot]

end Estimator

end FleetEstimate
