import FleetEstimate.Experiment.Replay
import FleetEstimate.Proofs.Fleet.Executions
import FleetEstimate.Proofs.Fleet.Standing
import FleetEstimate.Proofs.Worker.Traced

/-!
# No stale result

A coordinator whose workers follow the protocol adds each result once, and only to the
totals of the run that has asked for it. This holds over any sequence of runs, settlements,
new connections and shutdowns that begins with nobody: between two calls every result is
read, so every call goes from one sound moment to the next.
-/

namespace FleetEstimate

namespace Moment

open Fleet

variable {ω ρ : Type} [World ω ρ] [Traffic ρ] {f f' : Fleet ρ} {w w' : ω}

/-- A fleet that began with nobody and its world, after any calls that ended. -/
inductive AfterCalls : Fleet ρ → ω → Prop
  | none (w : ω) : AfterCalls .empty w
  /-- Time goes by in the outside world. -/
  | passed {f : Fleet ρ} {w : ω} (sofar : AfterCalls f w) (w' : ω) : AfterCalls f w'
  /-- A far end acts on its own. -/
  | acted {f : Fleet ρ} {w : ω} {id m} (sofar : AfterCalls f w) (member : f.get? id = some m) :
      AfterCalls (f.withRemote id (World.acting id m.link.remote w).1)
        (World.acting id m.link.remote w).2
  | inserted {f f' : Fleet ρ} {w w' : ω} {x name id} (sofar : AfterCalls f w) (quiet : Quiet x)
      (insert : Ends (insert x name) f w id f' w') : AfterCalls f' w'
  | settled {f f' : Fleet ρ} {w w' : ω} (sofar : AfterCalls f w)
      (settle : Ends settle f w () f' w') : AfterCalls f' w'
  | dismissed {f f' : Fleet ρ} {w w' : ω} (sofar : AfterCalls f w)
      (shutdown : Ends shutdown f w () f' w') : AfterCalls f' w'
  | ran {E : Type} [Experiment E] {s : Estimator E} {f f' : Fleet ρ} {w w' : ω} {r}
      (sofar : AfterCalls f w) (run : Ends s.estimateDistributed f w r f' w') : AfterCalls f' w'

/-- Every call that is made at a moment goes by tasks. -/
structure ByTasks (m : Moment ω ρ) : Prop where
  inserted : ∀ {x name id f' w'}, Quiet x → Ends (insert x name) m.fleet m.world id f' w' →
    Tasks m ⟨f', w', none, m.added⟩
  dismissed : ∀ {f' w'}, Ends shutdown m.fleet m.world () f' w' → Tasks m ⟨f', w', none, m.added⟩
  settled : ∀ {f' w'}, Ends settle m.fleet m.world () f' w' → Tasks m ⟨f', w', none, m.added⟩
  unsettled : ∀ {e w'}, Breaks settle m.fleet m.world e w' → ∃ m', Tasks m m' ∧ Fails m' e w'
  /-- The totals that a run leaves are those of the results that were added in it. -/
  ran : ∀ {E : Type} [Experiment E] {s s' : Estimator E} {x f' w'},
    Ends s.estimateDistributed m.fleet m.world (.ok (x, s')) f' w' →
      ∃ r added, Ran s s' m.added.length r ∧ Tasks m ⟨f', w', some r, added⟩ ∧
        Task ⟨f', w', some r, added⟩ ⟨f', w', none, added⟩
  /-- A run that is refused leaves everything as it is. -/
  refused : ∀ {E : Type} [Experiment E] {s : Estimator E} {e f' w'},
    Ends s.estimateDistributed m.fleet m.world (.error e) f' w' → f' = m.fleet ∧ w' = m.world
  broken : ∀ {E : Type} [Experiment E] {s : Estimator E} {e w'},
    Breaks s.estimateDistributed m.fleet m.world e w' → ∃ m', Tasks m m' ∧ Fails m' e w'

theorem byTasks_of_read {added : List (Added ρ)} (h : f.find? .pending = none) :
    ByTasks (⟨f, w, none, added⟩ : Moment ω ρ) where
  inserted hquiet hinsert := .single (.inserted hquiet hinsert)
  dismissed hshutdown := .single (.dismissed hshutdown)
  settled hsettle := (tasks_settle _ h hsettle).1
  unsettled hbreaks := fails_settle hbreaks
  ran hrun := by
    rcases tasks_estimateDistributed h hrun with ⟨r, added', htasks, hran, hread⟩
    exact ⟨r, added', hran, htasks, .ended hread⟩
  refused hrefused := eq_of_refused hrefused
  broken hbreaks := fails_estimateDistributed h hbreaks

theorem Reachable.tasks {m m' : Moment ω ρ} (h : Reachable m) (htasks : Tasks m m') :
    Reachable m' := by
  rcases h with ⟨w, hsteps⟩
  have hall : Relation.ReflTransGen Step m m' :=
    Relation.ReflTransGen.mono (fun _ _ htask => .task htask) _ _ htasks
  exact ⟨w, hsteps.trans hall⟩

theorem Reachable.step {m m' : Moment ω ρ} (h : Reachable m) (hstep : Step m m') :
    Reachable m' := by
  rcases h with ⟨w, hsteps⟩
  exact ⟨w, hsteps.tail hstep⟩

/-- Between two calls every result is read. -/
theorem reachable_of_afterCalls (h : AfterCalls f w) :
    ∃ added, Reachable ⟨f, w, none, added⟩ ∧ f.find? .pending = none := by
  -- the second part says with which fleets a call goes by tasks, so that it has to be kept
  induction h with
  | none w => exact ⟨[], ⟨w, .refl⟩, rfl⟩
  | passed _ w' ih =>
    rcases ih with ⟨added, hreach, hread⟩
    exact ⟨added, hreach.step (.passed w'), hread⟩
  | @acted f w id m _ member ih =>
    rcases ih with ⟨added, hreach, hread⟩
    refine ⟨added, hreach.step (.acted member), find?_eq_none_iff.2 fun i hi => ?_⟩
    rw [stateOf?_withRemote] at hi
    exact find?_eq_none_iff.1 hread i hi
  | inserted _ quiet insert ih =>
    rcases ih with ⟨added, hreach, hread⟩
    refine ⟨added, hreach.tasks (.single (.inserted quiet insert)), ?_⟩
    rcases ends_insert.1 insert with ⟨-, rfl, -⟩
    refine find?_eq_none_iff.2 fun i hi => ?_
    rcases stateOf?_eq_some_iff.1 hi with ⟨m, hm, hpending⟩
    rw [get?_track] at hm
    split at hm
    · cases hm
      cases hpending
    · exact find?_eq_none_iff.1 hread i (stateOf?_eq_some_iff.2 ⟨m, hm, hpending⟩)
  | settled _ settle ih =>
    rcases ih with ⟨added, hreach, hread⟩
    rcases tasks_settle added hread settle with ⟨htasks, -, hread'⟩
    exact ⟨added, hreach.tasks htasks, hread'⟩
  | dismissed _ shutdown ih =>
    rcases ih with ⟨added, hreach, -⟩
    refine ⟨added, hreach.tasks (.single (.dismissed shutdown)), ?_⟩
    refine find?_eq_none_iff.2 fun i hi => ?_
    rw [Fleet.stateOf?, (ends_shutdown shutdown).2 i] at hi
    cases hi
  | @ran E _ s f f' w w' r _ run ih =>
    rcases ih with ⟨added, hreach, hread⟩
    rcases r with e | ⟨x, s'⟩
    · rcases eq_of_refused run with ⟨rfl, rfl⟩
      exact ⟨added, hreach, hread⟩
    · rcases tasks_estimateDistributed hread run with ⟨r, added', htasks, -, hread'⟩
      exact ⟨added', hreach.tasks (htasks.tail (.ended hread')), hread'⟩

/-- Every moment is sound, whatever calls are made, and whatever workers that follow the
protocol do meanwhile. -/
theorem no_stale_result [Workers ω ρ] :
    (∀ m : Moment ω ρ, Reachable m → Sound m) ∧
      ∀ (f : Fleet ρ) (w : ω), AfterCalls f w →
        ∃ added, Reachable ⟨f, w, none, added⟩ ∧ ByTasks ⟨f, w, none, added⟩ := by
  refine ⟨fun m hreach => (inv_of_reachable hreach).sound, fun f w hcalls => ?_⟩
  rcases reachable_of_afterCalls hcalls with ⟨added, hreach, hread⟩
  exact ⟨added, hreach, byTasks_of_read hread⟩

/-- An ensemble with one worker at the door, whose first result ends a run. -/
def oneAtTheDoor : Ensemble Replay :=
  { Ensemble.ofConfigs [.standard 0] with recorder := .new (some 1) false }

/-- A run with a true worker, to a moment at which a result was added. -/
theorem fresh_result_of_worker :
    ∃ m : Moment (Ensemble Replay) (Traced Replay), Reachable m ∧ Sound m ∧ m.added ≠ [] := by
  have hends : ∃ y f' w', Ends
      (⟨Estimator.ones, .standard, 1, .zero 1⟩ : Estimator Replay).estimateDistributed
      (Fleet.empty : Fleet (Traced Replay)) oneAtTheDoor y f' w' ∧
        y.toOption.map (fun p => p.2.totals.samples) = some 1 := by
    decide +kernel
  rcases hends with ⟨y, f', w', hrun, hone⟩
  rcases y with e | ⟨x, s'⟩
  · cases hone
  rcases no_stale_result (ω := Ensemble Replay) (ρ := Traced Replay) with ⟨hsound, hcalls⟩
  rcases hcalls .empty oneAtTheDoor (.none _) with ⟨added, hreach, hby⟩
  rcases hby.ran hrun with ⟨r, added', hran, htasks, -⟩
  have hthere := hreach.tasks htasks
  refine ⟨_, hthere, hsound _ hthere, fun hnone => ?_⟩
  -- without any result the run would have no samples
  have hsums := (hsound _ hthere).sums r rfl
  dsimp only at hnone hsums
  rw [hnone, List.drop_nil, List.map_nil] at hsums
  have hsamples : s'.totals.samples = 1 := Option.some.inj hone
  rw [← hran.totals, hsums.eq_start, hran.start] at hsamples
  cases hsamples

end Moment

end FleetEstimate
