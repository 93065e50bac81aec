import FleetEstimate.Experiment.Replay
import FleetEstimate.Proofs.Fleet.Fates
import FleetEstimate.Proofs.Fleet.Waiting
import FleetEstimate.Rehearsal.Stage

/-!
# What replies do to a pass

A pass reads whatever its members reply. A reply that is cut short, does not belong to
the run or does not fit it changes nothing but the state of its member. One reply can
break a pass off: it belongs to the run and fits it, and its count of samples takes the
total count out of 64 bits.
-/

namespace FleetEstimate

namespace Fleet

variable {ω ρ : Type} [World ω ρ] {f f' : Fleet ρ} {w w' : ω} {id : MemberId} {e : FleetFault}
variable {a : Assignment} {sofar y : Bool × Totals Real64}

/-! ## One reply -/

/-- How the reply of a member is dealt with. -/
structure Handled (a : Assignment) (id : MemberId) (sofar : Bool × Totals Real64) (f : Fleet ρ)
    (w : ω) (y : Bool × Totals Real64) (f' : Fleet ρ) : Prop where
  /-- All other members stay as they are. -/
  others : ∀ other, other ≠ id → f'.get? other = f.get? other
  /-- Either the reply is a result of the run and is added, or it changes no totals and
  its member is initialized again or leaves. -/
  outcome :
    (∃ m r l v, f.get? id = some m ∧ Meets WorkResult.recv m.link w (.ok r) l v ∧
      r.Matches a.digest a.parameter ∧ sofar.2.merge r.batch = .ok (some y.2) ∧ y.1 = true ∧
      (f'.stateOf? id = some .idle ∨ f'.get? id = none)) ∨
    y = sofar ∧ (f'.stateOf? id = some .fresh ∨ f'.get? id = none)

theorem handled_of_ends (h : Ends (readResult (ω := ω) a id sofar) f w y f' w') :
    Handled a id sofar f w y f' := by
  refine ⟨(changes_readResult h).get?, ?_⟩
  rcases ends_readResult.1 h with ⟨hm, rfl, rfl, -⟩ | ⟨m, l, v, hm, ⟨r, hmeets, hreply⟩ |
    ⟨_, -, rfl, hleaves⟩⟩
  · exact .inr ⟨rfl, .inr hm⟩
  · rcases hreply with ⟨-, rfl, rfl, -⟩ | ⟨t, hacc, rfl, hconclude⟩
    · refine .inr ⟨rfl, .inl ?_⟩
      simp [stateOf?, hm]
    · rcases accept_eq_some hacc with ⟨hmatches, hmerge⟩
      have hstate := idle_or_gone_of_conclude hconclude
      exact .inl ⟨m, r, l, v, hm, hmeets, hmatches, hmerge, rfl, hstate⟩
  · exact .inr ⟨rfl, .inr hleaves.get?_eq_none⟩

theorem lessens_readResult : Lessens .pending (readResult (ω := ω) (ρ := ρ) a) :=
  decides_readResult.lessens

theorem breaks_readResult_iff (hs : f.stateOf? id = some .pending) :
    Breaks (readResult (ω := ω) a id sofar) f w e w' ∧ e ≠ .stalled ↔
      e = .totals .countOverflow ∧ ∃ m l r, f.get? id = some m ∧
        Meets WorkResult.recv m.link w (.ok r) l w' ∧ Overflows a sofar.2 r := by
  constructor
  · intro h
    rcases h with ⟨h, hne⟩
    rcases stateOf?_eq_some_iff.1 hs with ⟨m, hm, hstate⟩
    -- two of the three hindrances are stalls
    cases decides_readResult.breaks hm hstate h with
    | result _ => exact absurd rfl hne
    | busyTime _ _ _ _ => exact absurd rfl hne
    | overflow result overflows => exact ⟨rfl, m, _, _, hm, result, overflows⟩
  · intro h
    rcases h with ⟨rfl, m, l, r, hm, hmeets, hover⟩
    refine ⟨breaks_readResult.2 ⟨m, l, hm, .inr ⟨r, w', hmeets, .inl ?_⟩⟩, by simp⟩
    exact ⟨.countOverflow, accept_eq_error_iff.2 ⟨rfl, hover⟩, rfl, rfl⟩

/-! ## The steps of a pass -/

/-- What a pass does until it reads results. -/
def getReady (a : Assignment) : FleetM ω ρ Event := do
  handleAll .fresh (fun id () => assign a id) ()
  handleAll .idle (fun id () => handWork id) ()
  waitForEvent true

theorem breaks_getReady (h : Breaks (getReady (ρ := ρ) a) f w e w') : e = .stalled := by
  simp only [getReady, breaks_bind, not_breaks_waitForEvent, and_false, exists_false,
    or_false] at h
  rcases h with hassign | ⟨_, g, v, -, hwork⟩
  · rcases breaks_handleAll hassign with ⟨id, _, g, v, -, hfirst, hbreak⟩
    rw [assign_eq_tell] at hbreak
    exact breaks_tell_of_state (stateOf?_of_find? hfirst) (by decide) hbreak
  · rcases breaks_handleAll hwork with ⟨id, _, g, v, -, hfirst, hbreak⟩
    rw [handWork_eq_tell] at hbreak
    exact breaks_tell_of_state (stateOf?_of_find? hfirst) (by decide) hbreak

end Fleet

namespace Estimator

open Fleet

variable {E : Type} {ω ρ : Type} [World ω ρ]
variable {a : Assignment} {s : Estimator E} {f f' : Fleet ρ} {w w' : ω} {e : FleetFault}

/-- What a pass does once it has read results. -/
def afterReading (s : Estimator E) (y : Bool × Totals Real64) : FleetM ω ρ (Estimator E) := do
  let (added, totals) := y
  let s := { s with totals }
  if added then
    let f ← getThe (Fleet ρ)
    let wall := World.elapsed ρ (← getThe ω)
    modifyThe ω (Watch.report (.ofEstimate s.evaluate (some f.size) (some (f.speedup wall))))
  return s

theorem pass_eq (a : Assignment) (s : Estimator E) :
    (s.pass a : FleetM ω ρ (Estimator E)) = (do
      let _ ← getReady a
      let y ← readResults a s.totals
      afterReading s y) := by
  unfold getReady
  simp only [bind_assoc]
  rfl

/-- Behind the results, a pass makes a report or none. -/
theorem ends_afterReading {y : Bool × Totals Real64} {s' : Estimator E}
    (h : Ends (afterReading s y) f w s' f' w') :
    f' = f ∧ s' = { s with totals := y.2 } ∧ (w' = w ∨ ∃ r, w' = Watch.report r w) := by
  rcases y with ⟨added, t⟩
  cases added with
  | false =>
    rcases ends_pure.1 h with ⟨rfl, rfl, rfl⟩
    exact ⟨rfl, rfl, .inl rfl⟩
  | true =>
    simp only [afterReading, if_true, ends_getFleet_bind, ends_getWorld_bind,
      ends_modifyWorld_bind] at h
    rcases ends_pure.1 h with ⟨rfl, rfl, rfl⟩
    exact ⟨rfl, rfl, .inr ⟨_, rfl⟩⟩

theorem not_breaks_afterReading {y : Bool × Totals Real64} :
    ¬ Breaks (afterReading s y) f w e w' := by
  rcases y with ⟨added, t⟩
  cases added with
  | false => exact not_breaks_pure
  | true =>
    simp only [afterReading, if_true, breaks_getFleet_bind, breaks_getWorld_bind,
      breaks_modifyWorld_bind]
    exact not_breaks_pure

/-- In a pass, the reply of a member is the next to be read. -/
def Reads (a : Assignment) (s : Estimator E) (f : Fleet ρ) (w : ω) (id : MemberId)
    (sofar : Bool × Totals Real64) (g : Fleet ρ) (v : ω) : Prop :=
  (∃ ev f₁ w₁, Ends (getReady a) f w ev f₁ w₁ ∧
    Handling .pending (readResult a) (false, s.totals) f₁ w₁ sofar g v) ∧
    g.find? .pending = some id

theorem breaks_pass_iff :
    Breaks (s.pass a) f w e w' ∧ e ≠ .stalled ↔
      e = .totals .countOverflow ∧ ∃ id sofar g v, Reads a s f w id sofar g v ∧
        ∃ m l r, g.get? id = some m ∧ Meets WorkResult.recv m.link v (.ok r) l w' ∧
          Overflows a sofar.2 r := by
  rw [pass_eq]
  simp only [breaks_bind, not_breaks_afterReading, and_false, exists_false, or_false]
  constructor
  · intro h
    rcases h with ⟨hready | ⟨ev, f₁, w₁, hready, hread⟩, hne⟩
    · exact absurd (breaks_getReady hready) hne
    · rcases breaks_handleAll hread with ⟨id, sofar, g, v, hhandling, hfirst, hbreak⟩
      rcases (breaks_readResult_iff (stateOf?_of_find? hfirst)).1 ⟨hbreak, hne⟩ with ⟨he, hover⟩
      exact ⟨he, id, sofar, g, v, ⟨⟨ev, f₁, w₁, hready, hhandling⟩, hfirst⟩, hover⟩
  · intro h
    -- every reply before this one has taken its member out of the state
    rcases h with ⟨he, id, sofar, g, v, ⟨⟨ev, f₁, w₁, hready, hhandling⟩, hfirst⟩, hover⟩
    rcases (breaks_readResult_iff (stateOf?_of_find? hfirst)).2 ⟨he, hover⟩ with ⟨hbreak, hne⟩
    refine ⟨.inr ⟨ev, f₁, w₁, hready, ?_⟩, hne⟩
    exact (breaks_handleAll_iff lessens_readResult).2 ⟨id, sofar, g, v, hhandling, hfirst, hbreak⟩

/-- However its members reply, a pass ends, waits forever or leaves 64 bits. It leaves
them exactly if it reads a result of the run whose count of samples is too large. Every
other reply concerns its member alone. Of the numbers of members, which have no upper bound here,
the wait of a pass gives out one, and 64 bits are enough for fewer than 2^64 connections. -/
theorem replies_in_pass (a : Assignment) (s : Estimator E) (f : Fleet ρ) (w : ω) :
    ((∃ s' f' w', Ends (s.pass a) f w s' f' w') ∨ (∃ w', Breaks (s.pass a) f w .stalled w') ∨
        ∃ w', Breaks (s.pass a) f w (.totals .countOverflow) w') ∧
      (∀ w', Breaks (s.pass a) f w (.totals .countOverflow) w' ↔
        ∃ id sofar g v, Reads a s f w id sofar g v ∧
          ∃ m l r, g.get? id = some m ∧ Meets WorkResult.recv m.link v (.ok r) l w' ∧
            Overflows a sofar.2 r) ∧
      ∀ id sofar g v, Reads a s f w id sofar g v →
        ∀ y g' v', Ends (readResult a id sofar) g v y g' v' → Handled a id sofar g v y g' := by
  refine ⟨?_, fun w' => ?_, fun id sofar g v _ y g' v' h => handled_of_ends h⟩
  · rcases ends_or_breaks (s.pass a) f w with hends | ⟨e, w', h⟩
    · exact .inl hends
    · -- every other fault of a pass is an overflow
      by_cases he : e = .stalled
      · exact .inr (.inl ⟨w', he ▸ h⟩)
      · exact .inr (.inr ⟨w', (breaks_pass_iff.1 ⟨h, he⟩).1 ▸ h⟩)
  · constructor
    · intro h
      exact (breaks_pass_iff.1 ⟨h, by simp⟩).2
    · intro h
      exact (breaks_pass_iff.2 ⟨rfl, h⟩).1

/-- A worker that claims, again and again, to have drawn as many samples as can be
counted. -/
def boastful : Player :=
  .new 0 ⟨none, false, [], [.result ⟨[1], [1], 0xffffffffffffffff⟩ none none none]⟩ false

def ones : Replay := ⟨1, [⟨[1], rfl⟩], [⟨[1], rfl⟩], [], 0⟩

/-- Its second reply takes the coordinator down. -/
theorem overflow_by_replies :
    ∃ e w, Breaks
      (do
        let _ ← insert boastful "worker"
        (⟨ones, .standard, 1, .zero 1⟩ : Estimator Replay).estimateDistributed)
      Fleet.empty Stage.empty e w ∧ e = .totals .countOverflow := by
  decide +kernel

end Estimator

end FleetEstimate
