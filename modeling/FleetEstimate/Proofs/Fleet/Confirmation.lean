import FleetEstimate.Proofs.Fleet.Freshness
import FleetEstimate.Proofs.Fleet.Returns

/-!
# What members have confirmed

No reply tells a coordinator that a member has taken its system or its parameter. It hears of
it with the next reply. Between two runs the last request of every member is one with a reply:
whoever is given an assignment in a pass is handed a work unit in the same pass, and owes the
result until it is read. Only between these two a member stands unconfirmed, and then it is
`idle`.
-/

namespace FleetEstimate

section Members

variable {ρ : Type} [Traffic ρ] {m : Member ρ} {waived : List MemberState} {done : List Request}

/-- The account of a member's link agrees with its state, and the last request that went over the
link has a reply. In some states it need not have one. -/
def Member.Confirms (waived : List MemberState) (m : Member ρ) : Prop :=
  ∃ done, m.Settles done ∧ (m.state ∈ waived ∨ Confirmed (done ++ m.state.owed))

theorem Member.confirms_of_owed (hset : m.Settles done) (howed : m.state.owed = [.work]) :
    m.Confirms waived := by
  refine ⟨done, hset, .inr ?_⟩
  rw [howed]
  exact confirmed_append done trivial

theorem Member.confirms_of_reply {q : Request} (hset : m.Settles (done ++ [q]))
    (howed : m.state.owed = []) (hq : q.HasReply) : m.Confirms waived := by
  refine ⟨done ++ [q], hset, .inr ?_⟩
  rw [howed, List.append_nil]
  exact confirmed_append done hq

/-- All members confirm what was asked last, or are in a state in which they need not. -/
def Fleet.Confirms (waived : List MemberState) (f : Fleet ρ) : Prop :=
  ∀ id m, f.get? id = some m → m.Confirms waived

end Members

namespace Fleet

open Moment

variable {ω ρ : Type} [World ω ρ] [Traffic ρ] {f f' g : Fleet ρ} {w w' v : ω} {id : MemberId}
variable {m x : Member ρ} {waived : List MemberState} {a : Assignment}

omit [World ω ρ] in
theorem Confirms.waive (h : f.Confirms []) : f.Confirms waived := by
  intro i m hm
  rcases h i m hm with ⟨done, hset, hnone | hconfirmed⟩
  · exact absurd hnone List.not_mem_nil
  · exact ⟨done, hset, .inr hconfirmed⟩

omit [World ω ρ] in
/-- With nobody in the only state that is waived, everybody confirms. -/
theorem Confirms.of_nobody {s : MemberState} (h : f.Confirms [s]) (hnobody : f.find? s = none) :
    f.Confirms [] := by
  intro i m hm
  rcases h i m hm with ⟨done, hset, hstate | hconfirmed⟩
  · rw [List.mem_singleton] at hstate
    exact absurd (stateOf?_eq_some_iff.2 ⟨m, hm, hstate⟩) (find?_eq_none_iff.1 hnobody i)
  · exact ⟨done, hset, .inr hconfirmed⟩

omit [World ω ρ] in
/-- If only one member changes, only that member is at stake. -/
theorem Confirms.change (h : f.Confirms waived)
    (hothers : ∀ other, other ≠ id → f'.get? other = f.get? other)
    (hid : ∀ x, f'.get? id = some x → x.Confirms waived) : f'.Confirms waived := by
  intro i x hx
  by_cases heq : i = id
  · subst heq
    exact hid x hx
  · rw [hothers i heq] at hx
    exact h i x hx

variable [Workers ω ρ]

/-! ## Waits -/

theorem confirms_acted (h : f.Confirms waived) (hm : f.get? id = some m) :
    (f.withRemote id (World.acting id m.link.remote w).1).Confirms waived := by
  refine h.change (changes_modifyMember f id _).get? fun x hx => ?_
  have hnow : some { m with link.remote := (World.acting id m.link.remote w).1 } = some x := by
    rw [← hx]
    simp [hm]
  cases hnow
  rcases h id m hm with ⟨done, hset, hconfirms⟩
  have hset' : Account { m.link with remote := (World.acting id m.link.remote w).1 } done
      m.state.owed := Account.acted hset
  exact ⟨done, hset', hconfirms⟩

theorem confirms_acting (hact : Acting f w g v) (h : f.Confirms waived) : g.Confirms waived := by
  induction hact with
  | none => exact h
  | more _ member ih => exact confirms_acted ih member

/-- Whoever joins has told its name. -/
theorem confirms_joining {accepting : Bool} (hjoin : Joining f w accepting f' w')
    (h : f.Confirms waived) : f'.Confirms waived := by
  cases hjoin with
  | shut => exact h
  | nobody _ => exact h
  | failed _ => exact h
  | refused _ _ => exact h
  | @joined _ remote _ _ name l offer named =>
    intro i x hx
    rw [get?_track] at hx
    split at hx
    · cases hx
      -- the newcomer's only request is the one for its name, and it has answered
      have hset : Member.Settles (⟨l, .fresh, name, 0⟩ : Member ρ) ([] ++ [.name]) :=
        account_joined offer named
      exact Member.confirms_of_reply hset rfl trivial
    · exact h i x hx

theorem confirms_swept (hswept : Swept ω f f') (h : f.Confirms waived) : f'.Confirms waived := by
  intro i x hx
  rw [hswept.get?, Option.bind_eq_some_iff] at hx
  rcases hx with ⟨m, hm, hsw⟩
  rcases h i m hm with ⟨done, hset, hconfirms⟩
  rcases settles_swept hset hsw with ⟨hset', howed, hsame | ⟨howes, -⟩⟩
  · rw [← hsame] at hconfirms
    exact ⟨done, hset', hconfirms⟩
  · exact Member.confirms_of_owed hset' (howed.trans howes)

theorem confirms_waited {accepting : Bool} {ev : Event} (h : f.Confirms waived)
    (hwait : Ends (waitForEvent accepting) f w ev f' w') : f'.Confirms waived := by
  rcases ends_waitForEvent hwait with ⟨g, v, g', v', hact, hjoin, hswept⟩
  exact confirms_swept hswept (confirms_joining hjoin (confirms_acting hact h))

/-! ## One member -/

/-- An assignment has no reply. -/
theorem confirms_assign {u : Unit} (h : f.Confirms [.idle]) (hfirst : f.find? .fresh = some id)
    (hassign : Ends (assign a id) f w u f' w') : f'.Confirms [.idle] := by
  rw [assign_eq_tell] at hassign
  refine h.change (changes_tell hassign).get? fun x hx => ?_
  rcases member_of_tell hassign hx with ⟨m, v, hm, hmeets, hidle⟩
  have hfresh := state_eq_of_get? (stateOf?_of_find? hfirst) hm
  rcases h id m hm with ⟨done, hset, -⟩
  exact ⟨_, settles_assigned hset hfresh hmeets hidle, .inl (List.mem_singleton.2 hidle)⟩

/-- A work unit has one. -/
theorem confirms_handWork {u : Unit} (h : f.Confirms waived) (hfirst : f.find? .idle = some id)
    (hhand : Ends (handWork id) f w u f' w') : f'.Confirms waived := by
  rw [handWork_eq_tell] at hhand
  refine h.change (changes_tell hhand).get? fun x hx => ?_
  rcases member_of_tell hhand hx with ⟨m, v, hm, hmeets, hworking⟩
  have hidle := state_eq_of_get? (stateOf?_of_find? hfirst) hm
  rcases h id m hm with ⟨done, hset, -⟩
  have howed : x.state.owed = [.work] := by
    rw [hworking]
    rfl
  exact Member.confirms_of_owed (settles_handed hset hidle hmeets hworking) howed

/-- Whoever has delivered a result is asked for its busy time, and tells it. -/
theorem confirms_delivered {l : Link ρ} {r : WorkResult} {used : Real64} {v v' : ω}
    (h : m.Confirms waived) (hpending : m.state = .pending)
    (hread : Meets WorkResult.recv m.link w (.ok r) l v)
    (hasked : Meets askBusyTime l v (.ok used) x.link v') (hidle : x.state = .idle) :
    x.Confirms waived := by
  rcases h with ⟨done, hset, -⟩
  have hset' : x.Settles (done ++ [.work] ++ [.busyTime]) := by
    rw [List.append_assoc]
    exact settles_delivered hset hpending hread hasked hidle
  have howed : x.state.owed = [] := by
    rw [hidle]
    rfl
  exact Member.confirms_of_reply hset' howed trivial

theorem confirms_discardResult {u : Unit} (h : f.Confirms waived)
    (hfirst : f.find? .pending = some id) (hdiscard : Ends (discardResult id) f w u f' w') :
    f'.Confirms waived := by
  refine h.change (changes_discardResult hdiscard).get? fun x hx => ?_
  rcases member_of_discardResult hdiscard hx with ⟨m, r, l, v, used, v', hm, hread, hasked, hidle⟩
  have hpending := state_eq_of_get? (stateOf?_of_find? hfirst) hm
  exact confirms_delivered (h id m hm) hpending hread hasked hidle

theorem confirms_readResult {sofar y : Bool × Totals Real64} (h : f.Confirms waived)
    (hfirst : f.find? .pending = some id) (hread : Ends (readResult a id sofar) f w y f' w') :
    f'.Confirms waived := by
  refine h.change (handled_of_ends hread).others fun x hx => ?_
  rcases ends_readResult.1 hread with ⟨hnone, -, rfl, -⟩ | ⟨m, l, v, hm, ⟨r, hmeets, hreply⟩ |
    ⟨e, -, -, hleaves⟩⟩
  · rw [hnone] at hx
    cases hx
  · have hpending := state_eq_of_get? (stateOf?_of_find? hfirst) hm
    rcases hreply with ⟨-, -, rfl, -⟩ | ⟨t, -, -, hconclude⟩
    · -- a result that does not belong to the run was read all the same
      have hnow : some { m with link := l, state := .fresh } = some x := by
        rw [← hx]
        simp [hm]
      cases hnow
      rcases h id m hm with ⟨done, hset, -⟩
      rw [Member.Settles, hpending] at hset
      exact Member.confirms_of_reply (m := { m with link := l, state := .fresh })
        (Account.heardResult hset hmeets).1 rfl trivial
    · rcases member_of_conclude hconclude hx with ⟨m', used, v', hm', hasked, hidle⟩
      cases (get?_withLink_self hm l).symm.trans hm'
      exact confirms_delivered (h id m hm) hpending hmeets hasked hidle
  · -- whoever has left need not confirm anything
    rw [hleaves.get?_eq_none] at hx
    cases hx

/-! ## All members -/

theorem confirms_settling (hset : Settling f w g v) (h : f.Confirms waived) :
    g.Confirms waived := by
  induction hset with
  | start => exact h
  | waited _ _ wait ih => exact confirms_waited ih wait
  | discarded _ first discard ih => exact confirms_discardResult ih first discard
  | gaveUp _ giveUp ih =>
    intro i x hx
    rw [get?_dropWorking giveUp] at hx
    split at hx
    · cases hx
    · exact ih i x hx

theorem confirms_settle {u : Unit} (h : f.Confirms waived) (hsettle : Ends settle f w u f' w') :
    f'.Confirms waived :=
  confirms_settling (ends_settleWithin (ends_settle.1 hsettle)).1 h

omit [Traffic ρ] [Workers ω ρ] in
theorem lessens_handWork : Lessens .idle fun id () => handWork (ω := ω) (ρ := ρ) id := by
  rw [handWork_eq_tell]
  exact (decides_tell (Link.prompt_call workCall) (by decide) (by decide)).lessens

/-- Whoever is given an assignment is handed a work unit before the pass goes on. -/
theorem confirms_getReady {ev : Event} (h : f.Confirms [])
    (hready : Ends (getReady a) f w ev f' w') : f'.Confirms [] := by
  simp only [getReady, ends_bind] at hready
  rcases hready with ⟨_, g, v, hassign, _, g', v', hwork, hwait⟩
  -- between the two rounds, those who were just given an assignment are unconfirmed
  have hassigned : g.Confirms [.idle] := by
    have hhandling := ends_handleAll hassign
    clear hassign hwork
    induction hhandling with
    | none => exact h.waive
    | more _ first step ih => exact confirms_assign ih first step
  have hhanded : g'.Confirms [.idle] := by
    have hhandling := ends_handleAll hwork
    clear hwork hwait
    induction hhandling with
    | none => exact hassigned
    | more _ first step ih => exact confirms_handWork ih first step
  exact confirms_waited (hhanded.of_nobody (find?_handleAll lessens_handWork hwork)) hwait

theorem confirms_readResults {t : Totals Real64} {y : Bool × Totals Real64}
    (h : f.Confirms waived) (hread : Ends (readResults a t) f w y f' w') : f'.Confirms waived := by
  have hhandling := ends_handleAll hread
  clear hread
  induction hhandling with
  | none => exact h
  | more _ first step ih => exact confirms_readResult ih first step

/-! ## Runs -/

variable {E : Type} {s s' : Estimator E}

theorem confirms_pass (h : f.Confirms []) (hpass : Ends (s.pass a) f w s' f' w') :
    f'.Confirms [] := by
  rw [Estimator.pass_eq] at hpass
  rcases ends_bind.1 hpass with ⟨_, g, v, hready, hpass⟩
  rcases ends_bind.1 hpass with ⟨y, g', v', hread, hafter⟩
  rw [(Estimator.ends_afterReading hafter).1]
  exact confirms_readResults (confirms_getReady h hready) hread

theorem confirms_course {passes : List (List (Totals Real64))}
    (hcourse : Estimator.Course a s f w passes s' f' w') (h : f.Confirms []) : f'.Confirms [] := by
  induction hcourse with
  | last pass _ _ => exact confirms_pass h pass
  | more pass _ _ _ ih => exact ih (confirms_pass h pass)

omit [World ω ρ] [Workers ω ρ] in
/-- Members that owe nothing may be initialized again. -/
theorem confirms_resetAll {u : PUnit} (h : f.Confirms []) (hworking : f.find? .working = none)
    (hpending : f.find? .pending = none) (hreset : Ends resetAll f w u f' w') :
    f'.Confirms [] := by
  intro i x hx
  rw [(ends_resetAll hreset).2, Option.map_eq_some_iff] at hx
  rcases hx with ⟨m, hm, rfl⟩
  rcases h i m hm with ⟨done, hset, hconfirms⟩
  rw [Member.Settles, owed_eq_nil hworking hpending hm] at hset
  rw [owed_eq_nil hworking hpending hm] at hconfirms
  rcases hconfirms with hnone | hconfirmed
  · exact absurd hnone List.not_mem_nil
  · exact ⟨done, hset, .inr hconfirmed⟩

theorem confirms_estimateDistributed [Experiment E]
    {r : Except EstimationError (Estimate Real64 × Estimator E)} (hread : f.find? .pending = none)
    (h : f.Confirms []) (hrun : Ends s.estimateDistributed f w r f' w') : f'.Confirms [] := by
  unfold Estimator.estimateDistributed at hrun
  cases hstart : s.start with
  | error e =>
    rw [hstart] at hrun
    rcases ends_pure.1 hrun with ⟨-, rfl, -⟩
    exact h
  | ok s₀ =>
    rw [hstart] at hrun
    rcases ends_bind.1 hrun with ⟨_, f₁, w₁, hsettle, hrun⟩
    rcases ends_bind.1 hrun with ⟨_, f₂, w₂, hreset, hrun⟩
    rcases ends_bind.1 hrun with ⟨_, f₃, w₃, htime, hrun⟩
    rcases ends_bind.1 hrun with ⟨⟨e, s₁⟩, f₄, w₄, hpasses, hrun⟩
    rcases ends_pure.1 hrun with ⟨-, rfl, -⟩
    -- after the settlement nobody is working or pending, so that everybody may be made fresh
    rcases tasks_settle [] hread hsettle with ⟨-, hworking, hpending⟩
    have hsettled := confirms_settle h hsettle
    have hbegan := confirms_resetAll hsettled hworking hpending hreset
    rcases ends_modifyFleet.1 htime with ⟨rfl, -⟩
    rcases Estimator.ends_passUntilDone_iff.1 hpasses with ⟨passes, hcourse, -, -⟩
    exact confirms_course hcourse hbegan

end Fleet

namespace Moment

open Fleet

variable {ω ρ : Type} [World ω ρ] [Traffic ρ] {f : Fleet ρ} {w : ω}

/-- A fleet that began with nobody and its world, after any runs that ended. -/
inductive AfterRuns : Fleet ρ → ω → Prop
  | none (w : ω) : AfterRuns .empty w
  /-- Time goes by in the outside world. -/
  | passed {f : Fleet ρ} {w : ω} (sofar : AfterRuns f w) (w' : ω) : AfterRuns f w'
  /-- A far end acts on its own. -/
  | acted {f : Fleet ρ} {w : ω} {id m} (sofar : AfterRuns f w) (member : f.get? id = some m) :
      AfterRuns (f.withRemote id (World.acting id m.link.remote w).1)
        (World.acting id m.link.remote w).2
  | ran {E : Type} [Experiment E] {s : Estimator E} {f f' : Fleet ρ} {w w' : ω} {r}
      (sofar : AfterRuns f w) (run : Ends s.estimateDistributed f w r f' w') : AfterRuns f' w'

theorem AfterRuns.afterCalls (h : AfterRuns f w) : AfterCalls f w := by
  induction h with
  | none w => exact .none w
  | passed _ w' ih => exact .passed ih w'
  | acted _ member ih => exact .acted ih member
  | ran _ run ih => exact .ran ih run

theorem AfterRuns.read (h : AfterRuns f w) : f.find? .pending = Option.none := by
  rcases reachable_of_afterCalls h.afterCalls with ⟨_, -, hread⟩
  exact hread

/-- Between two runs everybody has confirmed what was asked last. -/
theorem AfterRuns.confirms [Workers ω ρ] (h : AfterRuns f w) : f.Confirms [] := by
  induction h with
  | none w =>
    intro i m hm
    cases hm
  | passed _ _ ih => exact ih
  | acted _ member ih => exact confirms_acted ih member
  | ran sofar run ih => exact confirms_estimateDistributed sofar.read ih run

end Moment

end FleetEstimate
