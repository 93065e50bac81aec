import FleetEstimate.Proofs.Fleet.Fates
import FleetEstimate.Proofs.Fleet.Waiting
import FleetEstimate.Rehearsal.Stage

/-!
# What settling leaves behind

Settling ends with nobody working. It reads the results that have come only after a wait
of its own, and it waits only while somebody is working. So every link is quiet
afterwards exactly if nobody was `pending` at the beginning or there was a wait. Then
everybody who owed a result has either delivered it, and is `idle`, or is gone.
-/

namespace FleetEstimate.Fleet

variable {ω ρ : Type} [World ω ρ] {f f' g g' : Fleet ρ} {w w' v v' : ω} {id : MemberId}

/-- A member owes a result that nobody has read. -/
def Owes (f : Fleet ρ) (id : MemberId) : Prop :=
  f.stateOf? id = some .working ∨ f.stateOf? id = some .pending

/-- A member's result is read, and it tells its busy time. -/
def Delivers (id : MemberId) (f : Fleet ρ) (w : ω) (f' : Fleet ρ) (w' : ω) : Prop :=
  f.stateOf? id = some .pending ∧ Ends (discardResult id) f w () f' w' ∧
    f'.stateOf? id = some .idle

theorem lessens_discardResult :
    Lessens .pending (fun id () => discardResult (ω := ω) (ρ := ρ) id) :=
  decides_discardResult.lessens

/-! ## The moments of settling -/

/-- What is reached while results are waited for and discarded. -/
inductive Settling (f : Fleet ρ) (w : ω) : Fleet ρ → ω → Prop
  | start : Settling f w f w
  | waited {g g' : Fleet ρ} {v v' : ω} {ev : Event} (sofar : Settling f w g v)
      (owed : g.anyWorking = true) (wait : Ends (waitForEvent false) g v ev g' v') :
      Settling f w g' v'
  | discarded {g g' : Fleet ρ} {v v' : ω} {id : MemberId} (sofar : Settling f w g v)
      (first : g.find? .pending = some id) (discard : Ends (discardResult id) g v () g' v') :
      Settling f w g' v'
  | gaveUp {g g' : Fleet ρ} {v v' : ω} (sofar : Settling f w g v)
      (giveUp : Ends dropWorking g v () g' v') :
      Settling f w g' v'

theorem Settling.trans (h : Settling f w g v) (h' : Settling g v g' v') : Settling f w g' v' := by
  induction h' with
  | start => exact h
  | waited _ owed wait ih => exact .waited ih owed wait
  | discarded _ first discard ih => exact .discarded ih first discard
  | gaveUp _ giveUp ih => exact .gaveUp ih giveUp

theorem get?_dropWorking {u : Unit} (h : Ends (dropWorking (ω := ω)) f w u f' w')
    (id : MemberId) :
    f'.get? id = if f.stateOf? id = some .working then none else f.get? id := by
  simp only [dropWorking, ends_getFleet_bind] at h
  rw [ends_forM_drop (k := fun i => i) h id]
  simp only [List.map_id', mem_idsIn]

/-- While results are discarded, members become `pending` or `idle` and nothing else. -/
theorem Settling.stateOf? {s : MemberState} (h : Settling f w g v) (hs : g.stateOf? id = some s) :
    f.stateOf? id = some s ∨ (s = .idle ∨ s = .pending) ∧ ∃ s₀, f.stateOf? id = some s₀ := by
  induction h generalizing s with
  | start => exact .inl hs
  | waited _ _ wait ih =>
    -- a wait may mark members, which is how they become pending
    rcases stateOf?_waitForEvent wait hs with hs | ⟨rfl, s', hs'⟩
    · exact ih hs
    · refine .inr ⟨.inr rfl, ?_⟩
      rcases ih hs' with h | ⟨-, h⟩
      · exact ⟨s', h⟩
      · exact h
  | @discarded g g' v v' i _ first discard ih =>
    by_cases heq : id = i
    · subst heq
      -- the member whose result was discarded, if it is still there
      have hidle : s = .idle := by
        rcases idle_or_gone_of_discardResult discard with hidle | hgone
        · exact Option.some.inj (hs.symm.trans hidle)
        · rw [Fleet.stateOf?, hgone] at hs
          cases hs
      refine .inr ⟨.inl hidle, ?_⟩
      rcases ih (stateOf?_of_find? first) with h | ⟨-, h⟩
      · exact ⟨_, h⟩
      · exact h
    · rw [stateOf?_congr ((changes_discardResult discard).get? id heq)] at hs
      exact ih hs
  | gaveUp _ giveUp ih =>
    rw [Fleet.stateOf?, get?_dropWorking giveUp] at hs
    split at hs
    · cases hs
    · exact ih hs

/-- At some moment of settling the member's result was read and its busy time was told. -/
def Delivered (f : Fleet ρ) (w : ω) (id : MemberId) (f' : Fleet ρ) (w' : ω) : Prop :=
  ∃ g v g' v', Settling f w g v ∧ Delivers id g v g' v' ∧ Settling g' v' f' w'

theorem Delivered.trans (h : Delivered f w id g v) (h' : Settling g v g' v') :
    Delivered f w id g' v' := by
  rcases h with ⟨g₁, v₁, g₂, v₂, hbefore, hdelivers, hafter⟩
  exact ⟨g₁, v₁, g₂, v₂, hbefore, hdelivers, hafter.trans h'⟩

/-- A member that owed a result still does, or has delivered it, or is gone. -/
def Accounted (f : Fleet ρ) (w : ω) (id : MemberId) (g : Fleet ρ) (v : ω) : Prop :=
  g.get? id = none ∨ g.Owes id ∨ g.stateOf? id = some .idle ∧ Delivered f w id g v

/-- A step that leaves a member where it is leaves it accounted for. -/
theorem Accounted.same (h : Accounted f w id g v) (hstep : Settling g v g' v')
    (hs : g'.stateOf? id = g.stateOf? id) : Accounted f w id g' v' := by
  rcases h with hgone | howes | ⟨hidle, hdelivered⟩
  · left
    rw [← stateOf?_eq_none_iff, hs]
    exact stateOf?_eq_none_iff.2 hgone
  · right; left
    rw [Owes, hs]
    exact howes
  · right; right
    rw [hs]
    exact ⟨hidle, hdelivered.trans hstep⟩

/-- Settling accounts for everybody who owed a result. -/
theorem Settling.accounts (h : Settling f w g v) (howes : f.Owes id) :
    Accounted f w id g v := by
  induction h with
  | start => exact .inr (.inl howes)
  | @waited g g' v v' ev sofar owed wait ih =>
    cases hm : g'.get? id with
    | none => exact .inl hm
    | some m =>
      have hs : g'.stateOf? id = some m.state := stateOf?_eq_some_iff.2 ⟨m, hm, rfl⟩
      rcases stateOf?_waitForEvent wait hs with hbefore | ⟨hpending, -⟩
      · exact ih.same (.waited .start owed wait) (hs.trans hbefore.symm)
      · -- whoever is marked owes a result, whatever it did before
        refine .inr (.inl (.inr ?_))
        rw [hs, hpending]
  | @discarded g g' v v' i sofar first discard ih =>
    by_cases heq : id = i
    · subst heq
      rcases idle_or_gone_of_discardResult discard with hidle | hgone
      · exact .inr (.inr ⟨hidle, g, v, g', v', sofar, ⟨stateOf?_of_find? first, discard, hidle⟩,
          .start⟩)
      · exact .inl hgone
    · have hsame := (changes_discardResult discard).get? id heq
      exact ih.same (.discarded .start first discard) (stateOf?_congr hsame)
  | @gaveUp g g' v v' sofar giveUp ih =>
    by_cases hworking : g.stateOf? id = some .working
    · left
      rw [get?_dropWorking giveUp, if_pos hworking]
    · have hsame : g'.get? id = g.get? id := by rw [get?_dropWorking giveUp, if_neg hworking]
      exact ih.same (.gaveUp .start giveUp) (stateOf?_congr hsame)

theorem not_breaks_dropWorking {e : FleetFault} : ¬ Breaks (dropWorking (ω := ω)) f w e w' := by
  simp only [dropWorking, breaks_getFleet_bind]
  intro h
  exact not_breaks_forM_drop (k := fun i => i) h

/-- The link of a member whose result has come delivers neither the rest of the result or
of the busy time nor its end. -/
def Stalls (id : MemberId) (f : Fleet ρ) (w : ω) (w' : ω) : Prop :=
  ∃ m l, f.get? id = some m ∧ m.state = .pending ∧
    (Meets WorkResult.recv m.link w (.error .stalled) l w' ∨
      ∃ r l₁ v, Meets WorkResult.recv m.link w (.ok r) l₁ v ∧
        Meets askBusyTime l₁ v (.error .stalled) l w')

theorem stalls_of_breaks {e : FleetFault} (hs : f.stateOf? id = some .pending)
    (h : Breaks (discardResult (ω := ω) id) f w e w') : e = .stalled ∧ Stalls id f w w' := by
  rcases stateOf?_eq_some_iff.1 hs with ⟨m, hm, hstate⟩
  cases decides_discardResult.breaks hm hstate h with
  | result waits => exact ⟨rfl, m, _, hm, hstate, .inl waits⟩
  | busyTime result waits => exact ⟨rfl, m, _, hm, hstate, .inr ⟨_, _, _, result, waits⟩⟩

/-! ## A whole settlement -/

theorem settling_of_handling {u : Unit}
    (h : Handling .pending (fun id () => discardResult id) () g v u g' v')
    (sofar : Settling f w g v) : Settling f w g' v' := by
  induction h with
  | none => exact sofar
  | more _ first discard ih => exact .discarded ih first discard

/-- The fleet without those who are working. -/
def Unworked (f f' : Fleet ρ) : Prop :=
  ∀ id, f'.get? id = if f.stateOf? id = some .working then none else f.get? id

theorem Unworked.stateOf? {s : MemberState} (h : Unworked f f') (hs : f'.stateOf? id = some s) :
    f.stateOf? id = some s ∧ s ≠ .working := by
  rw [Fleet.stateOf?, h id] at hs
  split at hs
  · cases hs
  · rename_i hworking
    refine ⟨hs, ?_⟩
    rintro rfl
    exact hworking hs

theorem settling_dropWorking {u : Unit} (h : Ends (dropWorking (ω := ω)) f w u f' w') :
    Settling f w f' w' ∧ f'.NoneIn .working ∧ Unworked f f' := by
  have hunworked : Unworked f f' := get?_dropWorking h
  exact ⟨.gaveUp .start h, fun id hs => (hunworked.stateOf? hs).2 rfl, hunworked⟩

theorem settling_done {u : Unit} (hnone : ¬ f.anyWorking = true)
    (h : Ends (pure () : FleetM ω ρ Unit) f w u f' w') :
    Settling f w f' w' ∧ f'.NoneIn .working ∧ Unworked f f' := by
  rcases ends_pure.1 h with ⟨-, rfl, rfl⟩
  have hworking := anyWorking_eq_false_iff.1 (by simpa using hnone)
  exact ⟨.start, hworking, fun id => (if_neg (hworking id)).symm⟩

/-- A settlement begins with a wait. -/
def WaitsFirst (f : Fleet ρ) (w : ω) (waits : ℕ) : Prop :=
  f.anyWorking = true ∧ Watch.interrupted w = false ∧ 0 < waits

/-- A settlement that begins with a wait leaves nobody `pending`. Otherwise those who are
working leave, and all others stay as they are. -/
theorem ends_settleWithin {waits : ℕ} {u : Unit} (h : Ends (settleWithin waits) f w u f' w') :
    Settling f w f' w' ∧ f'.NoneIn .working ∧
      (WaitsFirst f w waits ∧ f'.NoneIn .pending ∨ ¬ WaitsFirst f w waits ∧ Unworked f f') := by
  -- after a wait nobody is `pending`, which the rest keeps whether it waits again or not
  induction waits generalizing f w with
  | zero =>
    have hnot : ¬ WaitsFirst f w 0 := fun h => absurd h.2.2 (Nat.lt_irrefl 0)
    simp only [settleWithin, ends_getFleet_bind] at h
    split at h
    · rcases settling_dropWorking h with ⟨hset, hworking, hunworked⟩
      exact ⟨hset, hworking, .inr ⟨hnot, hunworked⟩⟩
    · rename_i hnone
      rcases settling_done hnone h with ⟨hset, hworking, hunworked⟩
      exact ⟨hset, hworking, .inr ⟨hnot, hunworked⟩⟩
  | succ waits ih =>
    simp only [settleWithin, ends_getFleet_bind] at h
    split at h
    · rename_i howed
      rw [ends_getWorld_bind] at h
      split at h
      · rename_i hraised
        rcases settling_dropWorking h with ⟨hset, hworking, hunworked⟩
        refine ⟨hset, hworking, .inr ⟨fun h => ?_, hunworked⟩⟩
        rw [h.2.1] at hraised
        cases hraised
      · rename_i hraised
        simp only [ends_bind] at h
        rcases h with ⟨ev, g, v, hwait, u, g', v', hhandle, hrest⟩
        have hnone : g'.NoneIn .pending :=
          find?_eq_none_iff.1 (find?_handleAll lessens_discardResult hhandle)
        have hset : Settling f _ g' v' :=
          settling_of_handling (ends_handleAll hhandle) (.waited .start howed hwait)
        rcases ih hrest with ⟨hmore, hworking, hleft⟩
        refine ⟨hset.trans hmore, hworking, .inl ⟨⟨howed, by simpa using hraised, by omega⟩, ?_⟩⟩
        rcases hleft with ⟨-, hpending⟩ | ⟨-, hunworked⟩
        · exact hpending
        · exact fun id hs => hnone id (hunworked.stateOf? hs).1
    · rename_i hnone
      rcases settling_done hnone h with ⟨hset, hworking, hunworked⟩
      exact ⟨hset, hworking, .inr ⟨fun h => hnone h.1, hunworked⟩⟩

/-- A settlement breaks off only at a link that stalls. -/
theorem breaks_settleWithin {waits : ℕ} {e : FleetFault}
    (h : Breaks (settleWithin waits) f w e w') :
    e = .stalled ∧ ∃ g v id, Settling f w g v ∧ Stalls id g v w' := by
  induction waits generalizing f w with
  | zero =>
    simp only [settleWithin, breaks_getFleet_bind] at h
    split at h
    · exact absurd h not_breaks_dropWorking
    · exact absurd h not_breaks_pure
  | succ waits ih =>
    simp only [settleWithin, breaks_getFleet_bind] at h
    split at h
    · rename_i howed
      rw [breaks_getWorld_bind] at h
      split at h
      · exact absurd h not_breaks_dropWorking
      · simp only [breaks_bind, not_breaks_waitForEvent, false_or] at h
        rcases h with ⟨ev, g, v, hwait, hhandle | ⟨u, g', v', hhandle, hrest⟩⟩
        · -- the results before the one that stalls have been discarded
          rcases breaks_handleAll hhandle with ⟨id, u, g', v', hhandling, hfirst, hbreak⟩
          rcases stalls_of_breaks (stateOf?_of_find? hfirst) hbreak with ⟨he, hstalls⟩
          exact ⟨he, g', v', id,
            settling_of_handling hhandling (.waited .start howed hwait), hstalls⟩
        · -- all results of this wait have been discarded, and a later wait stalls
          have hset : Settling f _ g' v' :=
            settling_of_handling (ends_handleAll hhandle) (.waited .start howed hwait)
          rcases ih hrest with ⟨he, g₁, v₁, id, hmore, hstalls⟩
          exact ⟨he, g₁, v₁, id, hset.trans hmore, hstalls⟩
    · exact absurd h not_breaks_pure

/-! ## The settlement before a run or a shutdown -/

theorem ends_settle {u : Unit} :
    Ends settle f w u f' w' ↔ Ends (settleWithin (World.patience ρ w)) f w u f' w' :=
  ends_getWorld_bind

theorem breaks_settle {e : FleetFault} :
    Breaks settle f w e w' ↔ Breaks (settleWithin (World.patience ρ w)) f w e w' :=
  breaks_getWorld_bind

/-- How a settlement leaves a fleet. -/
structure Settled (f : Fleet ρ) (w : ω) (f' : Fleet ρ) (w' : ω) : Prop where
  /-- Nobody is working. -/
  none_working : f'.NoneIn .working
  /-- Every result is read exactly if none had come at the beginning, or there was a
  wait. -/
  none_pending_iff :
    f'.NoneIn .pending ↔ f.NoneIn .pending ∨ WaitsFirst f w (World.patience ρ w)
  /-- If every result is read, whoever owed one is ready again, having delivered it, or is
  gone. -/
  accounted : f'.NoneIn .pending → ∀ id, f.Owes id →
    f'.get? id = none ∨ f'.stateOf? id = some .idle ∧ Delivered f w id f' w'
  /-- Whoever has delivered a result is ready, unless it is gone since. -/
  delivered : f'.NoneIn .pending → ∀ id, Delivered f w id f' w' →
    f'.get? id = none ∨ f'.stateOf? id = some .idle
  /-- If a result is not read, only those who were working have left. -/
  unread : ¬ f'.NoneIn .pending → Unworked f f'

theorem settled_of_ends {u : Unit} (h : Ends settle f w u f' w') : Settled f w f' w' := by
  rcases ends_settleWithin (ends_settle.1 h) with ⟨hset, hworking, hleft⟩
  refine ⟨hworking, ⟨fun hquiet => ?_, fun hquiet => ?_⟩, fun hquiet id howes => ?_,
    fun hquiet id hdelivered => ?_, fun hunread => ?_⟩
  · rcases hleft with ⟨hwaits, -⟩ | ⟨-, hunworked⟩
    · exact .inr hwaits
    · -- without a wait, whoever was `pending` still is
      refine .inl fun id hs => hquiet id ?_
      have hnot : f.stateOf? id ≠ some .working := by
        rw [hs]
        decide
      rw [stateOf?_congr ((hunworked id).trans (if_neg hnot))]
      exact hs
  · rcases hleft with ⟨-, hpending⟩ | ⟨hnot, hunworked⟩
    · exact hpending
    · rcases hquiet with hquiet | hwaits
      · exact fun id hs => hquiet id (hunworked.stateOf? hs).1
      · exact absurd hwaits hnot
  · rcases hset.accounts howes with hgone | howes | hidle
    · exact .inl hgone
    · rcases howes with hs | hs
      · exact absurd hs (hworking id)
      · exact absurd hs (hquiet id)
    · exact .inr hidle
  · rcases hdelivered with ⟨g, v, g', v', -, ⟨-, -, hidle⟩, hset'⟩
    cases hm : f'.get? id with
    | none => exact .inl rfl
    | some m =>
      right
      have hs : f'.stateOf? id = some m.state := stateOf?_eq_some_iff.2 ⟨m, hm, rfl⟩
      -- after its delivery a member stays `idle`, unless it is marked
      rcases hset'.stateOf? hs with hs' | ⟨hs' | hs', -⟩
      · rw [hs, ← hs', hidle]
      · rw [hs, hs']
      · exact absurd (hs' ▸ hs) (hquiet id)
  · rcases hleft with ⟨-, hpending⟩ | ⟨-, hunworked⟩
    · exact absurd hpending hunread
    · exact hunworked

/-- A settlement that no link stalls ends, and it leaves every link quiet exactly if no
result had come before it, or it waits. -/
theorem settle_outcome (f : Fleet ρ) (w : ω) :
    (∃ f' w', Ends settle f w () f' w' ∧ Settled f w f' w') ∨
      ∃ g v id w', Settling f w g v ∧ Stalls id g v w' ∧ Breaks settle f w .stalled w' := by
  rcases ends_or_breaks settle f w with ⟨⟨⟩, f', w', h⟩ | ⟨e, w', h⟩
  · left
    exact ⟨f', w', h, settled_of_ends h⟩
  · right
    rcases breaks_settleWithin (breaks_settle.1 h) with ⟨rfl, g, v, id, hset, hstalls⟩
    exact ⟨g, v, id, w', hset, hstalls, h⟩

/-- A coordinator hands out work and overhears that the result has come: the worker
answers a call with an empty result. -/
def overheard : FleetM Stage Player Unit := do
  let id ← insert (.new 0 ⟨none, false, [], [.bytes (List.replicate 40 0) false]⟩ false) "worker"
  markIdle id
  handWork id
  let _ ← waitForEvent false

/-- With nobody left working, a result that has come stays unread. -/
theorem pending_after_settle :
    ∃ u f w, Ends (do overheard; settle) Fleet.empty Stage.empty u f w ∧
      f.stateOf? 0 = some .pending := by
  decide +kernel

end FleetEstimate.Fleet
