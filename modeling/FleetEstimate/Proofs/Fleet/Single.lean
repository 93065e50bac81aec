import FleetEstimate.Proofs.Fleet.Handling
import FleetEstimate.Proofs.Fleet.Tasks
import FleetEstimate.Proofs.Fleet.Waiting

/-!
# Fleets with one member or none

With one member or none, all that a fleet does can be told step by step: who is handled, who
acts in a wait, and what the sweep finds.
-/

namespace FleetEstimate.Fleet

variable {ω ρ : Type} {f f' : Fleet ρ} {w w' : ω} {id : MemberId} {m : Member ρ} {s : MemberState}

/-- The only member of a fleet is `m`. -/
def Sole (f : Fleet ρ) (id : MemberId) (m : Member ρ) : Prop := f.members.entries = [(id, m)]

theorem Sole.get? (h : f.Sole id m) : f.get? id = some m := by
  simp [Fleet.get?, Roster.get?, show f.members.entries = _ from h]

theorem Sole.find? (h : f.Sole id m) (hs : m.state = s) : f.find? s = some id := by
  simp [Fleet.find?, show f.members.entries = _ from h, hs]

theorem Sole.find?_eq_none (h : f.Sole id m) (hs : m.state ≠ s) : f.find? s = none := by
  simp [Fleet.find?, show f.members.entries = _ from h, hs]

theorem Sole.modifyMember (h : f.Sole id m) (g : Member ρ → Member ρ) :
    (f.modifyMember id g).Sole id (g m) := by
  simp [Sole, Fleet.modifyMember, Roster.modify, Roster.mapEntries,
    show f.members.entries = _ from h]

theorem find?_of_nobody (h : f.members.entries = []) : f.find? s = none := by
  simp [Fleet.find?, h]

theorem sole_track (h : f.members.entries = []) (l : Link ρ) (name : String) :
    (f.track l name).Sole f.members.next ⟨l, .fresh, name, 0⟩ := by
  simp [Sole, track, Roster.add, h]

/-! ## Going through a state -/

section Handling

variable {β : Type} {handle : MemberId → β → FleetM ω ρ β} {b b' : β}

theorem ends_handleWithin_of_none (n : ℕ) (h : f.find? s = none) :
    Ends (handleWithin s handle n b) f w b f w := by
  cases n with
  | zero => exact ends_pure.2 ⟨rfl, rfl, rfl⟩
  | succ n =>
    simp only [handleWithin, ends_getFleet_bind, h]
    exact ends_pure.2 ⟨rfl, rfl, rfl⟩

/-- Nobody is handled in a state that nobody is in. -/
theorem ends_handleAll_of_none (h : f.find? s = none) :
    Ends (handleAll s handle b) f w b f w := by
  simp only [handleAll, ends_getFleet_bind]
  exact ends_handleWithin_of_none _ h

/-- One member is handled if that leaves nobody in the state. -/
theorem ends_handleAll_of_one (hfirst : f.find? s = some id)
    (hstep : Ends (handle id b) f w b' f' w') (hlast : f'.find? s = none) :
    Ends (handleAll s handle b) f w b' f' w' := by
  have hpos : 0 < f.count s := List.length_pos_of_mem (mem_idsIn.2 (stateOf?_of_find? hfirst))
  obtain ⟨n, hn⟩ : ∃ n, f.count s = n + 1 := ⟨f.count s - 1, by omega⟩
  simp only [handleAll, ends_getFleet_bind]
  rw [hn, handleWithin]
  simp only [ends_getFleet_bind, hfirst]
  exact (ends_bind_of_ends hstep).2 (ends_handleWithin_of_none n hlast)

end Handling

/-! ## Telling and concluding -/

variable [World ω ρ]

/-- A member that is told something moves on. -/
theorem Sole.ends_tell (h : f.Sole id m) {act : LinkM ω ρ Unit} {target : MemberState}
    {sources : List MemberState} {l : Link ρ} (hm : Meets act m.link w (.ok ()) l w')
    (hs : m.state ∈ sources) :
    ∃ f', Ends (tell act target sources id) f w () f' w' ∧
      f'.Sole id { m with link := l, state := target } := by
  refine ⟨_, Fleet.ends_tell.2 (.inr ⟨m, l, w', h.get?, .inl ⟨hm, hs, rfl, rfl⟩⟩), ?_⟩
  exact (h.modifyMember _).modifyMember _

/-- A member that has delivered and tells its busy time is ready again. -/
theorem Sole.ends_conclude (h : f.Sole id m) {l : Link ρ} {used : Real64}
    (hm : Meets askBusyTime m.link w (.ok used) l w') (hs : m.state = .pending) :
    ∃ f', Ends (conclude id) f w () f' w' ∧
      f'.Sole id { m with link := l, state := .idle, busyTime := m.busyTime + used } := by
  have hsource : m.state ∈ [MemberState.fresh, .pending] := by
    rw [hs]
    decide
  refine ⟨_, Fleet.ends_conclude.2
    (.inr ⟨m, l, w', h.get?, .inl ⟨used, hm, hsource, rfl, rfl⟩⟩), ?_⟩
  have hbusy : ((f.withLink id l).addBusyTime id used).Sole id
      { m with link := l, busyTime := m.busyTime + used } :=
    (h.modifyMember _).modifyMember fun m => { m with busyTime := m.busyTime + used }
  exact hbusy.modifyMember _

/-! ## Settling -/

theorem Sole.anyWorking_eq_false (h : f.Sole id m) (hs : m.state ≠ .working) :
    f.anyWorking = false := by
  rw [anyWorking, h.find?_eq_none hs]
  rfl

omit [World ω ρ] in
theorem Sole.ends_resetAll (h : f.Sole id m) :
    ∃ f', Ends (resetAll (ω := ω)) f w ⟨⟩ f' w ∧ f'.Sole id { m with state := .fresh } := by
  refine ⟨{ f with members := f.members.mapEntries fun _ m => { m with state := .fresh } },
    ends_modifyFleet.2 ⟨rfl, rfl⟩, ?_⟩
  simp [Sole, Roster.mapEntries, show f.members.entries = _ from h]

/-- Nothing has to be settled while nobody is working. -/
theorem ends_settle_of_none (h : f.anyWorking = false) : Ends settle f w () f w := by
  simp only [settle, ends_getWorld_bind]
  cases World.patience ρ w with
  | zero =>
    simp only [settleWithin, ends_getFleet_bind, h]
    exact ends_pure.2 ⟨rfl, rfl, rfl⟩
  | succ n =>
    simp only [settleWithin, ends_getFleet_bind, h]
    exact ends_pure.2 ⟨rfl, rfl, rfl⟩

/-! ## Waiting -/

theorem Sole.ends_act (h : f.Sole id m) :
    ∃ f', Ends (act f.members.ids) f w () f' (World.acting id m.link.remote w).2 ∧
      f'.Sole id { m with link.remote := (World.acting id m.link.remote w).1 } := by
  have hids : f.members.ids = [id] := by
    simp [Roster.ids, show f.members.entries = _ from h]
  refine ⟨_, ?_, h.modifyMember fun m' => { m' with
    link.remote := (World.acting id m.link.remote w).1 }⟩
  rw [hids]
  simp only [act, ends_getFleet_bind, h.get?, ends_getWorld_bind, ends_setWorld_bind,
    ends_modifyFleet_bind]
  exact ends_pure.2 ⟨rfl, rfl, rfl⟩

theorem ends_act_of_nobody (h : f.members.entries = []) : Ends (act f.members.ids) f w () f w := by
  have hids : f.members.ids = [] := by simp [Roster.ids, h]
  rw [hids]
  exact ends_pure.2 ⟨rfl, rfl, rfl⟩

/-- A member that is not gone is looked at. -/
theorem Sole.ends_sweep (h : f.Sole id m) (hpresent : Member.isGone ω m = false) :
    ∃ f', Ends sweep f w () f' w ∧ f'.Sole id (Member.looked ω m) := by
  refine ⟨{ f with members := f.members.mapEntries fun _ m => Member.looked ω m }, ?_, ?_⟩
  · simp only [sweep, ends_getFleet_bind, ends_modifyFleet_bind,
      show f.members.entries = _ from h, List.filter_cons, hpresent]
    exact ends_pure.2 ⟨rfl, rfl, rfl⟩
  · simp [Sole, Roster.mapEntries, show f.members.entries = _ from h]

theorem ends_sweep_of_nobody (h : f.members.entries = []) :
    ∃ f', Ends sweep f w () f' w ∧ f'.members.entries = [] := by
  refine ⟨{ f with members := f.members.mapEntries fun _ m => Member.looked ω m }, ?_, ?_⟩
  · simp only [sweep, ends_getFleet_bind, ends_modifyFleet_bind, h]
    exact ends_pure.2 ⟨rfl, rfl, rfl⟩
  · simp [Roster.mapEntries, h]

/-- A wait in which nobody asks to join. -/
theorem ends_waitForEvent_of_none {g : Fleet ρ} {v v' : ω}
    (hact : Ends (act f.members.ids) f (World.waiting ρ true w) () g v)
    (hoffer : ∀ quiet, offered (ρ := ρ) quiet v = (none, v')) (hsweep : Ends sweep g v' () f' w') :
    ∃ ev, Ends (waitForEvent true) f w ev f' w' := by
  have hnone : World.offer (isQuiet ω g) v = (none, v') := hoffer _
  refine ⟨if isQuiet ω g then .timeout else .readable, ?_⟩
  simp only [waitForEvent, ends_modifyWorld_bind, ends_getFleet_bind, ends_bind_of_ends hact,
    if_true, ends_getWorld_bind, hnone, ends_setWorld_bind]
  refine ends_bind.2 ⟨_, g, v', ends_pure.2 ⟨rfl, rfl, rfl⟩, ?_⟩
  exact (ends_bind_of_ends hsweep).2 (ends_pure.2 ⟨rfl, rfl, rfl⟩)

theorem ends_greet_of_named {remote : ρ} {name : String} {l : Link ρ}
    (hnamed : Meets askName (.new remote) w (.ok name) l w') :
    Ends (greet remote) f w (some f.members.next) (f.track l name) w' := by
  have hrun : Ends (runLink askName (Link.new remote)) f w (some (.ok name), l) f w' :=
    ends_runLink.2 ⟨rfl, _, hnamed, rfl⟩
  refine (ends_bind_of_ends hrun).2 ?_
  simp only [ends_getFleet_bind, ends_setFleet_bind]
  exact ends_pure.2 ⟨rfl, rfl, rfl⟩

/-- A wait in which somebody joins. -/
theorem ends_waitForEvent_of_joined {g : Fleet ρ} {v v₁ v₂ : ω} {remote : ρ} {name : String}
    {l : Link ρ} (hact : Ends (act f.members.ids) f (World.waiting ρ true w) () g v)
    (hoffer : ∀ quiet, offered quiet v = (some (.ok remote), v₁))
    (hnamed : Meets askName (.new remote) v₁ (.ok name) l v₂)
    (hsweep : Ends sweep (g.track l name) v₂ () f' w') :
    ∃ ev, Ends (waitForEvent true) f w ev f' w' := by
  -- whether it is quiet does not matter, the offer is the same
  have hsome : World.offer (isQuiet ω g) v = (some (.ok remote), v₁) := hoffer _
  refine ⟨.connected g.members.next, ?_⟩
  simp only [waitForEvent, ends_modifyWorld_bind, ends_getFleet_bind, ends_bind_of_ends hact,
    if_true, ends_getWorld_bind, hsome, ends_setWorld_bind,
    ends_bind_of_ends (ends_greet_of_named hnamed)]
  refine ends_bind.2 ⟨_, _, v₂, ends_pure.2 ⟨rfl, rfl, rfl⟩, ?_⟩
  exact (ends_bind_of_ends hsweep).2 (ends_pure.2 ⟨rfl, rfl, rfl⟩)

end FleetEstimate.Fleet
