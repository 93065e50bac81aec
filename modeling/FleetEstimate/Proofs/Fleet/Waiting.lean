import FleetEstimate.Fleet.Events
import FleetEstimate.Proofs.Fleet.Operations

/-!
# What a wait does

A wait has three parts: far ends act, a connection may join, and the sweep looks at every
link. `Acting`, `Joining` and `swept` say what each of them does. A wait never breaks
off, and with a closed door nobody joins.
-/

namespace FleetEstimate

namespace Fleet

variable {ω ρ : Type} [World ω ρ] {f f' : Fleet ρ} {w w' : ω} {id : MemberId} {e : FleetFault}

/-! ## Far ends act -/

/-- The fleet with another far end at a member's link. -/
def withRemote (f : Fleet ρ) (id : MemberId) (remote : ρ) : Fleet ρ :=
  f.modifyMember id fun m => { m with link.remote := remote }

@[simp] theorem get?_withRemote (f : Fleet ρ) (id : MemberId) (remote : ρ) (other : MemberId) :
    (f.withRemote id remote).get? other =
      if other = id then (f.get? other).map fun m => { m with link.remote := remote }
      else f.get? other :=
  f.get?_modifyMember id _ other

/-- What is reached when far ends of members act. -/
inductive Acting (f : Fleet ρ) (w : ω) : Fleet ρ → ω → Prop
  | none : Acting f w f w
  | more {g v id m} (sofar : Acting f w g v) (member : g.get? id = some m) :
      Acting f w (g.withRemote id (World.acting id m.link.remote v).1)
        (World.acting id m.link.remote v).2

theorem Acting.cons {m : Member ρ} {g : Fleet ρ} {v : ω} (member : f.get? id = some m)
    (rest : Acting (f.withRemote id (World.acting id m.link.remote w).1)
      (World.acting id m.link.remote w).2 g v) : Acting f w g v := by
  induction rest with
  | none => exact .more .none member
  | more _ member' ih => exact .more ih member'

theorem ends_act {ids : List MemberId} {u : Unit} (h : Ends (act ids) f w u f' w') :
    Acting f w f' w' := by
  induction ids generalizing f w with
  | nil =>
    rcases ends_pure.1 h with ⟨-, rfl, rfl⟩
    exact .none
  | cons id ids ih =>
    simp only [act, ends_getFleet_bind] at h
    cases hm : f.get? id with
    | none =>
      simp only [hm] at h
      exact ih h
    -- whoever is there acts first, then those behind it
    | some m =>
      simp only [hm, ends_getWorld_bind, ends_setWorld_bind, ends_modifyFleet_bind] at h
      exact (ih h).cons hm

theorem not_breaks_act {ids : List MemberId} : ¬ Breaks (act ids) f w e w' := by
  induction ids generalizing f w with
  | nil => exact not_breaks_pure
  | cons id ids ih =>
    simp only [act, breaks_getFleet_bind]
    intro h
    cases hm : f.get? id with
    | none =>
      simp only [hm] at h
      exact ih h
    | some m =>
      simp only [hm, breaks_getWorld_bind, breaks_setWorld_bind, breaks_modifyFleet_bind] at h
      exact ih h

/-! ## Somebody joins -/

/-- What somebody who asks to join is asked. -/
def askName : LinkM ω ρ String := do
  Link.sendTag .getName
  Link.recvText

/-- What a wait with an open or a closed door is offered. -/
def offered (quiet : Bool) (w : ω) : Option (Except LinkError ρ) × ω := World.offer quiet w

/-- How a wait lets somebody join, or nobody. -/
inductive Joining (f : Fleet ρ) (w : ω) : (accepting : Bool) → Fleet ρ → ω → Prop
  | shut : Joining f w false f w
  | nobody {quiet : Bool} {v : ω} (offer : offered (ρ := ρ) quiet w = (none, v)) : Joining f w true f v
  | failed {quiet : Bool} {e : LinkError} {v : ω}
      (offer : offered (ρ := ρ) quiet w = (some (.error e), v)) : Joining f w true f v
  | refused {quiet : Bool} {remote : ρ} {v v' : ω} {r : Except Halt String} {l : Link ρ}
      (offer : offered (ρ := ρ) quiet w = (some (.ok remote), v))
      (silent : Meets askName (.new remote) v r l v') :
      Joining f w true f (Remote.close l.remote v')
  | joined {quiet : Bool} {remote : ρ} {v v' : ω} {name : String} {l : Link ρ}
      (offer : offered (ρ := ρ) quiet w = (some (.ok remote), v))
      (named : Meets askName (.new remote) v (.ok name) l v') :
      Joining f w true (f.track l name) v'

/-- Whoever tells its name is taken up with it, and whoever does not is let go of. -/
theorem ends_greet {remote : ρ} {r : Option MemberId} (h : Ends (greet remote) f w r f' w') :
    ∃ y l v, Meets askName (.new remote) w y l v ∧
      ((∃ name, y = .ok name ∧ r = some f.members.next ∧ f' = f.track l name ∧ w' = v) ∨
        ∃ halt, y = .error halt ∧ r = none ∧ f' = f ∧ w' = Remote.close l.remote v) := by
  unfold greet at h
  change Ends (runLink askName (Link.new remote) >>= _) f w r f' w' at h
  simp only [ends_bind, ends_runLink] at h
  rcases h with ⟨⟨t, l⟩, _, v, ⟨rfl, y, hmeets, ht⟩, h⟩
  dsimp only at ht hmeets h
  refine ⟨y, l, v, hmeets, ?_⟩
  -- asked for its name, a newcomer fails, waits forever or answers
  rcases y with (e | _) | name <;> rw [ht] at h
  · simp only [told, ends_modifyWorld_bind, ends_pure] at h
    rcases h with ⟨rfl, rfl, rfl⟩
    exact .inr ⟨_, rfl, rfl, rfl, rfl⟩
  · simp only [told, ends_modifyWorld_bind, ends_pure] at h
    rcases h with ⟨rfl, rfl, rfl⟩
    exact .inr ⟨_, rfl, rfl, rfl, rfl⟩
  · simp only [told, ends_getFleet_bind, ends_setFleet_bind, ends_pure] at h
    rcases h with ⟨rfl, rfl, rfl⟩
    exact .inl ⟨name, rfl, rfl, rfl, rfl⟩

theorem not_breaks_greet {remote : ρ} : ¬ Breaks (greet remote) f w e w' := by
  simp only [greet, breaks_bind, not_breaks_runLink, false_or]
  intro h
  rcases h with ⟨⟨_ | _ | name, l⟩, g, v, -, h⟩
  · rw [breaks_modifyWorld_bind] at h
    exact not_breaks_pure h
  · rw [breaks_modifyWorld_bind] at h
    exact not_breaks_pure h
  · simp only [breaks_getFleet_bind, breaks_setFleet_bind] at h
    exact not_breaks_pure h

/-! ## The sweep -/

/-- All of some members leave. -/
theorem ends_forM_drop {β : Type} {k : β → MemberId} {xs : List β} {u : Unit}
    (h : Ends (xs.forM fun x => drop (ω := ω) (k x)) f w u f' w') (id : MemberId) :
    f'.get? id = if id ∈ xs.map k then none else f.get? id := by
  induction xs generalizing f w with
  | nil =>
    rcases ends_pure.1 h with ⟨-, rfl, -⟩
    simp
  | cons x xs ih =>
    change Ends (drop (k x) >>= fun _ => xs.forM fun x => drop (k x)) f w u f' w' at h
    rcases ends_bind.1 h with ⟨_, g, v, hdrop, hrest⟩
    rw [ih hrest]
    -- a member may be named twice, and then it is gone already
    have hg : g.get? id = if id = k x then none else f.get? id := by
      rcases ends_drop.1 hdrop with ⟨hm, rfl, -⟩ | ⟨m, -, rfl, -⟩
      · split
        · rename_i heq
          rw [heq, hm]
        · rfl
      · exact f.get?_without _ _
    rw [hg]
    by_cases hin : id ∈ xs.map k <;> by_cases hx : id = k x <;> simp [hx, hin]

/-- What no leaving changes is the same when all of them have left. -/
theorem eq_of_forM_drop {β γ : Type} {k : β → MemberId} {xs : List β} {u : Unit}
    (part : Fleet ρ → γ) (hpart : ∀ g i, part (g.without i) = part g)
    (h : Ends (xs.forM fun x => drop (ω := ω) (k x)) f w u f' w') : part f' = part f := by
  induction xs generalizing f w with
  | nil =>
    rcases ends_pure.1 h with ⟨-, rfl, -⟩
    rfl
  | cons x xs ih =>
    change Ends (drop (k x) >>= fun _ => xs.forM fun x => drop (k x)) f w u f' w' at h
    rcases ends_bind.1 h with ⟨_, g, v, hdrop, hrest⟩
    rw [ih hrest]
    rcases ends_drop.1 hdrop with ⟨-, rfl, -⟩ | ⟨m, -, rfl, -⟩
    · rfl
    · exact hpart f (k x)

theorem next_forM_drop {β : Type} {k : β → MemberId} {xs : List β} {u : Unit}
    (h : Ends (xs.forM fun x => drop (ω := ω) (k x)) f w u f' w') :
    f'.members.next = f.members.next :=
  eq_of_forM_drop (fun g => g.members.next) (fun _ _ => rfl) h

theorem not_breaks_forM_drop {β : Type} {k : β → MemberId} {xs : List β} :
    ¬ Breaks (xs.forM fun x => drop (ω := ω) (k x)) f w e w' := by
  induction xs generalizing f w with
  | nil => exact not_breaks_pure
  | cons x xs ih =>
    change ¬ Breaks (drop (k x) >>= fun _ => xs.forM fun x => drop (k x)) f w e w'
    rw [breaks_bind]
    intro h
    rcases h with h | ⟨_, g, v, -, h⟩
    · exact not_breaks_drop h
    · exact ih h

/-- What the sweep leaves of a member. -/
def swept (ω : Type) [World ω ρ] (m : Member ρ) : Option (Member ρ) :=
  if Member.isGone ω m then none else some (Member.looked ω m)

/-- The fleet `f'` is what the sweep leaves of `f`. -/
structure Swept (ω : Type) [World ω ρ] (f f' : Fleet ρ) : Prop where
  next : f'.members.next = f.members.next
  get? : ∀ id, f'.get? id = (f.get? id).bind (swept ω)

theorem ends_sweep {u : Unit} (h : Ends (sweep (ω := ω)) f w u f' w') : Swept ω f f' := by
  simp only [sweep, ends_getFleet_bind, ends_modifyFleet_bind] at h
  have hnext := next_forM_drop h
  refine ⟨hnext, fun id => ?_⟩
  rw [ends_forM_drop h id]
  -- first every link is looked at
  have hlooked : get? { f with members := f.members.mapEntries fun _ m => Member.looked ω m } id =
      (f.get? id).map (Member.looked ω) := f.members.get?_mapEntries _ id
  rw [hlooked]
  -- then whoever has turned out to be gone is dropped, by number
  have hgone : id ∈ (f.members.entries.filter fun p => Member.isGone ω p.2).map (·.1) ↔
      ∃ m, f.get? id = some m ∧ Member.isGone ω m = true := by
    simp only [List.mem_map, List.mem_filter, Fleet.get?, Roster.get?_eq_some_iff]
    constructor
    · intro h
      rcases h with ⟨⟨i, m⟩, ⟨hmem, hg⟩, rfl⟩
      exact ⟨m, hmem, hg⟩
    · intro h
      rcases h with ⟨m, hmem, hg⟩
      exact ⟨(id, m), ⟨hmem, hg⟩, rfl⟩
  cases hm : f.get? id with
  | none => simp
  | some m =>
    simp only [hgone, hm, Option.some.injEq, exists_eq_left', Option.map_some, Option.bind_some,
      swept]

theorem busyTimeUsed_sweep {u : Unit} (h : Ends (sweep (ω := ω)) f w u f' w') :
    f'.busyTimeUsed = f.busyTimeUsed := by
  simp only [sweep, ends_getFleet_bind, ends_modifyFleet_bind] at h
  have hsame := eq_of_forM_drop Fleet.busyTimeUsed (fun _ _ => rfl) h
  exact hsame

theorem not_breaks_sweep : ¬ Breaks (sweep (ω := ω)) f w e w' := by
  simp only [sweep, breaks_getFleet_bind, breaks_modifyFleet_bind]
  exact not_breaks_forM_drop

/-! ## A whole wait -/

/-- What ends a wait that nobody asks to join. -/
def ending (ω : Type) [World ω ρ] (f : Fleet ρ) : Event :=
  if f.isQuiet ω then .timeout else .readable

/-- How a wait comes to its event, and who has joined then: a far end and the name that it
told. Somebody who asks to join and does not tell its name ends the wait like a time that
has passed. -/
inductive Admission (f : Fleet ρ) (w : ω) :
    (accepting : Bool) → Event → Option (ρ × String) → Fleet ρ → ω → Prop
  | shut : Admission f w false (f.ending ω) none f w
  | nobody {v : ω} (offer : offered (ρ := ρ) (f.isQuiet ω) w = (none, v)) :
      Admission f w true (f.ending ω) none f v
  | failed {e : LinkError} {v : ω}
      (offer : offered (ρ := ρ) (f.isQuiet ω) w = (some (.error e), v)) :
      Admission f w true .timeout none f v
  | refused {remote : ρ} {v v' : ω} {halt : Halt} {l : Link ρ}
      (offer : offered (f.isQuiet ω) w = (some (.ok remote), v))
      (silent : Meets askName (.new remote) v (.error halt) l v') :
      Admission f w true .timeout none f (Remote.close l.remote v')
  | joined {remote : ρ} {v v' : ω} {name : String} {l : Link ρ}
      (offer : offered (f.isQuiet ω) w = (some (.ok remote), v))
      (named : Meets askName (.new remote) v (.ok name) l v') :
      Admission f w true (.connected f.members.next) (some (remote, name)) (f.track l name) v'

theorem Admission.joining {accepting : Bool} {ev : Event} {newcomer : Option (ρ × String)}
    (h : Admission f w accepting ev newcomer f' w') : Joining f w accepting f' w' := by
  cases h with
  | shut => exact .shut
  | nobody offer => exact .nobody offer
  | failed offer => exact .failed offer
  | refused offer silent => exact .refused offer silent
  | joined offer named => exact .joined offer named

theorem ending_ne_connected (f : Fleet ρ) (id : MemberId) : f.ending ω ≠ .connected id := by
  unfold ending
  split <;> exact Event.noConfusion

/-- If nobody joins, the fleet is as it was. -/
theorem Admission.of_none {accepting : Bool} {ev : Event}
    (h : Admission f w accepting ev none f' w') : f' = f ∧ ∀ id, ev ≠ .connected id := by
  cases h with
  | shut => exact ⟨rfl, f.ending_ne_connected⟩
  | nobody => exact ⟨rfl, f.ending_ne_connected⟩
  | failed => exact ⟨rfl, fun _ => Event.noConfusion⟩
  | refused => exact ⟨rfl, fun _ => Event.noConfusion⟩

/-- Whoever joins was offered and has told its name. -/
theorem Admission.of_some {accepting : Bool} {ev : Event} {x : ρ} {name : String}
    (h : Admission f w accepting ev (some (x, name)) f' w') :
    accepting = true ∧ ev = .connected f.members.next ∧
      ∃ l v, offered (f.isQuiet ω) w = (some (.ok x), v) ∧
        Meets askName (.new x) v (.ok name) l w' ∧ f' = f.track l name := by
  cases h with
  | joined offer named => exact ⟨rfl, rfl, _, _, offer, named, rfl⟩

theorem ends_afterSweep {ending ev : Event}
    (h : Ends (do let event ← pure ending; sweep; return event : FleetM ω ρ Event) f w ev f' w') :
    ev = ending ∧ Ends sweep f w () f' w' := by
  simp only [ends_bind, ends_pure] at h
  rcases h with ⟨_, _, _, ⟨rfl, rfl, rfl⟩, _, _, _, hsweep, rfl, rfl, rfl⟩
  exact ⟨rfl, hsweep⟩

/-- Far ends act, the wait comes to its event, and every link is looked at. -/
theorem ends_waitForEvent_admission {accepting : Bool} {ev : Event}
    (h : Ends (waitForEvent accepting) f w ev f' w') :
    ∃ g v newcomer g' v', Ends (act f.members.ids) f (World.waiting ρ accepting w) () g v ∧
      Admission g v accepting ev newcomer g' v' ∧ Ends sweep g' v' () f' w' := by
  simp only [waitForEvent, ends_modifyWorld_bind, ends_getFleet_bind] at h
  rcases ends_bind.1 h with ⟨⟨⟩, g, v, hact, hrest⟩
  rw [ends_getFleet_bind] at hrest
  refine ⟨g, v, ?_⟩
  cases accepting with
  | false =>
    rcases ends_afterSweep hrest with ⟨rfl, hsweep⟩
    exact ⟨none, g, v, hact, .shut, hsweep⟩
  | true =>
    simp only [if_true, ends_getWorld_bind] at hrest
    -- an open door: nobody comes, a connection fails, or somebody is greeted
    rcases hoffer : offered (ρ := ρ) (isQuiet ω g) v with ⟨_ | _ | remote, v₁⟩
    all_goals
      have hoffer' : World.offer (isQuiet ω g) v = _ := hoffer
      rw [hoffer'] at hrest
      simp only [ends_setWorld_bind] at hrest
    · rcases ends_afterSweep hrest with ⟨rfl, hsweep⟩
      exact ⟨none, g, v₁, hact, .nobody hoffer, hsweep⟩
    · rcases ends_afterSweep hrest with ⟨rfl, hsweep⟩
      exact ⟨none, g, v₁, hact, .failed hoffer, hsweep⟩
    · rcases ends_bind.1 hrest with ⟨r, g', v', hgreet, hafter⟩
      rcases ends_greet hgreet with
        ⟨y, l, u, hmeets, ⟨name, rfl, rfl, rfl, rfl⟩ | ⟨halt, rfl, rfl, rfl, rfl⟩⟩
      · rcases ends_afterSweep hafter with ⟨rfl, hsweep⟩
        exact ⟨some (remote, name), _, _, hact, .joined hoffer hmeets, hsweep⟩
      · rcases ends_afterSweep hafter with ⟨rfl, hsweep⟩
        exact ⟨none, _, _, hact, .refused hoffer hmeets, hsweep⟩

/-- Far ends act, somebody may join, and every link is looked at. -/
theorem ends_waitForEvent_parts {accepting : Bool} {ev : Event}
    (h : Ends (waitForEvent accepting) f w ev f' w') :
    ∃ g v g' v', Acting f (World.waiting ρ accepting w) g v ∧ Joining g v accepting g' v' ∧
      Ends sweep g' v' () f' w' := by
  rcases ends_waitForEvent_admission h with ⟨g, v, _, g', v', hact, hadmission, hsweep⟩
  exact ⟨g, v, g', v', ends_act hact, hadmission.joining, hsweep⟩

/-- Far ends act, somebody may join, and what is left is looked at. -/
theorem ends_waitForEvent {accepting : Bool} {ev : Event}
    (h : Ends (waitForEvent accepting) f w ev f' w') :
    ∃ g v g' v', Acting f (World.waiting ρ accepting w) g v ∧ Joining g v accepting g' v' ∧
      Swept ω g' f' := by
  rcases ends_waitForEvent_parts h with ⟨g, v, g', v', hact, hjoin, hsweep⟩
  exact ⟨g, v, g', v', hact, hjoin, ends_sweep hsweep⟩

theorem not_breaks_waitForEvent {accepting : Bool} :
    ¬ Breaks (waitForEvent accepting) f w e w' := by
  intro h
  simp only [waitForEvent, breaks_modifyWorld_bind, breaks_getFleet_bind] at h
  rcases breaks_bind.1 h with hact | ⟨_, g, v, -, hrest⟩
  · exact not_breaks_act hact
  rw [breaks_getFleet_bind] at hrest
  -- however the wait has ended, a sweep is all that follows
  have hending : ∀ {ending : Event} {f₀ : Fleet ρ} {w₀ : ω}, ¬ Breaks
      (do let event ← pure ending; sweep; return event : FleetM ω ρ Event) f₀ w₀ e w' := by
    intro ending f₀ w₀
    simp only [breaks_bind, not_breaks_pure, not_breaks_sweep, and_false, exists_false, or_self,
      not_false_eq_true]
  cases accepting with
  | false => exact hending hrest
  | true =>
    simp only [if_true, breaks_getWorld_bind] at hrest
    generalize (World.offer _ _ : Option (Except LinkError ρ) × ω) = offer at hrest
    rcases offer with ⟨_ | _ | remote, v₁⟩
    all_goals simp only [breaks_setWorld_bind] at hrest
    · exact hending hrest
    · exact hending hrest
    · rcases breaks_bind.1 hrest with hgreet | ⟨r, g', v', -, hafter⟩
      · exact not_breaks_greet hgreet
      · cases r <;> exact hending hafter

/-! ## States after a wait -/

theorem stateOf?_withRemote (f : Fleet ρ) (id : MemberId) (x : ρ) (other : MemberId) :
    (f.withRemote id x).stateOf? other = f.stateOf? other := by
  rw [Fleet.stateOf?, Fleet.stateOf?, get?_withRemote]
  split
  · rw [Option.map_map]
    rfl
  · rfl

theorem Acting.stateOf? {g : Fleet ρ} {v : ω} (h : Acting f w g v) (id : MemberId) :
    g.stateOf? id = f.stateOf? id := by
  induction h with
  | none => rfl
  | more _ _ ih => rw [stateOf?_withRemote, ih]

/-- The sweep leaves a member where it is, or marks it. -/
theorem swept_eq_some {m m' : Member ρ} (h : swept ω m = some m') :
    Member.isGone ω m = false ∧ m' = Member.looked ω m ∧
      (m'.state = m.state ∨ m'.state = .pending) := by
  unfold swept at h
  split at h
  · cases h
  · rename_i hgone
    cases h
    refine ⟨by simpa using hgone, rfl, ?_⟩
    -- a look may change the state, depending on what is unread
    have hstate : (Member.looked ω m).state =
        if (m.link.readiness ω).1 = .unread then .pending else m.state := rfl
    rw [hstate]
    split
    · exact .inr rfl
    · exact .inl rfl

/-- Behind a closed door nobody joins, and a member that is still there is where it was or
is marked. -/
theorem stateOf?_waitForEvent {ev : Event} {s : MemberState}
    (h : Ends (waitForEvent false) f w ev f' w') (hs : f'.stateOf? id = some s) :
    f.stateOf? id = some s ∨ s = .pending ∧ ∃ s', f.stateOf? id = some s' := by
  rcases ends_waitForEvent h with ⟨g, v, g', v', hact, hjoin, hswept⟩
  -- the door is shut, so the sweep finds whom the acting far ends have left
  cases hjoin
  rcases stateOf?_eq_some_iff.1 hs with ⟨m', hm', rfl⟩
  rw [hswept.get?, Option.bind_eq_some_iff] at hm'
  rcases hm' with ⟨m, hm, hsw⟩
  have hbefore : f.stateOf? id = some m.state := by
    rw [← hact.stateOf?, stateOf?_eq_some_iff]
    exact ⟨m, hm, rfl⟩
  rcases swept_eq_some hsw with ⟨-, -, hsame | hpending⟩
  · exact .inl (hsame ▸ hbefore)
  · exact .inr ⟨hpending, m.state, hbefore⟩

end Fleet

end FleetEstimate
