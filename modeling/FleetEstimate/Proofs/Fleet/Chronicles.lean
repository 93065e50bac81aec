import FleetEstimate.Coordinator
import FleetEstimate.Proofs.Fleet.Waiting
import FleetEstimate.Proofs.Wire.Talks

/-!
# Chronicles of a fleet

All that happens to a fleet happens by its operations. A chronicle goes through one
operation after the other and notes who has joined, what members have told of the time
they spent sampling, and when the sum of it was set back. Between two operations the
outside world may do what it likes. A settlement and a whole run are chronicles too.
-/

namespace FleetEstimate.Fleet

/-! ## Operations -/

/-- What a chronicle notes. -/
inductive Entry (ρ : Type)
  /-- The connection to a far end was taken up under a number and a name. -/
  | joined (id : MemberId) (remote : ρ) (name : String)
  /-- A member has told the time that it spent sampling since it was last asked. -/
  | told (id : MemberId) (used : Real64)
  /-- The sum of the times that members have told was set back. -/
  | cleared

variable {ω ρ α β : Type} [World ω ρ] {f f' g : Fleet ρ} {w w' v : ω} {es es' : List (Entry ρ)}

/-- The far end that joins in a wait with an open door, and the name that it tells. -/
def Newcomer (f : Fleet ρ) (w : ω) (x : ρ) (name : String) : Prop :=
  ∃ g v u l u', Ends (act f.members.ids) f (World.waiting ρ true w) () g v ∧
    offered (g.isQuiet ω) v = (some (.ok x), u) ∧ Meets askName (.new x) u (.ok name) l u'

/-- An operation on a fleet has ended, and this is noted of it. -/
inductive Operation (f : Fleet ρ) (w : ω) : List (Entry ρ) → Fleet ρ → ω → Prop
  | inserted {x : ρ} {name : String} {id : MemberId} {f' : Fleet ρ} {w' : ω}
      (h : Ends (insert x name) f w id f' w') : Operation f w [.joined id x name] f' w'
  | connected {x : ρ} {name : String} {id : MemberId} {f' : Fleet ρ} {w' : ω}
      (newcomer : Newcomer f w x name) (h : Ends (waitForEvent true) f w (.connected id) f' w') :
      Operation f w [.joined id x name] f' w'
  | waited {accepting : Bool} {ev : Event} {f' : Fleet ρ} {w' : ω}
      (nobody : ∀ id, ev ≠ .connected id) (h : Ends (waitForEvent accepting) f w ev f' w') :
      Operation f w [] f' w'
  /-- Whoever has the link of a member reads and writes over it. -/
  | exchanged {α : Type} {id : MemberId} {act : LinkM ω ρ α} {y : Option (Except LinkError α)}
      {f' : Fleet ρ} {w' : ω} (talks : Talks act) (h : Ends (exchange id act) f w y f' w') :
      Operation f w [] f' w'
  | markedIdle {id : MemberId} {f' : Fleet ρ} {w' : ω} (h : Ends (markIdle id) f w () f' w') :
      Operation f w [] f' w'
  | markedWorking {id : MemberId} {f' : Fleet ρ} {w' : ω}
      (h : Ends (markWorking id) f w () f' w') : Operation f w [] f' w'
  | reset {id : MemberId} {f' : Fleet ρ} {w' : ω} (h : Ends (Fleet.reset id) f w () f' w') :
      Operation f w [] f' w'
  | resetAll {f' : Fleet ρ} {w' : ω} (h : Ends Fleet.resetAll f w () f' w') :
      Operation f w [] f' w'
  | dropped {id : MemberId} {f' : Fleet ρ} {w' : ω} (h : Ends (drop id) f w () f' w') :
      Operation f w [] f' w'
  | told {id : MemberId} {used : Real64} {f' : Fleet ρ} {w' : ω}
      (h : Ends (updateBusyTime id) f w (.ok used) f' w') : Operation f w [.told id used] f' w'
  | notTold {id : MemberId} {e : LinkError} {f' : Fleet ρ} {w' : ω}
      (h : Ends (updateBusyTime id) f w (.error e) f' w') : Operation f w [] f' w'
  | cleared {f' : Fleet ρ} {w' : ω} (h : Ends resetBusyTime f w () f' w') :
      Operation f w [.cleared] f' w'
  | shutDown {f' : Fleet ρ} {w' : ω} (h : Ends shutdown f w () f' w') : Operation f w [] f' w'
  /-- The outside world goes on. -/
  | elsewhere (v : ω) : Operation f w [] f v

/-- One operation after the other, with all that is noted. -/
inductive Chronicle (f : Fleet ρ) (w : ω) : List (Entry ρ) → Fleet ρ → ω → Prop
  | start : Chronicle f w [] f w
  | next {es es' : List (Entry ρ)} {g g' : Fleet ρ} {v v' : ω} (sofar : Chronicle f w es g v)
      (operation : Operation g v es' g' v') : Chronicle f w (es ++ es') g' v'

theorem Operation.chronicle (h : Operation f w es f' w') : Chronicle f w es f' w' :=
  .next .start h

theorem Chronicle.append (h : Chronicle f w es g v) (h' : Chronicle g v es' f' w') :
    Chronicle f w (es ++ es') f' w' := by
  induction h' with
  | start => simpa using h
  | next _ operation ih =>
    rw [← List.append_assoc]
    exact .next ih operation

/-! ## What is made of operations -/

/-- Whenever this ends, it was one operation after the other. -/
def Chronicled (act : FleetM ω ρ α) : Prop :=
  ∀ ⦃f w a f' w'⦄, Ends act f w a f' w' → ∃ es, Chronicle f w es f' w'

theorem Chronicled.follows {act : FleetM ω ρ α} {a : α} (hact : Chronicled act)
    (h : Chronicle f w es g v) (hends : Ends act g v a f' w') :
    ∃ es', Chronicle f w (es ++ es') f' w' := by
  rcases hact hends with ⟨es', hes'⟩
  exact ⟨es', h.append hes'⟩

theorem chronicled_pure (a : α) : Chronicled (pure a : FleetM ω ρ α) := by
  intro f w b f' w' h
  rcases ends_pure.1 h with ⟨-, rfl, rfl⟩
  exact ⟨[], .start⟩

theorem chronicled_throw (e : FleetFault) : Chronicled (throw e : FleetM ω ρ α) := by
  intro f w b f' w' h
  exact absurd h not_ends_throw

theorem Chronicled.bind {act : FleetM ω ρ α} {next : α → FleetM ω ρ β} (hact : Chronicled act)
    (hnext : ∀ a, Chronicled (next a)) : Chronicled (act >>= next) := by
  intro f w b f' w' h
  rcases ends_bind.1 h with ⟨a, g, v, hfirst, hrest⟩
  rcases hact hfirst with ⟨es, hes⟩
  rcases hnext a hrest with ⟨es', hes'⟩
  exact ⟨es ++ es', hes.append hes'⟩

theorem chronicled_getFleet : Chronicled (getThe (Fleet ρ) : FleetM ω ρ (Fleet ρ)) := by
  intro f w b f' w' h
  rcases (ends_iff_of_run rfl).1 h with ⟨-, rfl, rfl⟩
  exact ⟨[], .start⟩

theorem chronicled_getWorld : Chronicled (getThe ω : FleetM ω ρ ω) := by
  intro f w b f' w' h
  rcases (ends_iff_of_run rfl).1 h with ⟨-, rfl, rfl⟩
  exact ⟨[], .start⟩

theorem chronicled_modifyWorld (change : ω → ω) :
    Chronicled (modifyThe ω change : FleetM ω ρ PUnit) := by
  intro f w b f' w' h
  rcases ends_modifyWorld.1 h with ⟨rfl, rfl⟩
  exact ⟨[], (Operation.elsewhere _).chronicle⟩

/-! ## Operations one by one -/

theorem newcomer_of_connected {accepting : Bool} {id : MemberId}
    (h : Ends (waitForEvent accepting) f w (.connected id) f' w') :
    accepting = true ∧ ∃ x name, Newcomer f w x name := by
  rcases ends_waitForEvent_admission h with
    ⟨g, v, _ | ⟨x, name⟩, g', v', hact, hadmission, -⟩
  · exact absurd rfl (hadmission.of_none.2 id)
  · rcases hadmission.of_some with ⟨rfl, -, l, u, hoffer, hnamed, -⟩
    exact ⟨rfl, x, name, g, v, u, l, v', hact, hoffer, hnamed⟩

theorem chronicled_waitForEvent (accepting : Bool) :
    Chronicled (waitForEvent accepting : FleetM ω ρ Event) := by
  intro f w ev f' w' h
  by_cases hev : ∃ id, ev = .connected id
  · rcases hev with ⟨id, rfl⟩
    rcases newcomer_of_connected h with ⟨rfl, x, name, hnew⟩
    exact ⟨_, (Operation.connected hnew h).chronicle⟩
  · exact ⟨_, (Operation.waited (not_exists.mp hev) h).chronicle⟩

theorem chronicled_exchange {act : LinkM ω ρ α} (talks : Talks act) (id : MemberId) :
    Chronicled (exchange id act) :=
  fun _ _ _ _ _ h => ⟨_, (Operation.exchanged talks h).chronicle⟩

theorem chronicled_markIdle (id : MemberId) : Chronicled (markIdle id : FleetM ω ρ Unit) :=
  fun _ _ _ _ _ h => ⟨_, (Operation.markedIdle h).chronicle⟩

theorem chronicled_markWorking (id : MemberId) : Chronicled (markWorking id : FleetM ω ρ Unit) :=
  fun _ _ _ _ _ h => ⟨_, (Operation.markedWorking h).chronicle⟩

theorem chronicled_reset (id : MemberId) : Chronicled (reset id : FleetM ω ρ Unit) :=
  fun _ _ _ _ _ h => ⟨_, (Operation.reset h).chronicle⟩

theorem chronicled_drop (id : MemberId) : Chronicled (drop id : FleetM ω ρ Unit) :=
  fun _ _ _ _ _ h => ⟨_, (Operation.dropped h).chronicle⟩

theorem chronicled_updateBusyTime (id : MemberId) :
    Chronicled (updateBusyTime id : FleetM ω ρ (Except LinkError Real64)) := by
  intro f w y f' w' h
  cases y with
  | ok used => exact ⟨_, (Operation.told h).chronicle⟩
  | error e => exact ⟨_, (Operation.notTold h).chronicle⟩

/-! ## Settlements and runs -/

theorem chronicled_handleAll {s : MemberState} {handle : MemberId → β → FleetM ω ρ β}
    (hhandle : ∀ id b, Chronicled (handle id b)) (b : β) : Chronicled (handleAll s handle b) := by
  refine chronicled_getFleet.bind fun f => ?_
  -- how many there are is fixed, but each is found in the fleet as it then is
  generalize f.count s = times
  induction times generalizing b with
  | zero => exact chronicled_pure b
  | succ times ih =>
    refine chronicled_getFleet.bind fun g => ?_
    cases g.find? s with
    | none => exact chronicled_pure b
    | some id => exact (hhandle id b).bind ih

theorem chronicled_forM_drop (ids : List MemberId) :
    Chronicled (ids.forM fun id => drop id : FleetM ω ρ Unit) := by
  induction ids with
  | nil => exact chronicled_pure _
  | cons id ids ih => exact (chronicled_drop id).bind fun _ => ih

theorem chronicled_dropWorking : Chronicled (dropWorking : FleetM ω ρ Unit) :=
  chronicled_getFleet.bind fun _ => chronicled_forM_drop _

theorem chronicled_discardResult (id : MemberId) :
    Chronicled (discardResult id : FleetM ω ρ Unit) := by
  refine (chronicled_exchange WorkResult.receives_recv.talks id).bind fun r => ?_
  rcases r with _ | e | r
  · exact chronicled_pure ()
  · exact chronicled_drop id
  · refine (chronicled_updateBusyTime id).bind fun y => ?_
    cases y with
    | ok used => exact chronicled_markIdle id
    | error e => exact chronicled_drop id

theorem chronicled_settleWithin (waits : ℕ) :
    Chronicled (settleWithin waits : FleetM ω ρ Unit) := by
  -- a round of waiting and discarding is a chronicle, and so are many
  induction waits with
  | zero =>
    refine chronicled_getFleet.bind fun f => ?_
    split
    · exact chronicled_dropWorking
    · exact chronicled_pure ()
  | succ waits ih =>
    refine chronicled_getFleet.bind fun f => ?_
    split
    · refine chronicled_getWorld.bind fun w => ?_
      split
      · exact chronicled_dropWorking
      · refine (chronicled_waitForEvent false).bind fun _ => ?_
        refine (chronicled_handleAll (fun id _ => chronicled_discardResult id) ()).bind fun _ => ?_
        exact ih
    · exact chronicled_pure ()

theorem chronicled_settle : Chronicled (settle : FleetM ω ρ Unit) :=
  chronicled_getWorld.bind fun _ => chronicled_settleWithin _

theorem talks_assignment (a : Assignment) : Talks (a.send : LinkM ω ρ Unit) := by
  refine (Link.talks_call _).bind fun _ => ?_
  refine (Link.talks_sendText _).bind fun _ => ?_
  exact (Link.talks_call _).bind fun _ => Link.talks_sendReal _

theorem chronicled_assign (a : Assignment) (id : MemberId) :
    Chronicled (assign a id : FleetM ω ρ Unit) := by
  refine (chronicled_exchange (talks_assignment a) id).bind fun r => ?_
  rcases r with _ | e | _
  · exact chronicled_pure ()
  · exact chronicled_drop id
  · exact chronicled_markIdle id

theorem chronicled_handWork (id : MemberId) : Chronicled (handWork id : FleetM ω ρ Unit) := by
  refine (chronicled_exchange (Link.talks_call _) id).bind fun r => ?_
  rcases r with _ | e | _
  · exact chronicled_pure ()
  · exact chronicled_drop id
  · exact chronicled_markWorking id

theorem chronicled_readResult (a : Assignment) (id : MemberId) (sofar : Bool × Totals Real64) :
    Chronicled (readResult a id sofar : FleetM ω ρ (Bool × Totals Real64)) := by
  refine (chronicled_exchange WorkResult.receives_recv.talks id).bind fun r => ?_
  -- by what the exchange tells: nobody there, a link that failed, or a reply
  rcases r with _ | e | r
  · exact chronicled_pure sofar
  · exact (chronicled_drop id).bind fun _ => chronicled_pure sofar
  · dsimp only
    rcases accept a sofar.2 r with fault | _ | totals
    · exact chronicled_throw _
    · exact (chronicled_reset id).bind fun _ => chronicled_pure sofar
    · refine (chronicled_updateBusyTime id).bind fun y => ?_
      cases y with
      | ok used => exact (chronicled_markIdle id).bind fun _ => chronicled_pure _
      | error e => exact (chronicled_drop id).bind fun _ => chronicled_pure _

variable {E : Type}

theorem chronicled_pass (a : Assignment) (s : Estimator E) :
    Chronicled (s.pass a : FleetM ω ρ (Estimator E)) := by
  refine (chronicled_handleAll (fun id _ => chronicled_assign a id) ()).bind fun _ => ?_
  refine (chronicled_handleAll (fun id _ => chronicled_handWork id) ()).bind fun _ => ?_
  refine (chronicled_waitForEvent true).bind fun _ => ?_
  refine (chronicled_handleAll (chronicled_readResult a) _).bind fun y => ?_
  rcases y with ⟨added, totals⟩
  dsimp only
  split
  · refine chronicled_getFleet.bind fun f => ?_
    refine chronicled_getWorld.bind fun w => ?_
    exact (chronicled_modifyWorld _).bind fun _ => chronicled_pure _
  · exact chronicled_pure _

theorem chronicled_passUntilDone (a : Assignment) (counts : ℕ) (s : Estimator E) :
    Chronicled (s.passUntilDone a counts : FleetM ω ρ (Estimate Real64 × Estimator E)) := by
  induction counts generalizing s with
  | zero => exact chronicled_throw _
  | succ counts ih =>
    refine (chronicled_pass a s).bind fun s' => ?_
    refine chronicled_getWorld.bind fun w => ?_
    split
    · exact chronicled_pure _
    · exact ih s'

/-- A run that ends was one operation after the other. -/
theorem chronicled_run [Experiment E] (s : Estimator E) :
    Chronicled (s.estimateDistributed :
      FleetM ω ρ (Except EstimationError (Estimate Real64 × Estimator E))) := by
  unfold Estimator.estimateDistributed
  cases s.start with
  | error e => exact chronicled_pure _
  | ok s' =>
    -- making everybody fresh and clearing the busy time are operations of their own
    have hreset : Chronicled (resetAll : FleetM ω ρ Unit) :=
      fun _ _ _ _ _ h => ⟨_, (Operation.resetAll h).chronicle⟩
    have hclear : Chronicled (resetBusyTime : FleetM ω ρ Unit) :=
      fun _ _ _ _ _ h => ⟨_, (Operation.cleared h).chronicle⟩
    refine chronicled_settle.bind fun _ => hreset.bind fun _ => hclear.bind fun _ => ?_
    exact (chronicled_passUntilDone _ _ s').bind fun _ => chronicled_pure _

end FleetEstimate.Fleet
