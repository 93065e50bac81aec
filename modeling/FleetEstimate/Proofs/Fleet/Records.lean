import FleetEstimate.Proofs.Fleet.Chronicles
import FleetEstimate.Proofs.Wire.Readiness

/-!
# What a chronicle changes

Four things happen to a fleet in a chronicle: it remains, with as many of its members as
are left; somebody is taken up under the next number; a busy time is added; the sum of busy
times is set back. A member that remains keeps its name and its busy time, and its link
leads to what has become of the same far end.
-/

namespace FleetEstimate.Fleet

variable {ω ρ α : Type} [World ω ρ] {f f' g : Fleet ρ} {w w' v : ω} {id : MemberId}
variable {es es' : List (Entry ρ)}

/-! ## Far ends -/

/-- What can happen to a far end. -/
inductive Happens (ω : Type) [World ω ρ] : ρ → ρ → Prop
  | written {bytes : Bytes} {x x' : ρ} {w w' : ω} {taken : Except LinkError ℕ}
      (h : Remote.write bytes x w = (taken, x', w')) : Happens ω x x'
  | looked {x x' : ρ} {arrival : Arrival} (h : Remote.poll ω x = (arrival, x')) : Happens ω x x'
  | waited {x x' : ρ} {w w' : ω} {arrival : Arrival}
      (h : Remote.await x w = (arrival, x', w')) : Happens ω x x'
  | acted (id : MemberId) (x : ρ) (w : ω) : Happens ω x (World.acting id x w).1

/-- The far end `x` has become `y`. -/
def Becomes (ω : Type) [World ω ρ] (x y : ρ) : Prop := Relation.ReflTransGen (Happens ω) x y

theorem becomes_talks {act : LinkM ω ρ α} {l l' : Link ρ} {r : Except Halt α} (h : Talks act)
    (hm : Meets act l w r l' w') : Becomes ω l.remote l'.remote := by
  have hwait : KeptByWaiting fun y (_ : ω) => Becomes ω l.remote y :=
    fun _ _ _ _ _ hy hawait => hy.tail (.waited hawait)
  have hwrite : KeptByWriting fun y (_ : ω) => Becomes ω l.remote y :=
    fun _ _ _ _ _ _ hy hwrite => hy.tail (.written hwrite)
  exact h.keeps hwait hwrite .refl hm

theorem becomes_looked (m : Member ρ) :
    Becomes ω m.link.remote (Member.looked ω m).link.remote := by
  have hlink : (Member.looked ω m).link = (m.link.readiness ω).2 := rfl
  rw [hlink]
  by_cases h : m.link.unread = []
  · rw [Link.readiness_of_unread_eq_nil h]
    exact .single (.looked rfl)
  · rw [Link.readiness_of_unread h]
    exact .refl

/-! ## Members that remain -/

/-- The same member, possibly with another state, and whatever has become of its far end. -/
structure Same (ω : Type) [World ω ρ] (m m' : Member ρ) : Prop where
  name : m'.name = m.name
  busyTime : m'.busyTime = m.busyTime
  becomes : Becomes ω m.link.remote m'.link.remote

theorem Same.refl (m : Member ρ) : Same ω m m := ⟨rfl, rfl, .refl⟩

theorem Same.trans {m m₁ m₂ : Member ρ} (h : Same ω m m₁) (h' : Same ω m₁ m₂) : Same ω m m₂ where
  name := h'.name.trans h.name
  busyTime := h'.busyTime.trans h.busyTime
  becomes := Relation.ReflTransGen.trans h.becomes h'.becomes

/-- All members of `f'` are members of `f`, and nothing was added to any busy time. -/
structure Remains (ω : Type) [World ω ρ] (f f' : Fleet ρ) : Prop where
  next : f'.members.next = f.members.next
  busyTimeUsed : f'.busyTimeUsed = f.busyTimeUsed
  members : ∀ {id m'}, f'.get? id = some m' → ∃ m, f.get? id = some m ∧ Same ω m m'

theorem Remains.refl (f : Fleet ρ) : Remains ω f f := ⟨rfl, rfl, fun h => ⟨_, h, .refl _⟩⟩

theorem Remains.trans (h : Remains ω f g) (h' : Remains ω g f') : Remains ω f f' where
  next := h'.next.trans h.next
  busyTimeUsed := h'.busyTimeUsed.trans h.busyTimeUsed
  members hm' := by
    rcases h'.members hm' with ⟨m₁, hm₁, hsame'⟩
    rcases h.members hm₁ with ⟨m, hm, hsame⟩
    exact ⟨m, hm, hsame.trans hsame'⟩

theorem remains_mapEntries {change : Member ρ → Member ρ} (h : ∀ m, Same ω m (change m)) :
    Remains ω f { f with members := f.members.mapEntries fun _ m => change m } where
  next := rfl
  busyTimeUsed := rfl
  members {id m'} hm' := by
    have hget : (f.get? id).map change = some m' := by
      rw [← hm']
      exact (f.members.get?_mapEntries (fun _ m => change m) id).symm
    rcases Option.map_eq_some_iff.1 hget with ⟨m, hm, rfl⟩
    exact ⟨m, hm, h m⟩

theorem remains_modifyMember {change : Member ρ → Member ρ}
    (h : ∀ m, f.get? id = some m → Same ω m (change m)) :
    Remains ω f (f.modifyMember id change) where
  next := rfl
  busyTimeUsed := rfl
  members {other m'} hm' := by
    rw [get?_modifyMember] at hm'
    split at hm'
    case isTrue heq =>
      subst heq
      rcases Option.map_eq_some_iff.1 hm' with ⟨m, hm, rfl⟩
      exact ⟨m, hm, h m hm⟩
    case isFalse => exact ⟨m', hm', .refl m'⟩

theorem remains_withState (f : Fleet ρ) (id : MemberId) (s : MemberState) :
    Remains ω f (f.withState id s) := remains_modifyMember fun _ _ => ⟨rfl, rfl, .refl⟩

theorem remains_withLink {m : Member ρ} {l : Link ρ} (hm : f.get? id = some m)
    (h : Becomes ω m.link.remote l.remote) : Remains ω f (f.withLink id l) := by
  refine remains_modifyMember fun m₁ hm₁ => ?_
  -- under a number there is one member only
  cases hm.symm.trans hm₁
  exact ⟨rfl, rfl, h⟩

theorem remains_of_fewer (hnext : f'.members.next = f.members.next)
    (hbusy : f'.busyTimeUsed = f.busyTimeUsed)
    (h : ∀ id, f'.get? id = none ∨ f'.get? id = f.get? id) : Remains ω f f' where
  next := hnext
  busyTimeUsed := hbusy
  members {id m'} hm' := by
    rcases h id with hnone | hsame
    · rw [hnone] at hm'
      cases hm'
    · exact ⟨m', hsame ▸ hm', .refl m'⟩

theorem remains_without (f : Fleet ρ) (id : MemberId) : Remains ω f (f.without id) := by
  refine remains_of_fewer rfl rfl fun other => ?_
  rw [get?_without]
  split
  · exact .inl rfl
  · exact .inr rfl

theorem Acting.remains (h : Acting f w g v) : Remains ω f g := by
  induction h with
  | none => exact .refl _
  | more _ member ih =>
    refine ih.trans (remains_modifyMember fun m₁ hm₁ => ?_)
    cases member.symm.trans hm₁
    exact ⟨rfl, rfl, .single (.acted _ _ _)⟩

theorem remains_sweep {u : Unit} (h : Ends sweep f w u f' w') : Remains ω f f' where
  next := (ends_sweep h).next
  busyTimeUsed := busyTimeUsed_sweep h
  members {id m'} hm' := by
    rw [(ends_sweep h).get?, Option.bind_eq_some_iff] at hm'
    rcases hm' with ⟨m, hm, hswept⟩
    rcases swept_eq_some hswept with ⟨-, rfl, -⟩
    exact ⟨m, hm, rfl, rfl, becomes_looked m⟩

theorem remains_transition {target : MemberState} {sources : List MemberState} {u : Unit}
    (h : Ends (transition id target sources) f w u f' w') : Remains ω f f' := by
  rcases ends_transition.1 h with ⟨-, rfl, -⟩ | ⟨m, -, -, rfl, -⟩
  · exact .refl f'
  · exact remains_withState f id target

theorem remains_drop {u : Unit} (h : Ends (drop id) f w u f' w') : Remains ω f f' := by
  rcases ends_drop.1 h with ⟨-, rfl, -⟩ | ⟨m, -, rfl, -⟩
  · exact .refl f'
  · exact remains_without f id

theorem remains_exchange {act : LinkM ω ρ α} {y : Option (Except LinkError α)} (talks : Talks act)
    (h : Ends (exchange id act) f w y f' w') : Remains ω f f' := by
  rcases ends_exchange.1 h with ⟨-, -, rfl, -⟩ | ⟨m, y, l, hm, hmeets, -, rfl⟩
  · exact .refl f'
  · exact remains_withLink hm (becomes_talks talks hmeets)

theorem talks_askName : Talks (askName : LinkM ω ρ String) :=
  (Link.talks_sendTag _).bind fun _ => Link.receives_recvText.talks

theorem talks_askBusyTime : Talks (askBusyTime : LinkM ω ρ Real64) :=
  (Link.talks_sendTag _).bind fun _ => Link.receives_recvReal.talks

theorem remains_notTold {e : LinkError} (h : Ends (updateBusyTime id) f w (.error e) f' w') :
    Remains ω f f' := by
  rcases ends_updateBusyTime.1 h with
    ⟨-, -, rfl, -⟩ | ⟨m, l, hm, hmeets, ⟨e, -, rfl⟩ | ⟨used, hy, -⟩⟩
  · exact .refl f'
  · exact remains_withLink hm (becomes_talks talks_askBusyTime hmeets)
  · cases hy

theorem remains_shutdown {u : Unit} (h : Ends shutdown f w u f' w') : Remains ω f f' := by
  simp only [shutdown, ends_getFleet_bind, ends_modifyFleet_bind] at h
  rw [ends_forM_dismiss h]
  exact remains_of_fewer rfl rfl fun _ => .inl rfl

theorem remains_wait {accepting : Bool} {ev : Event} (nobody : ∀ id, ev ≠ .connected id)
    (h : Ends (waitForEvent accepting) f w ev f' w') : Remains ω f f' := by
  rcases ends_waitForEvent_admission h with
    ⟨g, v, _ | ⟨x, name⟩, g', v', hact, hadmission, hsweep⟩
  · rcases hadmission.of_none with ⟨rfl, -⟩
    exact (ends_act hact).remains.trans (remains_sweep hsweep)
  · rcases hadmission.of_some with ⟨-, hev, -⟩
    exact absurd hev (nobody _)

/-! ## Records -/

/-- The fleet `f` has become `f'`, and this was noted. -/
inductive Record (ω : Type) [World ω ρ] (f : Fleet ρ) : List (Entry ρ) → Fleet ρ → Prop
  | start : Record ω f [] f
  | remained {es : List (Entry ρ)} {g g' : Fleet ρ} (sofar : Record ω f es g)
      (remains : Remains ω g g') : Record ω f es g'
  | joined {es : List (Entry ρ)} {g : Fleet ρ} {x : ρ} {l : Link ρ} {name : String}
      (sofar : Record ω f es g) (becomes : Becomes ω x l.remote) :
      Record ω f (es ++ [.joined g.members.next x name]) (g.track l name)
  | told {es : List (Entry ρ)} {g : Fleet ρ} {id : MemberId} {m : Member ρ} {used : Real64}
      (sofar : Record ω f es g) (member : g.get? id = some m) :
      Record ω f (es ++ [.told id used]) (g.addBusyTime id used)
  | cleared {es : List (Entry ρ)} {g : Fleet ρ} (sofar : Record ω f es g) :
      Record ω f (es ++ [.cleared]) { g with busyTimeUsed := 0 }

theorem Record.connected {x : ρ} {name : String} (sofar : Record ω f es g)
    (newcomer : Newcomer g v x name) (h : Ends (waitForEvent true) g v (.connected id) f' w') :
    Record ω f (es ++ [.joined id x name]) f' := by
  rcases ends_waitForEvent_admission h with
    ⟨g₁, v₁, _ | ⟨y, name'⟩, g₂, v₂, hact, hadmission, hsweep⟩
  · exact absurd rfl (hadmission.of_none.2 id)
  rcases hadmission.of_some with ⟨-, hev, l, u, hoffer, hnamed, rfl⟩
  cases hev
  -- whoever is noted is the one who was offered
  rcases newcomer with ⟨g₁', v₁', u', l', w₁, hact', hoffer', hnamed'⟩
  rcases hact.unique hact' with ⟨-, rfl, rfl⟩
  cases hoffer.symm.trans hoffer'
  rcases hnamed'.unique hnamed with ⟨hname, rfl, rfl⟩
  cases hname
  have hbecomes : Becomes ω x l.remote := becomes_talks talks_askName hnamed
  have hbefore := sofar.remained (ends_act hact).remains
  exact (hbefore.joined hbecomes).remained (remains_sweep hsweep)

theorem Record.told_of_ends {used : Real64} (sofar : Record ω f es g)
    (h : Ends (updateBusyTime id) g v (.ok used) f' w') :
    Record ω f (es ++ [.told id used]) f' := by
  rcases ends_updateBusyTime.1 h with ⟨-, hy, -⟩ | ⟨m, l, hm, hmeets, ⟨e, hy, -⟩ | ⟨used, hy, rfl⟩⟩
  · cases hy
  · cases hy
  · cases hy
    have hlink := remains_withLink hm (becomes_talks talks_askBusyTime hmeets)
    exact (sofar.remained hlink).told (get?_withLink_self hm l)

theorem Record.unnoted (sofar : Record ω f es g) (remains : Remains ω g f') :
    Record ω f (es ++ []) f' := by
  rw [List.append_nil]
  exact sofar.remained remains

/-- Whatever an operation does is one of the four changes, or two of them. -/
theorem Record.operation (sofar : Record ω f es g) (h : Operation g v es' f' w') :
    Record ω f (es ++ es') f' := by
  -- joining, telling and clearing are noted; in all other operations everybody remains
  cases h with
  | inserted h =>
    rcases ends_insert.1 h with ⟨rfl, rfl, -⟩
    exact sofar.joined .refl
  | connected newcomer h => exact sofar.connected newcomer h
  | waited nobody h => exact sofar.unnoted (remains_wait nobody h)
  | exchanged talks h => exact sofar.unnoted (remains_exchange talks h)
  | markedIdle h => exact sofar.unnoted (remains_transition h)
  | markedWorking h => exact sofar.unnoted (remains_transition h)
  | reset h =>
    rcases ends_reset.1 h with ⟨rfl, -⟩
    exact sofar.unnoted (remains_withState _ _ _)
  | resetAll h =>
    rcases ends_modifyFleet.1 h with ⟨rfl, -⟩
    exact sofar.unnoted (remains_mapEntries fun _ => ⟨rfl, rfl, .refl⟩)
  | dropped h => exact sofar.unnoted (remains_drop h)
  | told h => exact sofar.told_of_ends h
  | notTold h => exact sofar.unnoted (remains_notTold h)
  | cleared h =>
    rcases ends_modifyFleet.1 h with ⟨rfl, -⟩
    exact sofar.cleared
  | shutDown h => exact sofar.unnoted (remains_shutdown h)
  | elsewhere => exact sofar.unnoted (.refl _)

theorem Chronicle.record (h : Chronicle f w es f' w') : Record ω f es f' := by
  induction h with
  | start => exact .start
  | next _ operation ih => exact ih.operation operation

end FleetEstimate.Fleet
