import FleetEstimate.Proofs.Fleet.Waiting
import FleetEstimate.Proofs.Wire.Messages
import FleetEstimate.Proofs.Wire.Readiness

/-!
# What a wait makes of a fleet

After a wait every link has been looked at, whatever ended the wait. A member with
something unread is `pending`, a member that is gone without a last word is let go of, and
all others are as they were. No byte is lost: a look takes what has come from the far end
to the near end, where it is unread.
-/

namespace FleetEstimate

namespace Fleet

variable {ω ρ : Type} [World ω ρ] {f f' g : Fleet ρ} {w w' v : ω} {id : MemberId}

/-! ## Those who stay -/

/-- A member that stays is marked or left as it was, and so is its link: nothing is read and
nothing is said. -/
structure Stays (ω : Type) [World ω ρ] (m m' : Member ρ) : Prop where
  marked : m.link.HasUnread ω → m'.state = .pending
  unmarked : ¬ m.link.HasUnread ω → m'.state = m.state
  name : m'.name = m.name
  busyTime : m'.busyTime = m.busyTime
  readable : m'.link.unread ≠ [] ↔ m.link.HasUnread ω
  unread : m.link.unread ≠ [] → m'.link = m.link
  logs : ∀ {Log : ρ → Bytes → Bytes → Prop} {given read : Bytes}, KeepsLog ω Log →
    Link.Logs Log m.link given read → Link.Logs Log m'.link given read

theorem stays_looked (m : Member ρ) : Stays ω m (Member.looked ω m) where
  marked h := if_pos (Link.readiness_eq_unread_iff.mpr h)
  unmarked h := if_neg fun hready => h (Link.readiness_eq_unread_iff.mp hready)
  name := rfl
  busyTime := rfl
  readable := Link.unread_readiness
  unread h := congrArg Prod.snd (Link.readiness_of_unread h)
  logs hkeep hlog := hlog.readiness hkeep

/-- Every member of `f` is sorted by its link: whose connection has ended is gone, and all
others stay. -/
structure Sorted (ω : Type) [World ω ρ] (f f' : Fleet ρ) : Prop where
  next : f'.members.next = f.members.next
  busyTimeUsed : f'.busyTimeUsed = f.busyTimeUsed
  gone : ∀ id, f'.get? id = none ↔ ∀ m, f.get? id = some m → m.link.HasEnded ω
  stays : ∀ {id m'}, f'.get? id = some m' →
    ∃ m, f.get? id = some m ∧ ¬ m.link.HasEnded ω ∧ Stays ω m m'

theorem swept_eq_none_iff {m : Member ρ} : swept ω m = none ↔ m.link.HasEnded ω := by
  rw [← Link.readiness_eq_closed_iff, swept, Member.isGone]
  simp

theorem sorted_of_sweep {u : Unit} (h : Ends sweep f w u f' w') : Sorted ω f f' where
  next := (ends_sweep h).next
  busyTimeUsed := busyTimeUsed_sweep h
  gone id := by
    rw [(ends_sweep h).get?, Option.bind_eq_none_iff]
    simp only [swept_eq_none_iff]
  stays {id m'} hm' := by
    rw [(ends_sweep h).get?, Option.bind_eq_some_iff] at hm'
    rcases hm' with ⟨m, hm, hswept⟩
    rcases swept_eq_some hswept with ⟨hgone, rfl, -⟩
    refine ⟨m, hm, ?_, stays_looked m⟩
    -- it was not gone, or the sweep would have left nothing of it
    rw [← swept_eq_none_iff, hswept]
    exact Option.some_ne_none _

/-! ## Far ends act -/

/-- Nothing but far ends has changed. -/
structure FarEndsChanged (f g : Fleet ρ) : Prop where
  next : g.members.next = f.members.next
  busyTimeUsed : g.busyTimeUsed = f.busyTimeUsed
  get? : ∀ id, ∃ change : ρ → ρ,
    g.get? id = (f.get? id).map fun m => { m with link.remote := change m.link.remote }

theorem Acting.farEndsChanged (h : Acting f w g v) : FarEndsChanged f g := by
  induction h with
  | none => exact ⟨rfl, rfl, fun id => ⟨fun x => x, by simp⟩⟩
  | @more g v id m _ member ih =>
    refine ⟨ih.next, ih.busyTimeUsed, fun other => ?_⟩
    rcases ih.get? other with ⟨change, hchange⟩
    rw [get?_withRemote]
    split
    case isFalse => exact ⟨change, hchange⟩
    case isTrue =>
      -- the far end that acted, whatever it had become before
      refine ⟨fun _ => (World.acting id m.link.remote v).1, ?_⟩
      rw [hchange, Option.map_map]
      rfl

/-! ## Somebody joins -/

/-- Whoever tells its name was given the question for it, and of what it has said exactly the
name is read. -/
theorem logs_askName {Log : ρ → Bytes → Bytes → Prop} {given said : Bytes} {x : ρ} {l : Link ρ}
    {name : String} (hkeep : KeepsLog ω Log) (hlog : Log x given said)
    (h : Meets askName (.new x) w (.ok name) l w') :
    name.utf8ByteSize ≤ maxPayload ∧
      Link.Logs Log l (given ++ Tag.getName.toBytes) (said ++ Text.frame name) := by
  -- nothing is unread over a new link
  have hnew : Link.Logs Log (.new x) given said := by
    unfold Link.Logs
    rw [Link.new, List.append_nil]
    exact hlog
  rcases meets_bind_ok.1 h with ⟨⟨⟩, l₁, w₁, htag, hname⟩
  rcases Link.tells_sendTag hkeep .getName hnew htag with ⟨p, -, hlog₁, hp⟩
  rw [hp () rfl] at hlog₁
  exact Link.logs_recvText hkeep hlog₁ hname

/-! ## The whole wait -/

/-- Every wait ends. First nothing but far ends changes (`g`), then at most one member is
added (`h`), and then all are sorted by their links. Somebody is added only if the door is
open and a connection was offered that told its name, of which exactly the name was read.
Whoever fails to join leaves no trace. The number of the newcomer is one of 64 bits as long as
there were fewer than 2^64 connections before. -/
theorem waitForEvent_reclassifies (accepting : Bool) (f : Fleet ρ) (w : ω) :
    ∃ ev f' w' g v newcomer h v', Ends (waitForEvent accepting) f w ev f' w' ∧
      Acting f (World.waiting ρ accepting w) g v ∧ FarEndsChanged f g ∧
      Admission g v accepting ev newcomer h v' ∧
      (newcomer = none → h = g ∧ ∀ id, ev ≠ .connected id) ∧
      (∀ x name, newcomer = some (x, name) →
        accepting = true ∧ ev = .connected g.members.next ∧ ∃ l, h = g.track l name ∧
          ∀ (Log : ρ → Bytes → Bytes → Prop) (given said : Bytes), KeepsLog ω Log →
            Log x given said → name.utf8ByteSize ≤ maxPayload ∧
              Link.Logs Log l (given ++ Tag.getName.toBytes) (said ++ Text.frame name)) ∧
      Sorted ω h f' := by
  -- a wait can neither stall nor stop the program, so it ends
  rcases ends_or_breaks (waitForEvent accepting) f w with ⟨ev, f', w', hends⟩ | ⟨e, w', hbreaks⟩
  · rcases ends_waitForEvent_admission hends with ⟨g, v, newcomer, h, v', hact, hadmission, hsweep⟩
    have hacting := ends_act hact
    refine ⟨ev, f', w', g, v, newcomer, h, v', hends, hacting, hacting.farEndsChanged, hadmission,
      ?nobody, ?somebody, sorted_of_sweep hsweep⟩
    case nobody =>
      intro hnobody
      subst hnobody
      exact hadmission.of_none
    case somebody =>
      intro x name hsomebody
      subst hsomebody
      rcases hadmission.of_some with ⟨hopen, hev, l, u, -, hnamed, htrack⟩
      refine ⟨hopen, hev, l, htrack, ?_⟩
      intro Log given said hkeep hlog
      exact logs_askName hkeep hlog hnamed
  · exact absurd hbreaks not_breaks_waitForEvent

end Fleet

end FleetEstimate
