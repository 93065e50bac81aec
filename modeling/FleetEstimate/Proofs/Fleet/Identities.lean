import FleetEstimate.Experiment.Replay
import FleetEstimate.Proofs.Fleet.Records
import FleetEstimate.Rehearsal.Stage

/-!
# Numbers are not given twice

The numbers that a fleet gives out ascend, whoever has left in between. So a number stands
for one connection and its name from when it joins until it leaves, and for nobody ever
after. Whatever is done with the number of nobody changes nothing.
-/

namespace FleetEstimate

/-- Nothing changes under a number that is not in use. -/
theorem Roster.modify_of_get?_eq_none {α : Type} {r : Roster α} {id : ℕ} (h : r.get? id = none)
    (change : α → α) : r.modify id change = r := by
  have hentries : r.entries.map (fun p => (p.1, if p.1 = id then change p.2 else p.2)) =
      r.entries := by
    conv_rhs => rw [← List.map_id r.entries]
    refine List.map_congr_left fun p hp => ?_
    -- an entry with this number would have been found
    have hne : p.1 ≠ id := by
      rintro rfl
      rw [(r.get?_eq_some_iff p.1 p.2).2 hp] at h
      cases h
    rw [if_neg hne]
    rfl
  rcases r with ⟨entries, next, _, _⟩
  simp only [modify, mapEntries, Roster.mk.injEq, and_true]
  exact hentries

namespace Player

theorem number_reply (p : Player) (r : Reply) : (p.reply r).number = p.number := by
  cases r with
  | result batch digest parameter cut => cases cut <;> rfl
  | bytes bytes closing => cases closing <;> rfl
  | silence => rfl

theorem number_answer (p : Player) (r : Request) : (p.answer r).number = p.number := by
  cases r with
  | name =>
    unfold answer
    cases p.script.name <;> dsimp only <;> split <;> rfl
  | busyTime =>
    unfold answer
    rcases turn (some 0) p.script.busy with ⟨_ | time, busy⟩ <;> rfl
  | work => exact number_reply _ _
  | die => rfl
  | system text => rfl
  | parameter value => rfl
  | other call => rfl

theorem number_takeRequests (requests : ℕ) (p : Player) (taken : List Request) :
    (takeRequests requests p taken).1.number = p.number := by
  induction requests generalizing p taken with
  | zero => rfl
  | succ requests ih =>
    unfold takeRequests
    split
    · rfl
    · split
      · rw [ih, number_answer]
      · rfl
      · rfl

theorem number_receive (p : Player) (bytes : Bytes) : (p.receive bytes).1.number = p.number := by
  unfold receive
  rw [number_takeRequests]

theorem number_poll (p : Player) : p.poll.2.number = p.number := by
  unfold poll
  split
  · rfl
  · split <;> rfl

end Player

namespace Fleet

variable {ω ρ α : Type} [World ω ρ] {f f' : Fleet ρ} {w w' : ω} {id : MemberId}
variable {es : List (Entry ρ)}

/-! ## Numbers that are given out -/

/-- The number that an entry says was given out. -/
def Entry.joinedId? : Entry ρ → Option MemberId
  | .joined id _ _ => some id
  | .told _ _ => none
  | .cleared => none

/-- The numbers that were given out, in order. -/
def joinedIds (es : List (Entry ρ)) : List MemberId := es.filterMap Entry.joinedId?

theorem joinedIds_concat_of_none {e : Entry ρ} (he : e.joinedId? = none) :
    joinedIds (es ++ [e]) = joinedIds es := by
  simp [joinedIds, he]

theorem joinedIds_joined {x : ρ} {name : String} :
    joinedIds (es ++ [.joined id x name]) = joinedIds es ++ [id] := by
  simp [joinedIds, Entry.joinedId?]

/-- The numbers that were given out are all from the next one on, each once. -/
theorem Record.joinedIds_eq (h : Record ω f es f') :
    joinedIds es = List.range' f.members.next (joinedIds es).length ∧
      f'.members.next = f.members.next + (joinedIds es).length := by
  induction h with
  | start => exact ⟨rfl, rfl⟩
  | remained _ remains ih => exact ⟨ih.1, remains.next.trans ih.2⟩
  | joined _ _ ih =>
    -- the next number is behind all that were given out so far
    rw [joinedIds_joined, List.length_append, List.length_singleton, List.range'_1_concat, ← ih.1,
      ← ih.2]
    refine ⟨rfl, ?_⟩
    rw [← Nat.add_assoc, ← ih.2]
    rfl
  | told _ _ ih =>
    rw [joinedIds_concat_of_none rfl]
    exact ih
  | cleared _ ih =>
    rw [joinedIds_concat_of_none rfl]
    exact ih

theorem mem_joinedIds {x : ρ} {name : String} (h : .joined id x name ∈ es) :
    id ∈ joinedIds es :=
  List.mem_filterMap.2 ⟨_, h, rfl⟩

theorem Record.next_le_of_joined {x : ρ} {name : String} (h : Record ω f es f')
    (hjoined : .joined id x name ∈ es) : f.members.next ≤ id := by
  have hmem := mem_joinedIds hjoined
  rw [h.joinedIds_eq.1, List.mem_range'_1] at hmem
  exact hmem.1

/-! ## Who a member is -/

/-- Where a member comes from: it was there before under its number, or has joined under
it. Either way it has kept its name, and its link leads to what has become of its far
end. -/
def Origin (ω : Type) [World ω ρ] (f : Fleet ρ) (es : List (Entry ρ)) (id : MemberId)
    (m' : Member ρ) : Prop :=
  (∃ m, f.get? id = some m ∧ m'.name = m.name ∧ Becomes ω m.link.remote m'.link.remote) ∨
    ∃ x name, .joined id x name ∈ es ∧ m'.name = name ∧ Becomes ω x m'.link.remote

theorem Origin.of_becomes {m m' : Member ρ} (h : Origin ω f es id m) (hname : m'.name = m.name)
    (hbecomes : Becomes ω m.link.remote m'.link.remote) : Origin ω f es id m' := by
  rcases h with ⟨m₀, hm₀, hname₀, hbecomes₀⟩ | ⟨x, name, hmem, hname₀, hbecomes₀⟩
  · exact .inl ⟨m₀, hm₀, hname.trans hname₀, hbecomes₀.trans hbecomes⟩
  · exact .inr ⟨x, name, hmem, hname.trans hname₀, hbecomes₀.trans hbecomes⟩

theorem Origin.more {m' : Member ρ} (h : Origin ω f es id m') (es' : List (Entry ρ)) :
    Origin ω f (es ++ es') id m' := by
  rcases h with h | ⟨x, name, hmem, hname, hbecomes⟩
  · exact .inl h
  · exact .inr ⟨x, name, List.mem_append_left es' hmem, hname, hbecomes⟩

theorem Record.origin {m' : Member ρ} (h : Record ω f es f') (hm' : f'.get? id = some m') :
    Origin ω f es id m' := by
  induction h generalizing m' with
  | start => exact .inl ⟨m', hm', rfl, .refl⟩
  -- numbers, names and far ends stay, whatever else changes
  | remained _ remains ih =>
    rcases remains.members hm' with ⟨m, hm, hsame⟩
    exact (ih hm).of_becomes hsame.name hsame.becomes
  | @joined es g x l name _ becomes ih =>
    rw [get?_track] at hm'
    split at hm'
    case isTrue heq =>
      cases hm'
      -- the newcomer itself, whose entry is the last one
      exact .inr ⟨x, name, by simp [heq], rfl, becomes⟩
    case isFalse => exact (ih hm').more _
  | @told es g i m used _ member ih =>
    rw [get?_addBusyTime] at hm'
    split at hm'
    case isTrue =>
      rcases Option.map_eq_some_iff.1 hm' with ⟨m₁, hm₁, rfl⟩
      exact ((ih hm₁).more _).of_becomes rfl .refl
    case isFalse => exact (ih hm').more _
  | cleared _ ih => exact (ih hm').more _

/-- Whoever has left does not come back. -/
theorem Record.get?_eq_none (h : Record ω f es f') (hlt : id < f.members.next)
    (hnone : f.get? id = none) : f'.get? id = none := by
  cases hm' : f'.get? id with
  | none => rfl
  | some m' =>
    rcases h.origin hm' with ⟨m, hm, -⟩ | ⟨x, name, hmem, -⟩
    · rw [hnone] at hm
      cases hm
    · -- whoever has joined since then was given a later number
      exact absurd (h.next_le_of_joined hmem) (Nat.not_le_of_lt hlt)

/-! ## The number of nobody -/

/-- Whatever is done with a number changes neither the fleet nor the world. -/
structure Inert (ω : Type) [World ω ρ] (f : Fleet ρ) (w : ω) (id : MemberId) : Prop where
  state : f.stateOf? id = none
  markIdle : Ends (Fleet.markIdle id) f w () f w
  markWorking : Ends (Fleet.markWorking id) f w () f w
  reset : Ends (Fleet.reset id) f w () f w
  drop : Ends (Fleet.drop id) f w () f w
  exchange : ∀ {α : Type} (act : LinkM ω ρ α), Ends (Fleet.exchange id act) f w none f w
  updateBusyTime : Ends (Fleet.updateBusyTime id) f w (.error (notTracked id)) f w

theorem inert_of_get?_eq_none (h : f.get? id = none) : Inert ω f w id where
  state := stateOf?_eq_none_iff.2 h
  markIdle := ends_transition.2 (.inl ⟨h, rfl, rfl⟩)
  markWorking := ends_transition.2 (.inl ⟨h, rfl, rfl⟩)
  reset := by
    refine ends_reset.2 ⟨?_, rfl⟩
    rw [withState, modifyMember, Roster.modify_of_get?_eq_none h]
  drop := ends_drop.2 (.inl ⟨h, rfl, rfl⟩)
  exchange act := ends_exchange.2 (.inl ⟨h, rfl, rfl, rfl⟩)
  updateBusyTime := ends_updateBusyTime.2 (.inl ⟨h, rfl, rfl, rfl⟩)

/-! ## Whole chronicles -/

variable {E : Type} [Experiment E]

/-- In every chronicle the numbers that are given out ascend, from the next one on, and none
is given out twice. Every member was there before under its number or has joined under it,
and has kept its name and its far end. Whoever has left stays away, and whatever is done
with its number changes nothing. A settlement or a run continues the chronicle. Numbers have no
upper bound here: this speaks of a coordinator that has seen fewer than 2^64 connections. -/
theorem members_keep_identity (h : Chronicle f w es f' w') :
    (joinedIds es).Pairwise (· < ·) ∧
      (∀ id ∈ joinedIds es, f.members.next ≤ id ∧ id < f'.members.next) ∧
      (∀ id m', f'.get? id = some m' → Origin ω f es id m') ∧
      (∀ id < f.members.next, f.get? id = none → f'.get? id = none) ∧
      (∀ id, f'.get? id = none → Inert ω f' w' id) ∧
      (∀ f'' w'', Ends settle f' w' () f'' w'' → ∃ es', Chronicle f w (es ++ es') f'' w'') ∧
      ∀ (s : Estimator E) r f'' w'', Ends s.estimateDistributed f' w' r f'' w'' →
        ∃ es', Chronicle f w (es ++ es') f'' w'' := by
  have hrecord : Record ω f es f' := h.record
  -- the numbers that were given out are a range that begins at `next`
  rcases hrecord.joinedIds_eq with ⟨hids, hnext⟩
  refine ⟨?ascending, ?fresh, ?origin, ?gone, ?inert, ?settled, ?ran⟩
  case ascending =>
    rw [hids]
    exact List.pairwise_lt_range'
  case fresh =>
    intro id hid
    rw [hids, List.mem_range'_1] at hid
    rw [hnext]
    exact hid
  case origin =>
    intro id m' hm'
    exact hrecord.origin hm'
  case gone =>
    intro id hlt hnone
    exact hrecord.get?_eq_none hlt hnone
  case inert =>
    intro id hnone
    exact inert_of_get?_eq_none hnone
  case settled =>
    intro f'' w'' hends
    exact chronicled_settle.follows h hends
  case ran =>
    intro s r f'' w'' hends
    exact (chronicled_run s).follows h hends

/-! ## An example of far ends -/

/-- Whatever happens to a player, it is known by the same number. -/
theorem number_of_happens {x y : Player} (h : Happens Stage x y) : y.number = x.number := by
  -- a player changes by what it is sent and by being polled, and neither renumbers it
  cases h with
  | @written bytes _ _ w w' taken h =>
    have hwrite : Stage.write bytes x w = (taken, y, w') := h
    unfold Stage.write at hwrite
    split at hwrite
    · cases hwrite
      rfl
    · have hy : y = (x.receive bytes).1 := by
        cases hwrite
        rfl
      rw [hy, Player.number_receive]
  | @looked _ _ arrival h =>
    have hpoll : x.poll = (arrival, y) := h
    rw [← Player.number_poll x, hpoll]
  | @waited _ _ w w' arrival h =>
    have hpoll : y = x.poll.2 := by
      cases h
      rfl
    rw [hpoll, Player.number_poll]
  | acted => rfl

theorem number_of_becomes {x y : Player} (h : Becomes Stage x y) : y.number = x.number := by
  induction h with
  | refl => rfl
  | tail _ happens ih => exact (number_of_happens happens).trans ih

/-- A worker that asks to join and tells its name. -/
def second : Player := .new 1 ⟨some (Text.toBytes "second"), false, [], []⟩ false

/-- Somebody is taken up and leaves before somebody else joins. -/
theorem identity_of_second :
    ∃ (es : List (Entry Player)) (f : Fleet Player) (w : Stage),
      Chronicle .empty (Stage.empty.enqueue (.ok second)) es f w ∧ joinedIds es = [0, 1] ∧
      (joinedIds es).Pairwise (· < ·) ∧ f.members.ids = [1] ∧ Inert Stage f w 0 ∧
      ∀ m, f.get? 1 = some m → ∃ x, .joined 1 x m.name ∈ es ∧ m.link.remote.number = x.number := by
  let first : Player := .new 0 ⟨none, false, [], []⟩ false
  let taken : Fleet Player := Fleet.empty.track (.new first) "first"
  let door : Stage := Stage.empty.enqueue (.ok second)
  have hinsert : Operation .empty door [.joined 0 first "first"] taken door :=
    .inserted (ends_insert.2 ⟨rfl, rfl, rfl⟩)
  have hdrop : Operation taken door [] (taken.without 0) door :=
    .dropped (ends_drop.2 (.inr ⟨_, rfl, rfl, rfl⟩))
  -- only the wait has to be computed, the rest of the chronicle is two plain changes
  have hjoin : ∃ ev f w, Ends (waitForEvent true) (taken.without 0) door ev f w ∧
      ev = .connected 1 ∧ f.members.ids = [1] ∧ f.get? 0 = none := by
    decide +kernel
  rcases hjoin with ⟨ev, f, w, hwait, rfl, hids, hgone⟩
  rcases newcomer_of_connected hwait with ⟨-, x, name, hnew⟩
  have hchronicle := ((hinsert.chronicle.next hdrop).next (.connected hnew hwait))
  rcases members_keep_identity (E := Replay) hchronicle with
    ⟨hascending, -, horigin, -, hinert, -⟩
  refine ⟨_, f, w, hchronicle, rfl, hascending, hids, hinert 0 hgone, ?_⟩
  intro m hm
  rcases horigin 1 m hm with ⟨m₀, hm₀, -⟩ | ⟨y, _, hmem, rfl, hbecomes⟩
  · cases hm₀
  · exact ⟨y, hmem, number_of_becomes hbecomes⟩

end Fleet

end FleetEstimate
