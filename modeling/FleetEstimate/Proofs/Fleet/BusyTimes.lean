import FleetEstimate.Experiment.Replay
import FleetEstimate.Proofs.Fleet.Records
import FleetEstimate.Rehearsal.Stage

/-!
# Busy times are counted once

A busy time that a member tells is added to its own, which begins when it joins, and to that
of the fleet, which begins when it was last set back. Sums of floats depend on their order:
both are taken in the order in which members told, with those counted in that have left.
-/

namespace FleetEstimate.Fleet

variable {ω ρ : Type} [World ω ρ] {f f' : Fleet ρ} {w w' : ω} {id : MemberId}
variable {es es' : List (Entry ρ)}

/-! ## What was told -/

/-- The busy time that an entry says was told by a member. -/
def Entry.toldBy? (id : MemberId) : Entry ρ → Option Real64
  | .told i used => if i = id then some used else none
  | .joined _ _ _ => none
  | .cleared => none

/-- The busy time that an entry says was told, by whomever. -/
def Entry.told? : Entry ρ → Option Real64
  | .told _ used => some used
  | .joined _ _ _ => none
  | .cleared => none

def Entry.isCleared : Entry ρ → Bool
  | .cleared => true
  | .told _ _ => false
  | .joined _ _ _ => false

/-- The busy times that a member told, in order. -/
def toldBy (id : MemberId) (es : List (Entry ρ)) : List Real64 := es.filterMap (Entry.toldBy? id)

/-- The entries since the sum was last set back. -/
def sinceCleared (es : List (Entry ρ)) : List (Entry ρ) :=
  (es.reverse.takeWhile fun e => !e.isCleared).reverse

/-- The busy times that were told since the sum was last set back, in order. -/
def toldSinceCleared (es : List (Entry ρ)) : List Real64 :=
  (sinceCleared es).filterMap Entry.told?

/-- The sum from left to right. -/
def total (times : List Real64) : Real64 := times.foldl (· + ·) 0

theorem total_concat (times : List Real64) (used : Real64) :
    total (times ++ [used]) = total times + used := by
  simp [total]

theorem toldBy_concat_of_none {e : Entry ρ} (he : e.toldBy? id = none) :
    toldBy id (es ++ [e]) = toldBy id es := by
  simp [toldBy, he]

theorem toldBy_told_self {used : Real64} :
    toldBy id (es ++ [.told id used]) = toldBy id es ++ [used] := by
  simp [toldBy, Entry.toldBy?]

theorem toldBy_told_of_ne {other : MemberId} {used : Real64} (hne : id ≠ other) :
    toldBy other (es ++ [.told id used]) = toldBy other es :=
  toldBy_concat_of_none (if_neg hne)

theorem toldSinceCleared_joined {x : ρ} {name : String} :
    toldSinceCleared (es ++ [.joined id x name]) = toldSinceCleared es := by
  simp [toldSinceCleared, sinceCleared, Entry.isCleared, Entry.told?]

theorem toldSinceCleared_told {used : Real64} :
    toldSinceCleared (es ++ [.told id used]) = toldSinceCleared es ++ [used] := by
  simp [toldSinceCleared, sinceCleared, Entry.isCleared, Entry.told?]

theorem toldSinceCleared_cleared : toldSinceCleared (es ++ [.cleared]) = [] := by
  simp [toldSinceCleared, sinceCleared, Entry.isCleared]

/-! ## Books -/

/-- The busy times of a fleet are those that were told. -/
structure Balanced (es : List (Entry ρ)) (f : Fleet ρ) : Prop where
  used : f.busyTimeUsed = total (toldSinceCleared es)
  members : ∀ {id m}, f.get? id = some m → m.busyTime = total (toldBy id es)
  /-- A number that is not given out yet has told nothing. -/
  unborn : ∀ {id}, f.members.next ≤ id → toldBy id es = []

theorem balanced_empty : Balanced ([] : List (Entry ρ)) .empty where
  used := rfl
  members hm := by cases hm
  unborn _ := rfl

theorem Balanced.remained {g g' : Fleet ρ} (h : Balanced es g) (remains : Remains ω g g') :
    Balanced es g' where
  used := remains.busyTimeUsed.trans h.used
  members hm' := by
    rcases remains.members hm' with ⟨m, hm, hsame⟩
    rw [hsame.busyTime, h.members hm]
  unborn hid := h.unborn (remains.next ▸ hid)

theorem Balanced.joined {g : Fleet ρ} (h : Balanced es g) (x : ρ) (l : Link ρ) (name : String) :
    Balanced (es ++ [.joined g.members.next x name]) (g.track l name) where
  used := by
    rw [toldSinceCleared_joined]
    exact h.used
  members {id m'} hm' := by
    rw [toldBy_concat_of_none rfl]
    rw [get?_track] at hm'
    split at hm'
    case isTrue heq =>
      -- whoever has just joined has told nothing
      cases hm'
      rw [heq, h.unborn (Nat.le_refl _)]
      rfl
    case isFalse => exact h.members hm'
  unborn hid := by
    rw [toldBy_concat_of_none rfl]
    exact h.unborn (Nat.le_of_succ_le hid)

theorem Balanced.told {g : Fleet ρ} {m : Member ρ} (h : Balanced es g) (hm : g.get? id = some m)
    (used : Real64) : Balanced (es ++ [.told id used]) (g.addBusyTime id used) where
  used := by
    have hsum : (g.addBusyTime id used).busyTimeUsed = g.busyTimeUsed + used := rfl
    rw [toldSinceCleared_told, total_concat, hsum, h.used]
  members {other m'} hm' := by
    rw [get?_addBusyTime] at hm'
    split at hm'
    case isTrue heq =>
      subst heq
      rcases Option.map_eq_some_iff.1 hm' with ⟨m₁, hm₁, rfl⟩
      rw [toldBy_told_self, total_concat, h.members hm₁]
    case isFalse hne =>
      rw [toldBy_told_of_ne (Ne.symm hne), h.members hm']
  unborn {other} hid := by
    -- whoever tells is a member, so its number was given out
    have hne : id ≠ other := Nat.ne_of_lt (Nat.lt_of_lt_of_le (lt_next_of_get? hm) hid)
    rw [toldBy_told_of_ne hne]
    exact h.unborn hid

theorem Balanced.cleared {g : Fleet ρ} (h : Balanced es g) :
    Balanced (es ++ [.cleared]) { g with busyTimeUsed := 0 } where
  used := by
    rw [toldSinceCleared_cleared]
    rfl
  members hm := by
    rw [toldBy_concat_of_none rfl]
    exact h.members hm
  unborn hid := by
    rw [toldBy_concat_of_none rfl]
    exact h.unborn hid

theorem Record.balanced (h : Record ω .empty es f') : Balanced es f' := by
  induction h with
  | start => exact balanced_empty
  | remained _ remains ih => exact ih.remained remains
  | joined _ _ ih => exact ih.joined _ _ _
  | told _ member ih => exact ih.told member _
  | cleared _ ih => exact ih.cleared

/-! ## Questions for busy times -/

/-- A question that fails changes no busy time, whichever way it fails. -/
theorem busyTimes_of_failed {e : LinkError} (h : Ends (updateBusyTime id) f w (.error e) f' w') :
    f'.busyTimeUsed = f.busyTimeUsed ∧
      ∀ other, (f'.get? other).map (·.busyTime) = (f.get? other).map (·.busyTime) := by
  rcases ends_updateBusyTime.1 h with
    ⟨-, -, rfl, -⟩ | ⟨m, l, hm, -, ⟨e', -, rfl⟩ | ⟨used, hy, -⟩⟩
  · -- the number is nobody's
    exact ⟨rfl, fun _ => rfl⟩
  · -- the link failed: it has changed, and nothing else
    refine ⟨rfl, fun other => ?_⟩
    rw [get?_withLink]
    split
    · rw [Option.map_map]
      rfl
    · rfl
  · cases hy

/-- What is added was read from the member itself, behind the question for it. -/
theorem logs_of_told {used : Real64} (h : Ends (updateBusyTime id) f w (.ok used) f' w') :
    ∃ m m', f.get? id = some m ∧ f'.get? id = some m' ∧
      ∀ (Log : ρ → Bytes → Bytes → Prop) (given read : Bytes), KeepsLog ω Log →
        Link.Logs Log m.link given read →
        Link.Logs Log m'.link (given ++ Tag.getCpuTime.toBytes) (read ++ used.toBytes) := by
  rcases ends_updateBusyTime.1 h with ⟨-, hy, -⟩ | ⟨m, l, hm, hmeets, ⟨e, hy, -⟩ | ⟨x, hy, rfl⟩⟩
  · cases hy
  · cases hy
  · cases hy
    refine ⟨m, { m with link := l, busyTime := m.busyTime + used }, hm, by simp [hm], ?_⟩
    intro Log given read hkeep hlog
    -- the tag is sent as a whole before the time is read
    rcases meets_bind_ok.1 hmeets with ⟨⟨⟩, l₁, w₁, htag, hreal⟩
    rcases Link.tells_sendTag hkeep .getCpuTime hlog htag with ⟨p, -, hlog₁, hp⟩
    rw [hp () rfl] at hlog₁
    exact Link.logs_recvReal hkeep hlog₁ hreal

/-! ## Whole chronicles -/

variable {E : Type} [Experiment E]

/-- In every chronicle of a new fleet the busy time of a member is the sum of what it has told
since it joined, and that of the fleet is the sum of what all members have told since it was
last set back, those counted in that have left. A question that fails changes neither, and
one that succeeds adds to both what the member itself has said. A settlement or a run
continues the chronicle. -/
theorem busy_times_add_up (h : Chronicle .empty w es f' w') :
    f'.busyTimeUsed = total (toldSinceCleared es) ∧
      (∀ id m, f'.get? id = some m → m.busyTime = total (toldBy id es)) ∧
      (∀ id e f'' w'', Ends (updateBusyTime id) f' w' (.error e) f'' w'' →
        f''.busyTimeUsed = f'.busyTimeUsed ∧
          ∀ other, (f''.get? other).map (·.busyTime) = (f'.get? other).map (·.busyTime)) ∧
      (∀ id used f'' w'', Ends (updateBusyTime id) f' w' (.ok used) f'' w'' →
        Chronicle .empty w (es ++ [.told id used]) f'' w'' ∧
        ∃ m m', f'.get? id = some m ∧ f''.get? id = some m' ∧
          ∀ (Log : ρ → Bytes → Bytes → Prop) (given read : Bytes), KeepsLog ω Log →
            Link.Logs Log m.link given read →
            Link.Logs Log m'.link (given ++ Tag.getCpuTime.toBytes) (read ++ used.toBytes)) ∧
      (∀ f'' w'', Ends settle f' w' () f'' w'' → ∃ es', Chronicle .empty w (es ++ es') f'' w'') ∧
      ∀ (s : Estimator E) r f'' w'', Ends s.estimateDistributed f' w' r f'' w'' →
        ∃ es', Chronicle .empty w (es ++ es') f'' w'' := by
  -- `Balanced` holds of a new fleet and is kept by every change that a chronicle notes
  have hbalanced : Balanced es f' := h.record.balanced
  refine ⟨hbalanced.used, ?members, ?failed, ?told, ?settled, ?ran⟩
  case members =>
    intro id m hm
    exact hbalanced.members hm
  case failed =>
    intro id e f'' w'' hends
    exact busyTimes_of_failed hends
  case told =>
    intro id used f'' w'' hends
    exact ⟨h.next (.told hends), logs_of_told hends⟩
  case settled =>
    intro f'' w'' hends
    exact chronicled_settle.follows h hends
  case ran =>
    intro s r f'' w'' hends
    exact (chronicled_run s).follows h hends

/-- A worker that tells its busy times and then closes the connection. -/
def teller (number : ℕ) (busy : List Real64) : Player :=
  .new number ⟨none, false, busy.map some ++ [none], []⟩ false

/-- A member tells its busy time before and after the sum is set back, and leaves. Another one
tells its busy time once and is then asked in vain. -/
def tellings : FleetM Stage Player (List MemberId × List (Except LinkError Real64)) := do
  let first ← insert (teller 0 [1, 1 + 1]) "first"
  let before ← updateBusyTime first
  resetBusyTime
  let after ← updateBusyTime first
  drop first
  let second ← insert (teller 1 [1]) "second"
  let told ← updateBusyTime second
  let vain ← updateBusyTime second
  return ([first, second], [before, after, told, vain])

theorem busy_times_of_two :
    ∃ (es : List (Entry Player)) (f : Fleet Player) (w : Stage),
      Chronicle .empty .empty es f w ∧ toldBy 0 es = [1, 1 + 1] ∧ toldBy 1 es = [1] ∧
      f.members.ids = [1] ∧ f.busyTimeUsed = total [1 + 1, 1] ∧
      ∀ m, f.get? 1 = some m → m.busyTime = total [1] := by
  have htellings : ∃ y f w, Ends tellings .empty .empty y f w ∧ y.1 = [0, 1] ∧
      y.2.map Except.toOption = [some 1, some (1 + 1), some 1, none] ∧ f.members.ids = [1] := by
    decide +kernel
  rcases htellings with ⟨y, f, w, hends, hnumbers, htimes, hids⟩
  simp only [tellings, ends_bind, ends_pure] at hends
  rcases hends with ⟨first, f₁, w₁, h₁, before, f₂, w₂, h₂, ⟨⟩, f₃, w₃, h₃, after, f₄, w₄, h₄,
    ⟨⟩, f₅, w₅, h₅, second, f₆, w₆, h₆, told, f₇, w₇, h₇, vain, f₈, w₈, h₈, rfl, rfl, rfl⟩
  -- which questions succeed is known from their answers
  rcases before with _ | _ <;> rcases after with _ | _ <;> rcases told with _ | _ <;>
    rcases vain with _ | _ <;> cases htimes
  cases hnumbers
  have hchronicle := (Operation.inserted h₁).chronicle
    |>.next (.told h₂) |>.next (.cleared h₃) |>.next (.told h₄) |>.next (.dropped h₅)
    |>.next (.inserted h₆) |>.next (.told h₇) |>.next (.notTold h₈)
  rcases busy_times_add_up (E := Replay) hchronicle with ⟨hused, hmembers, -⟩
  exact ⟨_, f₈, w₈, hchronicle, rfl, rfl, hids, hused, hmembers 1⟩

end FleetEstimate.Fleet
