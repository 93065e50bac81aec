import Mathlib
import FleetEstimate.Wire.Link

/-!
# Exchanges over a link

An exchange over a link goes through, with a value, or halts. `Meets` says which, and
what is left of the link and of the world. A log tells what a far end was given and what
it has said. Sending adds to the one and receiving reads on in the other.
-/

namespace FleetEstimate

/-- Actions that may halt, with a state of type `σ`: exchanges over a link, or what a
session does for a request. -/
abbrev HaltM (ω σ : Type) := ExceptT Halt (StateT σ (StateM ω))

section Outcomes

variable {ω σ α β : Type} {l l' l₁ : σ} {w w' w₁ : ω} {r : Except Halt α}

/-- From the state `l` in the world `w`, an action has the outcome `r`. -/
def Meets (act : HaltM ω σ α) (l : σ) (w : ω) (r : Except Halt α) (l' : σ) (w' : ω) : Prop :=
  (act.run.run l).run w = ((r, l'), w')

/-- An action has one outcome. -/
theorem Meets.unique {act : HaltM ω σ α} {r' : Except Halt α}
    (h : Meets act l w r l' w') (h' : Meets act l w r' l₁ w₁) : r' = r ∧ l₁ = l' ∧ w₁ = w' := by
  unfold Meets at h h'
  rw [h] at h'
  cases h'
  exact ⟨rfl, rfl, rfl⟩

/-! ## Steps of an action -/

/-- An action that comes to some outcome comes to no other. -/
theorem meets_iff_of_run {act : HaltM ω σ α} {x : Except Halt α}
    (h : (act.run.run l).run w = ((x, l₁), w₁)) :
    Meets act l w r l' w' ↔ r = x ∧ l' = l₁ ∧ w' = w₁ := by
  unfold Meets
  rw [h]
  constructor
  · intro heq
    cases heq
    exact ⟨rfl, rfl, rfl⟩
  · intro heq
    rcases heq with ⟨rfl, rfl, rfl⟩
    rfl

theorem meets_pure {a : α} :
    Meets (pure a : HaltM ω σ α) l w r l' w' ↔ r = .ok a ∧ l' = l ∧ w' = w :=
  meets_iff_of_run rfl

theorem meets_throw {e : Halt} :
    Meets (throw e : HaltM ω σ α) l w r l' w' ↔ r = .error e ∧ l' = l ∧ w' = w :=
  meets_iff_of_run rfl

theorem meets_getState {r : Except Halt σ} :
    Meets (getThe σ : HaltM ω σ σ) l w r l' w' ↔ r = .ok l ∧ l' = l ∧ w' = w :=
  meets_iff_of_run rfl

theorem meets_getWorld {r : Except Halt ω} :
    Meets (getThe ω : HaltM ω σ ω) l w r l' w' ↔ r = .ok w ∧ l' = l ∧ w' = w :=
  meets_iff_of_run rfl

theorem meets_setState {m : σ} {r : Except Halt PUnit} :
    Meets (set m : HaltM ω σ PUnit) l w r l' w' ↔ r = .ok ⟨⟩ ∧ l' = m ∧ w' = w :=
  meets_iff_of_run rfl

theorem meets_setWorld {v : ω} {r : Except Halt PUnit} :
    Meets (set v : HaltM ω σ PUnit) l w r l' w' ↔ r = .ok ⟨⟩ ∧ l' = l ∧ w' = v :=
  meets_iff_of_run rfl

theorem meets_modifyState {change : σ → σ} {r : Except Halt PUnit} :
    Meets (modifyThe σ change : HaltM ω σ PUnit) l w r l' w' ↔
      r = .ok ⟨⟩ ∧ l' = change l ∧ w' = w :=
  meets_iff_of_run rfl

/-- Nothing comes after a throw. -/
theorem meets_throw_bind {e : Halt} {next : α → HaltM ω σ β} {r : Except Halt β} :
    Meets (throw e >>= next) l w r l' w' ↔ r = .error e ∧ l' = l ∧ w' = w :=
  meets_iff_of_run rfl

theorem HaltM.run_bind (act : HaltM ω σ α) (next : α → HaltM ω σ β) (l : σ) (w : ω) :
    ((act >>= next).run.run l).run w = match (act.run.run l).run w with
      | ((.ok a, l₁), w₁) => ((next a).run.run l₁).run w₁
      | ((.error e, l₁), w₁) => ((.error e, l₁), w₁) := by
  simp only [StateT.run, ExceptT.run, bind, StateT.bind, ExceptT.bind, ExceptT.bindCont,
    ExceptT.mk]
  rcases act l w with ⟨⟨_ | _, _⟩, _⟩ <;> rfl

/-- Once its first part has gone through, a sequence goes on with its second part. -/
theorem meets_bind_of_ok {act : HaltM ω σ α} {next : α → HaltM ω σ β} {a : α}
    {r : Except Halt β} (hfirst : Meets act l w (.ok a) l₁ w₁) :
    Meets (act >>= next) l w r l' w' ↔ Meets (next a) l₁ w₁ r l' w' := by
  unfold Meets at hfirst ⊢
  rw [HaltM.run_bind, hfirst]

/-- If its first part halts, a sequence halts. -/
theorem meets_bind_of_error {act : HaltM ω σ α} {next : α → HaltM ω σ β} {e : Halt}
    (hfirst : Meets act l w (.error e) l' w') : Meets (act >>= next) l w (.error e) l' w' := by
  unfold Meets at hfirst ⊢
  rw [HaltM.run_bind, hfirst]

theorem meets_getState_bind {next : σ → HaltM ω σ β} {r : Except Halt β} :
    Meets (getThe σ >>= next) l w r l' w' ↔ Meets (next l) l w r l' w' :=
  meets_bind_of_ok (meets_getState.2 ⟨rfl, rfl, rfl⟩)

theorem meets_getWorld_bind {next : ω → HaltM ω σ β} {r : Except Halt β} :
    Meets (getThe ω >>= next) l w r l' w' ↔ Meets (next w) l w r l' w' :=
  meets_bind_of_ok (meets_getWorld.2 ⟨rfl, rfl, rfl⟩)

theorem meets_setState_bind {m : σ} {next : PUnit → HaltM ω σ β} {r : Except Halt β} :
    Meets (set m >>= next) l w r l' w' ↔ Meets (next ⟨⟩) m w r l' w' :=
  meets_bind_of_ok (meets_setState.2 ⟨rfl, rfl, rfl⟩)

theorem meets_setWorld_bind {v : ω} {next : PUnit → HaltM ω σ β} {r : Except Halt β} :
    Meets (set v >>= next) l w r l' w' ↔ Meets (next ⟨⟩) l v r l' w' :=
  meets_bind_of_ok (meets_setWorld.2 ⟨rfl, rfl, rfl⟩)

theorem meets_modifyState_bind {change : σ → σ} {next : PUnit → HaltM ω σ β}
    {r : Except Halt β} :
    Meets (modifyThe σ change >>= next) l w r l' w' ↔ Meets (next ⟨⟩) (change l) w r l' w' :=
  meets_bind_of_ok (meets_modifyState.2 ⟨rfl, rfl, rfl⟩)

/-- A sequence halts in its first part, or goes on with its second part. -/
theorem meets_bind {act : HaltM ω σ α} {next : α → HaltM ω σ β} {r : Except Halt β} :
    Meets (act >>= next) l w r l' w' ↔
      (∃ a l₁ w₁, Meets act l w (.ok a) l₁ w₁ ∧ Meets (next a) l₁ w₁ r l' w') ∨
        ∃ e, r = .error e ∧ Meets act l w (.error e) l' w' := by
  unfold Meets
  rw [HaltM.run_bind]
  -- the outcome of the first part decides which side can hold
  rcases (act.run.run l).run w with ⟨⟨e | a, l₁⟩, w₁⟩
  · constructor
    · intro h
      cases h
      exact .inr ⟨e, rfl, rfl⟩
    · intro h
      rcases h with ⟨_, _, _, h, _⟩ | ⟨_, rfl, h⟩
      · cases h
      · cases h
        rfl
  · constructor
    · intro h
      exact .inl ⟨a, l₁, w₁, rfl, h⟩
    · intro h
      rcases h with ⟨_, _, _, h, h'⟩ | ⟨_, _, h⟩
      · cases h
        exact h'
      · cases h

theorem meets_bind_ok {act : HaltM ω σ α} {next : α → HaltM ω σ β} {b : β} :
    Meets (act >>= next) l w (.ok b) l' w' ↔
      ∃ a l₁ w₁, Meets act l w (.ok a) l₁ w₁ ∧ Meets (next a) l₁ w₁ (.ok b) l' w' := by
  rw [meets_bind]
  simp only [reduceCtorEq, false_and, exists_false, or_false]

end Outcomes

variable {ω ρ α β : Type} {l l' : Link ρ} {w w' : ω} {r : Except Halt α}

theorem not_meets_fail {e : LinkError} {a : α} :
    ¬ Meets (Link.fail e : LinkM ω ρ α) l w (.ok a) l' w' := by
  intro h
  cases h

/-! ## Logs -/

/-- The bytes that have come. -/
def Arrival.bytes : Arrival → Bytes
  | .piece bytes => bytes
  | .failed _ => []
  | .nothing => []

/-- A relation `Log` between far ends, what they were given and what they have said, that
exchanges keep up to date. -/
structure KeepsLog (ω : Type) [Remote ω ρ] (Log : ρ → Bytes → Bytes → Prop) : Prop where
  write : ∀ {bytes x w n x' w' g s}, Log x g s →
    Remote.write (ω := ω) bytes x w = (.ok n, x', w') → Log x' (g ++ bytes.take n) s
  write_error : ∀ {bytes x w e x' w' g s}, Log x g s →
    Remote.write (ω := ω) bytes x w = (.error e, x', w') → Log x' g s
  poll : ∀ {x arrival x' g s}, Log x g s →
    Remote.poll ω x = (arrival, x') → Log x' g (s ++ arrival.bytes)
  await : ∀ {x w arrival x' w' g s}, Log x g s →
    Remote.await (ω := ω) x w = (arrival, x', w') → Log x' g (s ++ arrival.bytes)

theorem KeepsLog.and [Remote ω ρ] {Log Log' : ρ → Bytes → Bytes → Prop} (h : KeepsLog ω Log)
    (h' : KeepsLog ω Log') : KeepsLog ω fun x g s => Log x g s ∧ Log' x g s where
  write hlog hwrite := ⟨h.write hlog.1 hwrite, h'.write hlog.2 hwrite⟩
  write_error hlog hwrite := ⟨h.write_error hlog.1 hwrite, h'.write_error hlog.2 hwrite⟩
  poll hlog hpoll := ⟨h.poll hlog.1 hpoll, h'.poll hlog.2 hpoll⟩
  await hlog hawait := ⟨h.await hlog.1 hawait, h'.await hlog.2 hawait⟩

variable {Log : ρ → Bytes → Bytes → Prop} {g h s : Bytes}

/-- The far end of a link was given `g`, and what it has said is read up to and with `h`. -/
def Link.Logs (Log : ρ → Bytes → Bytes → Prop) (l : Link ρ) (g h : Bytes) : Prop :=
  Log l.remote g (h ++ l.unread)

variable [Remote ω ρ]

/-! ## Receiving -/

/-- What a wait for the next piece has come to. -/
def Arrival.outcome : Arrival → Except Halt Bytes
  | .piece bytes => .ok bytes
  | .failed e => .error (.failed e)
  | .nothing => .error .stalled

theorem meets_nextPiece {arrival : Arrival} {x : ρ} {v : ω} {r : Except Halt Bytes}
    (hawait : Remote.await l.remote w = (arrival, x, v)) :
    Meets Link.nextPiece l w r l' w' ↔
      r = arrival.outcome ∧ l' = { l with remote := x } ∧ w' = v := by
  unfold Link.nextPiece
  change Meets (getThe (Link ρ) >>= _) l w r l' w' ↔ _
  rw [meets_getState_bind, meets_getWorld_bind, hawait]
  dsimp only
  rw [meets_setWorld_bind, meets_setState_bind]
  cases arrival with
  | piece bytes => exact meets_pure
  | failed e => exact meets_throw
  | nothing => exact meets_throw

/-- Whatever an exchange comes to, it keeps what holds of the far end and the world. -/
def Keeps (P : ρ → ω → Prop) (act : LinkM ω ρ α) : Prop :=
  ∀ ⦃l w r l' w'⦄, P l.remote w → Meets act l w r l' w' → P l'.remote w'

section Keeping

variable {P : ρ → ω → Prop}

omit [Remote ω ρ] in
theorem keeps_pure {a : α} : Keeps P (pure a : LinkM ω ρ α) := by
  intro l w r l' w' hp hm
  rcases meets_pure.1 hm with ⟨-, rfl, rfl⟩
  exact hp

omit [Remote ω ρ] in
theorem keeps_throw {e : Halt} : Keeps P (throw e : LinkM ω ρ α) := by
  intro l w r l' w' hp hm
  rcases meets_throw.1 hm with ⟨-, rfl, rfl⟩
  exact hp

omit [Remote ω ρ] in
theorem Keeps.bind {act : LinkM ω ρ α} {next : α → LinkM ω ρ β} (hact : Keeps P act)
    (hnext : ∀ a, Keeps P (next a)) : Keeps P (act >>= next) := by
  intro l w r l' w' hp hm
  rcases meets_bind.1 hm with ⟨a, l₁, w₁, hfirst, hrest⟩ | ⟨e, -, hfirst⟩
  · exact hnext a (hact hp hfirst) hrest
  · exact hact hp hfirst

omit [Remote ω ρ] in
theorem keeps_getLink : Keeps P (getThe (Link ρ) : LinkM ω ρ (Link ρ)) := by
  intro l w r l' w' hp hm
  rcases meets_getState.1 hm with ⟨-, rfl, rfl⟩
  exact hp

omit [Remote ω ρ] in
/-- The near end may do with the unread bytes what it likes. -/
theorem keeps_modifyUnread {change : Link ρ → Bytes} :
    Keeps P (modifyThe (Link ρ) fun l => { l with unread := change l } : LinkM ω ρ PUnit) := by
  intro l w r l' w' hp hm
  rcases meets_modifyState.1 hm with ⟨-, rfl, rfl⟩
  exact hp

/-- What holds of a far end and the world still holds when something has come from it. -/
def KeptByWaiting (P : ρ → ω → Prop) : Prop :=
  ∀ ⦃x w arrival x' w'⦄, P x w → Remote.await x w = (arrival, x', w') → P x' w'

theorem keeps_nextPiece (hwait : KeptByWaiting P) : Keeps P (Link.nextPiece : LinkM ω ρ Bytes) := by
  intro l w r l' w' hp hm
  rcases hawait : Remote.await l.remote w with ⟨arrival, x, v⟩
  rcases (meets_nextPiece hawait).1 hm with ⟨-, rfl, rfl⟩
  exact hwait hp hawait

theorem keeps_receiveMore (hwait : KeptByWaiting P) (pieces missing : ℕ) (read : List Bytes) :
    Keeps P (Link.receiveMore pieces missing read : LinkM ω ρ Bytes) := by
  -- along the recursion of `receiveMore`, which waits for one piece in each turn
  induction pieces, missing, read using Link.receiveMore.induct with
  | case1 pieces read =>
    rw [Link.receiveMore]
    exact keeps_pure
  | case2 missing read =>
    rw [Link.receiveMore]
    exact keeps_throw
  | case3 pieces missing read ih =>
    rw [Link.receiveMore]
    refine (keeps_nextPiece hwait).bind fun bytes => ?_
    split
    · exact keeps_throw
    · split
      · exact ih bytes
      · exact keeps_modifyUnread.bind fun _ => keeps_pure

theorem keeps_receive (hwait : KeptByWaiting P) (n : ℕ) :
    Keeps P (Link.receive n : LinkM ω ρ Bytes) := by
  refine keeps_getLink.bind fun l => ?_
  exact keeps_modifyUnread.bind fun _ => keeps_receiveMore hwait _ _ _

/-- Exchanges that do nothing but receive. -/
inductive Receives : {α : Type} → LinkM ω ρ α → Prop
  | pure {α : Type} (a : α) : Receives (pure a)
  | throw {α : Type} (e : Halt) : Receives (throw e : LinkM ω ρ α)
  | receive (n : ℕ) : Receives (Link.receive n)
  | bind {α β : Type} {act : LinkM ω ρ α} {next : α → LinkM ω ρ β} (first : Receives act)
    (rest : ∀ a, Receives (next a)) : Receives (act >>= next)

theorem Receives.keeps (hwait : KeptByWaiting P) {act : LinkM ω ρ α} (h : Receives act) :
    Keeps P act := by
  induction h with
  | pure a => exact keeps_pure
  | throw e => exact keeps_throw
  | receive n => exact keeps_receive hwait n
  | bind _ _ hfirst hrest => exact hfirst.bind hrest

end Keeping

/-- Receiving gives the far end nothing, also if it halts. -/
theorem Receives.silent (hkeep : KeepsLog ω Log) {act : LinkM ω ρ α} (h : Receives act)
    (hlog : Log l.remote g s) (hm : Meets act l w r l' w') : ∃ s', Log l'.remote g s' := by
  have hwait : KeptByWaiting fun x (_ : ω) => ∃ s, Log x g s := by
    intro x w arrival x' w' hs hawait
    rcases hs with ⟨s, hs⟩
    exact ⟨_, hkeep.await hs hawait⟩
  exact h.keeps hwait ⟨s, hlog⟩ hm

/-- While bytes are missing, nothing is left unread. -/
theorem logs_receiveMore (hkeep : KeepsLog ω Log) {pieces missing : ℕ} {read : List Bytes}
    {bytes : Bytes} (hlog : Link.Logs Log l g h) (hunread : missing = 0 ∨ l.unread = [])
    (hm : Meets (Link.receiveMore pieces missing read) l w (.ok bytes) l' w') :
    ∃ c, bytes = read.reverse.flatten ++ c ∧ c.length = missing ∧
      Link.Logs Log l' g (h ++ c) := by
  induction pieces, missing, read using Link.receiveMore.induct generalizing l w h with
  | case1 pieces read =>
    rw [Link.receiveMore] at hm
    rcases meets_pure.1 hm with ⟨hbytes, rfl, -⟩
    cases hbytes
    exact ⟨[], by simp, rfl, by simpa using hlog⟩
  | case2 missing read =>
    rw [Link.receiveMore] at hm
    rcases meets_throw.1 hm with ⟨hbytes, -⟩
    cases hbytes
  | case3 pieces missing read ih =>
    -- a piece comes right behind what is read, since nothing is unread
    have hempty : l.unread = [] := by
      rcases hunread with hzero | hempty
      · omega
      · exact hempty
    rw [Link.receiveMore] at hm
    rcases meets_bind_ok.1 hm with ⟨piece, l₁, w₁, hpiece, hrest⟩
    rcases hawait : Remote.await l.remote w with ⟨arrival, x, v⟩
    rcases (meets_nextPiece hawait).1 hpiece with ⟨harrival, rfl, rfl⟩
    have harrived : arrival.bytes = piece := by
      cases arrival with
      | piece bytes =>
        cases harrival
        rfl
      | failed e => cases harrival
      | nothing => cases harrival
    have hlog₁ : Log x g (h ++ piece) := by
      have hnow := hkeep.await hlog hawait
      rw [harrived, hempty, List.append_nil] at hnow
      exact hnow
    split at hrest
    · exact absurd hrest not_meets_fail
    · split at hrest
      · rename_i hshort
        -- the whole piece belongs to what is missing
        have hlogs : Link.Logs Log ⟨l.unread, x⟩ g (h ++ piece) := by
          unfold Link.Logs
          rw [hempty, List.append_nil]
          exact hlog₁
        rcases ih piece hlogs (.inr hempty) hrest with ⟨c, hbytes, hlen, hlogs'⟩
        refine ⟨piece ++ c, ?_, ?_, ?_⟩
        · rw [hbytes]
          simp
        · rw [List.length_append, hlen]
          omega
        · rw [← List.append_assoc]
          exact hlogs'
      · rename_i hlong
        -- the rest of the piece stays unread
        rcases meets_bind_ok.1 hrest with ⟨_, l₂, w₂, hset, hreturn⟩
        rcases meets_modifyState.1 hset with ⟨-, rfl, rfl⟩
        rcases meets_pure.1 hreturn with ⟨hbytes, rfl, -⟩
        cases hbytes
        refine ⟨piece.take (missing + 1), by simp, ?_, ?_⟩
        · rw [List.length_take]
          omega
        · unfold Link.Logs
          rw [List.append_assoc, List.take_append_drop]
          exact hlog₁

/-- Receiving reads on in what the far end has said. -/
theorem logs_receive (hkeep : KeepsLog ω Log) {n : ℕ} {bytes : Bytes}
    (hlog : Link.Logs Log l g h) (hm : Meets (Link.receive n) l w (.ok bytes) l' w') :
    bytes.length = n ∧ Link.Logs Log l' g (h ++ bytes) := by
  unfold Link.receive at hm
  rw [meets_getState_bind, meets_modifyState_bind] at hm
  have hlog₁ : Link.Logs Log { l with unread := l.unread.drop n } g (h ++ l.unread.take n) := by
    unfold Link.Logs
    rw [List.append_assoc, List.take_append_drop]
    exact hlog
  -- reading on begins only when nothing is unread any more
  have hunread : n - l.unread.length = 0 ∨ l.unread.drop n = [] := by
    rw [List.drop_eq_nil_iff]
    omega
  rcases logs_receiveMore hkeep hlog₁ hunread hm with ⟨c, hbytes, hlen, hlogs⟩
  have hall : bytes = l.unread.take n ++ c := by simpa using hbytes
  rw [hall, ← List.append_assoc]
  refine ⟨?_, hlogs⟩
  rw [List.length_append, List.length_take, hlen]
  omega

/-! ## Sending -/

/-- An exchange gives its far end the bytes `c`, or some of them if it halts. -/
def Tells (Log : ρ → Bytes → Bytes → Prop) (act : LinkM ω ρ α) (c : Bytes) : Prop :=
  ∀ ⦃l w r l' w' g h⦄, Link.Logs Log l g h → Meets act l w r l' w' →
    ∃ p, p <+: c ∧ Link.Logs Log l' (g ++ p) h ∧ ∀ a, r = .ok a → p = c

omit [Remote ω ρ] in
theorem tells_pure {a : α} : Tells Log (pure a : LinkM ω ρ α) [] := by
  intro l w r l' w' g h hlog hm
  rcases meets_pure.1 hm with ⟨-, rfl, -⟩
  exact ⟨[], List.prefix_rfl, by simpa using hlog, fun _ _ => rfl⟩

omit [Remote ω ρ] in
theorem tells_throw {e : Halt} (c : Bytes) : Tells Log (throw e : LinkM ω ρ α) c := by
  intro l w r l' w' g h hlog hm
  rcases meets_throw.1 hm with ⟨rfl, rfl, -⟩
  exact ⟨[], List.nil_prefix, by simpa using hlog, fun _ h => by cases h⟩

omit [Remote ω ρ] in
theorem Tells.bind {act : LinkM ω ρ α} {next : α → LinkM ω ρ β} {c c' : Bytes}
    (hact : Tells Log act c) (hnext : ∀ a, Tells Log (next a) c') :
    Tells Log (act >>= next) (c ++ c') := by
  intro l w r l' w' g h hlog hm
  rcases meets_bind.1 hm with ⟨a, l₁, w₁, hfirst, hrest⟩ | ⟨e, rfl, hfirst⟩
  · -- the first part was written as a whole
    rcases hact hlog hfirst with ⟨p, -, hlog₁, hp⟩
    obtain rfl := hp a rfl
    rcases hnext a hlog₁ hrest with ⟨p', hprefix, hlog', hp'⟩
    refine ⟨p ++ p', (List.prefix_append_right_inj p).2 hprefix, ?_, fun b hb => ?_⟩
    · rw [← List.append_assoc]
      exact hlog'
    · rw [hp' b hb]
  · -- it was cut, and nothing came behind it
    rcases hact hlog hfirst with ⟨p, hprefix, hlog', -⟩
    exact ⟨p, hprefix.trans (List.prefix_append c c'), hlog', fun _ h => by cases h⟩

/-- A write is offered all bytes, and what it does not take is written after it. -/
theorem meets_writeWithin {writes : ℕ} {bytes : Bytes} {taken : Except LinkError ℕ} {x : ρ}
    {v : ω} {r : Except Halt Unit} (hne : bytes ≠ [])
    (hwrite : Remote.write bytes l.remote w = (taken, x, v)) :
    Meets (Link.writeWithin (writes + 1) bytes) l w r l' w' ↔ Meets (match taken with
      | .error e => throw (.failed e)
      | .ok 0 => Link.fail (.bare .writeZero)
      | .ok n => Link.writeWithin writes (bytes.drop n)) ⟨l.unread, x⟩ v r l' w' := by
  rcases List.exists_cons_of_ne_nil hne with ⟨first, rest, rfl⟩
  rw [Link.writeWithin, meets_getState_bind, meets_getWorld_bind, hwrite]
  · exact meets_setWorld_bind.trans meets_setState_bind
  · exact hne

theorem meets_writeWithin_nil {writes : ℕ} {r : Except Halt Unit} :
    Meets (Link.writeWithin writes [] : LinkM ω ρ Unit) l w r l' w' ↔
      r = .ok () ∧ l' = l ∧ w' = w := by
  cases writes <;> exact meets_pure

/-- Every write takes at least one byte or fails, so that writing never waits forever. -/
theorem not_stalled_writeWithin {writes : ℕ} {bytes : Bytes} (hwrites : bytes.length ≤ writes) :
    ¬ Meets (Link.writeWithin writes bytes) l w (.error .stalled) l' w' := by
  intro hm
  -- a write that takes nothing fails, all others leave less to be written
  induction writes generalizing bytes l w with
  | zero =>
    obtain rfl := List.length_eq_zero_iff.1 (Nat.le_zero.1 hwrites)
    cases (meets_writeWithin_nil.1 hm).1
  | succ writes ih =>
    by_cases hnil : bytes = []
    · subst hnil
      cases (meets_writeWithin_nil.1 hm).1
    rcases hwrite : Remote.write bytes l.remote w with ⟨e | n, x, v⟩
    · rw [meets_writeWithin hnil hwrite] at hm
      cases (meets_throw.1 hm).1
    · rw [meets_writeWithin hnil hwrite] at hm
      cases n with
      | zero => cases (meets_throw.1 hm).1
      | succ n =>
        refine ih ?_ hm
        rw [List.length_drop]
        omega

/-- An exchange that never waits forever. -/
def Prompt (act : LinkM ω ρ α) : Prop := ∀ ⦃l w l' w'⦄, ¬ Meets act l w (.error .stalled) l' w'

theorem prompt_writeAll (bytes : Bytes) : Prompt (Link.writeAll bytes : LinkM ω ρ Unit) :=
  fun _ _ _ _ => not_stalled_writeWithin le_rfl

omit [Remote ω ρ] in
theorem prompt_fail (e : LinkError) : Prompt (Link.fail e : LinkM ω ρ α) := by
  intro l w l' w' hm
  cases (meets_throw.1 hm).1

omit [Remote ω ρ] in
theorem Prompt.bind {act : LinkM ω ρ α} {next : α → LinkM ω ρ β} (hact : Prompt act)
    (hnext : ∀ a, Prompt (next a)) : Prompt (act >>= next) := by
  intro l w l' w' hm
  rcases meets_bind.1 hm with ⟨a, l₁, w₁, -, hrest⟩ | ⟨e, he, hfirst⟩
  · exact hnext a hrest
  · cases he
    exact hact hfirst

/-- A far end that takes all bytes at once is written to once. -/
theorem meets_writeAll {bytes : Bytes} {x : ρ} {v : ω} (hne : bytes ≠ [])
    (hwrite : Remote.write bytes l.remote w = (.ok bytes.length, x, v)) :
    Meets (Link.writeAll bytes) l w (.ok ()) ⟨l.unread, x⟩ v := by
  unfold Link.writeAll
  rcases List.exists_cons_of_ne_nil hne with ⟨first, rest, hbytes⟩
  have hlen : bytes.length = rest.length + 1 := by rw [hbytes, List.length_cons]
  have hdrop : bytes.drop (rest.length + 1) = [] := by rw [← hlen, List.drop_length]
  rw [hlen] at hwrite ⊢
  rw [meets_writeWithin hne hwrite]
  change Meets (Link.writeWithin rest.length (bytes.drop (rest.length + 1))) _ _ _ _ _
  rw [hdrop]
  exact meets_writeWithin_nil.2 ⟨rfl, rfl, rfl⟩

/-- What holds of a far end and the world still holds when it was written to. -/
def KeptByWriting (P : ρ → ω → Prop) : Prop :=
  ∀ ⦃bytes x w taken x' w'⦄, P x w → Remote.write bytes x w = (taken, x', w') → P x' w'

theorem keeps_writeWithin {P : ρ → ω → Prop} (hwrite : KeptByWriting P) (writes : ℕ)
    (bytes : Bytes) : Keeps P (Link.writeWithin writes bytes : LinkM ω ρ Unit) := by
  -- each write keeps it, as the hypothesis says of a single one
  induction writes generalizing bytes with
  | zero =>
    cases bytes with
    | nil => exact keeps_pure
    | cons first rest => exact keeps_throw
  | succ writes ih =>
    by_cases hnil : bytes = []
    · subst hnil
      exact keeps_pure
    intro l w r l' w' hp hm
    rcases hfirst : Remote.write bytes l.remote w with ⟨taken, x, v⟩
    have hp₁ : P x v := hwrite hp hfirst
    rw [meets_writeWithin hnil hfirst] at hm
    rcases taken with e | n
    · exact keeps_throw (l := ⟨l.unread, x⟩) hp₁ hm
    · cases n with
      | zero => exact keeps_throw (l := ⟨l.unread, x⟩) hp₁ hm
      | succ n => exact ih _ (l := ⟨l.unread, x⟩) hp₁ hm

theorem tells_writeWithin (hkeep : KeepsLog ω Log) (writes : ℕ) (bytes : Bytes) :
    Tells Log (Link.writeWithin writes bytes : LinkM ω ρ Unit) bytes := by
  induction writes generalizing bytes with
  | zero =>
    cases bytes with
    | nil => exact tells_pure
    | cons b bytes => exact tells_throw _
  | succ writes ih =>
    cases hbytes : bytes with
    | nil => exact tells_pure
    | cons b rest =>
      rw [← hbytes]
      intro l w r l' w' g h hlog hm
      have hne : bytes ≠ [] := by
        rw [hbytes]
        exact List.cons_ne_nil b rest
      rcases hwrite : Remote.write bytes l.remote w with ⟨taken, x, v⟩
      rw [meets_writeWithin hne hwrite] at hm
      rcases taken with e | n
      · -- a write that fails has written nothing
        rcases meets_throw.1 hm with ⟨rfl, rfl, -⟩
        refine ⟨[], List.nil_prefix, ?_, fun _ h => by cases h⟩
        rw [List.append_nil]
        exact hkeep.write_error hlog hwrite
      · have hlog₁ : Link.Logs Log ⟨l.unread, x⟩ (g ++ bytes.take n) h := hkeep.write hlog hwrite
        cases n with
        | zero =>
          rcases meets_throw.1 hm with ⟨rfl, rfl, -⟩
          exact ⟨[], List.nil_prefix, hlog₁, fun _ h => by cases h⟩
        | succ n =>
          -- what was taken is in front of what the later writes take
          rcases ih (bytes.drop (n + 1)) hlog₁ hm with ⟨p, hprefix, hlog', hp⟩
          refine ⟨bytes.take (n + 1) ++ p, ?_, ?_, fun a ha => ?_⟩
          · conv_rhs => rw [← List.take_append_drop (n + 1) bytes]
            exact (List.prefix_append_right_inj _).2 hprefix
          · rw [← List.append_assoc]
            exact hlog'
          · rw [hp a ha, List.take_append_drop]

theorem tells_writeAll (hkeep : KeepsLog ω Log) (bytes : Bytes) :
    Tells Log (Link.writeAll bytes : LinkM ω ρ Unit) bytes :=
  tells_writeWithin hkeep _ _

end FleetEstimate
