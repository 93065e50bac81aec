import FleetEstimate.Proofs.Wire.Sequences

/-!
# Far ends that run short of room

A far end may take a message in as many bits as it likes, and after so many bytes it may take
no more. What it has then is what was to be sent, cut off at its room: a message goes through
if all of its bytes fit, and behind the first one that does not, nothing is written any more.
-/

namespace FleetEstimate

variable {ω ρ : Type} [Remote ω ρ]

/-- Far ends `x` that were given the bytes `given` and have room for so many more, for
`Room x given room`. While there is room they take some of the bytes that they are offered, and
never more than there is room for. -/
structure Takes (ω : Type) [Remote ω ρ] (Room : ρ → (given : Bytes) → (room : ℕ) → Prop) :
    Prop where
  write : ∀ {bytes x given room} (w : ω), bytes ≠ [] → Room x given room →
    ∃ n x' w', Remote.write bytes x w = (.ok n, x', w') ∧ n ≤ bytes.length ∧ n ≤ room ∧
      (0 < room → 0 < n) ∧ Room x' (given ++ bytes.take n) (room - n)

/-- What comes of bytes that are sent where there is so much room. -/
def outcome (room : ℕ) (bytes : Bytes) : Except Halt Unit :=
  if bytes.length ≤ room then .ok () else .error (.failed (.bare .writeZero))

variable {Room : ρ → Bytes → ℕ → Prop} {c c' : Bytes}

/-- An exchange sends the bytes `c` as far as there is room, and fails if that is not far
enough. -/
def Fills (Room : ρ → Bytes → ℕ → Prop) (act : LinkM ω ρ Unit) (c : Bytes) : Prop :=
  ∀ ⦃l w given room⦄, Room l.remote given room →
    ∃ l' w', Meets act l w (outcome room c) l' w' ∧
      Room l'.remote (given ++ c.take room) (room - c.length)

omit [Remote ω ρ] in
theorem fills_pure : Fills Room (pure () : LinkM ω ρ Unit) [] := by
  intro l w given room hroom
  refine ⟨l, w, meets_pure.2 ⟨rfl, rfl, rfl⟩, ?_⟩
  rw [List.take_nil, List.append_nil]
  exact hroom

omit [Remote ω ρ] in
theorem Fills.bind {act next : LinkM ω ρ Unit} (hact : Fills Room act c)
    (hnext : Fills Room next c') : Fills Room (act >>= fun _ => next) (c ++ c') := by
  intro l w given room hroom
  rcases hact (w := w) hroom with ⟨l₁, w₁, hfirst, hroom₁⟩
  by_cases hfits : c.length ≤ room
  · rcases hnext (w := w₁) hroom₁ with ⟨l', w', hrest, hroom'⟩
    have hsame : outcome (room - c.length) c' = outcome room (c ++ c') := by
      unfold outcome
      rw [List.length_append]
      congr 1
      exact propext ⟨fun h => by omega, fun h => by omega⟩
    rw [outcome, if_pos hfits] at hfirst
    rw [hsame] at hrest
    refine ⟨l', w', (meets_bind_of_ok hfirst).2 hrest, ?_⟩
    rw [List.take_append, List.length_append, ← Nat.sub_sub, ← List.append_assoc]
    exact hroom'
  · -- the room is used up before the second part comes to its turn
    have hall : ¬ (c ++ c').length ≤ room := by
      rw [List.length_append]
      omega
    rw [outcome, if_neg hfits] at hfirst
    refine ⟨l₁, w₁, ?_, ?_⟩
    · rw [outcome, if_neg hall]
      exact meets_bind_of_error hfirst
    · have htake : (c ++ c').take room = c.take room :=
        List.take_append_of_le_length (by omega)
      have hzero : room - (c ++ c').length = room - c.length := by omega
      rw [htake, hzero]
      exact hroom₁

theorem fills_writeWithin (htakes : Takes ω Room) {writes : ℕ} {bytes : Bytes}
    (hwrites : bytes.length ≤ writes) :
    Fills Room (Link.writeWithin writes bytes : LinkM ω ρ Unit) bytes := by
  induction writes generalizing bytes with
  | zero =>
    obtain rfl := List.length_eq_zero_iff.1 (Nat.le_zero.1 hwrites)
    exact fills_pure
  | succ writes ih =>
    by_cases hnil : bytes = []
    · subst hnil
      exact fills_pure
    intro l w given room hroom
    rcases htakes.write w hnil hroom with ⟨n, x, v, hwrite, hlen, hle, hsome, hroom₁⟩
    cases n with
    | zero =>
      -- nothing is taken only where there is no room at all
      obtain rfl : room = 0 := by
        by_contra hne
        exact absurd (hsome (Nat.pos_of_ne_zero hne)) (lt_irrefl 0)
      have hlong : ¬ bytes.length ≤ 0 := by
        have hpos := List.length_pos_of_ne_nil hnil
        omega
      refine ⟨⟨l.unread, x⟩, v, ?_, ?_⟩
      · rw [meets_writeWithin hnil hwrite, outcome, if_neg hlong]
        exact meets_throw.2 ⟨rfl, rfl, rfl⟩
      · rw [Nat.zero_sub]
        exact hroom₁
    | succ n =>
      have hdrop : (bytes.drop (n + 1)).length ≤ writes := by
        rw [List.length_drop]
        omega
      rcases ih hdrop (w := v) (l := ⟨l.unread, x⟩) hroom₁ with ⟨l', w', hrest, hroom'⟩
      have hsame : outcome (room - (n + 1)) (bytes.drop (n + 1)) = outcome room bytes := by
        unfold outcome
        rw [List.length_drop]
        congr 1
        exact propext ⟨fun h => by omega, fun h => by omega⟩
      rw [hsame] at hrest
      refine ⟨l', w', (meets_writeWithin hnil hwrite).2 hrest, ?_⟩
      have htake : bytes.take room =
          bytes.take (n + 1) ++ (bytes.drop (n + 1)).take (room - (n + 1)) := by
        rw [← List.take_add, Nat.add_sub_of_le hle]
      have hrest : room - bytes.length = room - (n + 1) - (bytes.drop (n + 1)).length := by
        rw [List.length_drop]
        omega
      rw [htake, hrest, ← List.append_assoc]
      exact hroom'

/-- Whatever is sent fills the room. -/
theorem Sends.fills (htakes : Takes ω Room) {act : LinkM ω ρ Unit} (h : Sends act c) :
    Fills Room act c := by
  rcases h with ⟨ps, rfl, rfl, -⟩
  induction ps with
  | nil => exact fills_pure
  | cons p ps ih => exact (fills_writeWithin htakes le_rfl).bind ih

/-! ## Messages in a row -/

omit [Remote ω ρ] in
/-- An action that is observed comes to an end, whatever it comes to. -/
theorem meets_observing {σ α : Type} {act : HaltM ω σ α} {l l' : σ} {w w' : ω}
    {r : Except Halt α} (hm : Meets act l w r l' w') :
    Meets (observing act) l w (.ok r) l' w' := by
  have hrun : act l w = ((r, l'), w') := hm
  unfold Meets
  simp only [observing, StateT.run, ExceptT.run, tryCatch, tryCatchThe, MonadExceptOf.tryCatch,
    ExceptT.tryCatch, bind, StateT.bind, ExceptT.bind, ExceptT.bindCont, ExceptT.mk, hrun]
  cases r <;> rfl

namespace Message

/-- Sends each message, whatever comes of those before it. -/
def sendEach : List Message → LinkM ω ρ (List (Except Halt Unit))
  | [] => return []
  | m :: ms => do
    let outcome ← observing m.send
    return outcome :: (← sendEach ms)

/-- What comes of messages that are sent where there is so much room. -/
def outcomes : (room : ℕ) → List Message → List (Except Halt Unit)
  | _, [] => []
  | room, m :: ms => outcome room m.encode :: outcomes (room - m.encode.length) ms

variable {ms before after : List Message} {m : Message} {room : ℕ}

theorem meets_sendEach (htakes : Takes ω Room) (hms : ∀ m ∈ ms, m.Fits) {l : Link ρ} {w : ω}
    {given : Bytes} (hroom : Room l.remote given room) :
    ∃ l' w', Meets (sendEach ms) l w (.ok (outcomes room ms)) l' w' ∧
      Room l'.remote (given ++ (ms.flatMap encode).take room)
        (room - (ms.flatMap encode).length) := by
  -- each message finds the room that those before it have left
  induction ms generalizing l w given room with
  | nil =>
    refine ⟨l, w, meets_pure.2 ⟨rfl, rfl, rfl⟩, ?_⟩
    rw [List.flatMap_nil, List.take_nil, List.append_nil]
    exact hroom
  | cons m ms ih =>
    have hm : m.Fits := hms m List.mem_cons_self
    have hms' : ∀ m ∈ ms, m.Fits := fun m' hm' => hms m' (List.mem_cons_of_mem m hm')
    rcases (sends_send hm).fills htakes (w := w) hroom with ⟨l₁, w₁, hsend, hroom₁⟩
    rcases ih hms' (w := w₁) hroom₁ with ⟨l', w', hrest, hroom'⟩
    refine ⟨l', w', ?_, ?_⟩
    · rw [sendEach, meets_bind_of_ok (meets_observing hsend), meets_bind_of_ok hrest]
      exact meets_pure.2 ⟨rfl, rfl, rfl⟩
    · rw [List.flatMap_cons, List.take_append, List.length_append, ← Nat.sub_sub,
        ← List.append_assoc]
      exact hroom'

/-- Without room, nothing goes through but what needs none. -/
theorem outcomes_zero (ms : List Message) :
    outcomes 0 ms = ms.map fun m =>
      if m.encode = [] then .ok () else .error (.failed (.bare .writeZero)) := by
  induction ms with
  | nil => rfl
  | cons m ms ih =>
    rw [outcomes, Nat.zero_sub, ih, List.map_cons, outcome]
    simp only [Nat.le_zero, List.length_eq_zero_iff]

/-- The first message that does not fit fails, and then there is no room any more. -/
theorem outcomes_of_short (hbefore : (before.flatMap encode).length ≤ room)
    (hshort : room < ((before ++ [m]).flatMap encode).length) :
    outcomes room (before ++ m :: after) = List.replicate before.length (.ok ()) ++
      .error (.failed (.bare .writeZero)) :: after.map fun m' =>
        if m'.encode = [] then .ok () else .error (.failed (.bare .writeZero)) := by
  -- the messages in front fit and take their room away
  induction before generalizing room with
  | nil =>
    rw [List.nil_append, List.flatMap_cons, List.flatMap_nil, List.append_nil] at hshort
    -- the one that does not fit takes what is left
    have hzero : room - m.encode.length = 0 := by omega
    rw [List.nil_append, outcomes, hzero, outcomes_zero, outcome, if_neg (not_le.2 hshort)]
    rfl
  | cons first before ih =>
    rw [List.flatMap_cons, List.length_append] at hbefore
    rw [List.cons_append, List.flatMap_cons, List.length_append] at hshort
    rw [List.cons_append, outcomes, ih (by omega) (by omega), outcome, if_pos (by omega)]
    rfl

/-- A far end with room for so many bytes was given exactly the first so many of what was to be
sent, in whatever portions it took them. A message goes through if all of its bytes fit. The
first that does not fit fails, and of all that come after it nothing is written: they fail as
well, unless they have no bytes that would have to be taken. -/
theorem sent_within_room (htakes : Takes ω Room) (hms : ∀ m ∈ ms, m.Fits) {l : Link ρ}
    {given : Bytes} (hroom : Room l.remote given room) (w : ω) :
    (∃ l' w', Meets (sendEach ms) l w (.ok (outcomes room ms)) l' w' ∧
      Room l'.remote (given ++ (ms.flatMap encode).take room)
        (room - (ms.flatMap encode).length)) ∧
    ∀ before m after, ms = before ++ m :: after → (before.flatMap encode).length ≤ room →
      room < ((before ++ [m]).flatMap encode).length →
        outcomes room ms = List.replicate before.length (.ok ()) ++
          .error (.failed (.bare .writeZero)) :: (after.map fun m' =>
            if m'.encode = [] then .ok () else .error (.failed (.bare .writeZero))) ∧
        (ms.flatMap encode).take room = ((before ++ [m]).flatMap encode).take room := by
  refine ⟨meets_sendEach htakes hms hroom, ?_⟩
  intro before m after hsplit hbefore hshort
  subst hsplit
  refine ⟨outcomes_of_short hbefore hshort, ?_⟩
  -- behind the message that does not fit nothing is written
  have hall : (before ++ m :: after).flatMap encode =
      (before ++ [m]).flatMap encode ++ after.flatMap encode := by
    rw [← List.flatMap_append, List.append_assoc, List.singleton_append]
  rw [hall, List.take_append_of_le_length hshort.le]

end Message

/-! ## Recorded connections -/

namespace Stream

variable {x : Stream} {bytes : Bytes}

/-- A recorded connection that was given some bytes and takes so many more. -/
structure Limited (x : Stream) (given : Bytes) (room : ℕ) : Prop where
  written : x.output = given
  maxWrite : x.maxWrite ≠ some 0
  room : x.room = some room

/-- A recorded connection takes what it can at once and has room for. -/
theorem length_taken (x : Stream) (bytes : Bytes) : (x.taken bytes).length =
    min (x.room.getD bytes.length) (min (x.maxWrite.getD bytes.length) bytes.length) := by
  unfold taken
  cases x.maxWrite <;> cases x.room <;> simp

theorem takes_limited (ω : Type) : Takes ω Limited where
  write {bytes x given room} w hne h := by
    have hlen := length_taken x bytes
    have hpos := List.length_pos_of_ne_nil hne
    rw [h.room, Option.getD_some] at hlen
    -- a write takes at least one byte while there is room
    have hmost : 0 < x.maxWrite.getD bytes.length := by
      cases hmax : x.maxWrite with
      | none => exact hpos
      | some most =>
        refine Nat.pos_of_ne_zero ?_
        intro hzero
        exact h.maxWrite (by rw [hmax, ← hzero]; rfl)
    refine ⟨(x.taken bytes).length, (x.write bytes).2, w, rfl, by omega, by omega, by omega, ?_,
      h.maxWrite, ?_⟩
    · rw [output_write, h.written, ← List.prefix_iff_eq_take.1 (taken_isPrefix x bytes)]
    · unfold Stream.write
      dsimp only
      rw [h.room]
      rfl

end Stream

namespace Message

/-- Messages of 4, 11, 8 and 4 bytes. -/
def farewell : List Message := [.tag .work, .text "abc", .real 1, .tag .die]

/-- A far end that takes three bytes at a time, and twenty in all. -/
def narrow : Stream := ⟨[], .closed, #[], some 3, some 20⟩

/-- The number is cut off behind its fifth byte, and the last tag is not begun. -/
theorem farewell_sent : ∃ l', Meets (sendEach farewell) (Link.new narrow) ()
      (.ok [.ok (), .ok (), .error (.failed (.bare .writeZero)),
        .error (.failed (.bare .writeZero))]) l' () ∧
    l'.remote.output = (farewell.flatMap encode).take 20 := by
  have hms : ∀ m ∈ farewell, m.Fits := by decide +kernel
  have hroom : Stream.Limited (Link.new narrow).remote [] 20 := ⟨rfl, nofun, rfl⟩
  rcases sent_within_room (Stream.takes_limited Unit) hms hroom () with ⟨⟨l', w', hm, hroom'⟩, -⟩
  exact ⟨l', hm, hroom'.written⟩

end Message

end FleetEstimate
