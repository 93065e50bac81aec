import FleetEstimate.Proofs.Wire.Reading
import FleetEstimate.Proofs.Wire.Sending

/-!
# Recorded connections

A recorded connection keeps its own log. One that takes everything says what it was given to
say, however that is cut into pieces, and has written what was sent over it.
-/

namespace FleetEstimate

/-! ## The log of a stream -/

/-- A recorded connection that takes everything: what was written to it, and what of `all`
it has said. -/
structure Stream.Log (all : Bytes) (x : Stream) (g h : Bytes) : Prop where
  written : x.output = g
  incoming : h ++ x.incoming.flatten = all
  unlimited : x.maxWrite = none ∧ x.room = none

namespace Stream

variable {all g h : Bytes} {x x' : Stream} {arrival : Arrival}

theorem flatten_dropWhile (pieces : List Bytes) :
    (pieces.dropWhile List.isEmpty).flatten = pieces.flatten := by
  induction pieces with
  | nil => rfl
  | cons p pieces ih =>
    cases p with
    | nil => exact ih
    | cons b p => rfl

/-- While there is something to say, a piece of it comes next. -/
theorem next_of_ne_nil (hne : x.incoming.flatten ≠ []) :
    ∃ p rest, p ≠ [] ∧ x.incoming.flatten = p ++ rest.flatten ∧
      x.next = (.piece p, { x with incoming := rest }) := by
  have hflat := flatten_dropWhile x.incoming
  cases hdrop : x.incoming.dropWhile List.isEmpty with
  | nil =>
    rw [hdrop] at hflat
    exact absurd hflat.symm hne
  | cons p rest =>
    -- pieces without bytes are passed over
    have hp : p ≠ [] := by
      have hhead := List.head?_dropWhile_not List.isEmpty x.incoming
      rw [hdrop] at hhead
      simpa using hhead
    rw [hdrop, List.flatten_cons] at hflat
    refine ⟨p, rest, hp, hflat.symm, ?_⟩
    unfold Stream.next
    rw [hdrop]

/-- With nothing left to say, a recorded connection comes to its end. -/
theorem next_of_nil (hnil : x.incoming.flatten = []) :
    x.next = (x.ending.arrival, { x with incoming := [] }) := by
  have hflat := flatten_dropWhile x.incoming
  rw [hnil] at hflat
  have hdrop : x.incoming.dropWhile List.isEmpty = [] := by
    cases hdrop : x.incoming.dropWhile List.isEmpty with
    | nil => rfl
    | cons p rest =>
      -- a piece with bytes would be something to say
      have hhead := List.head?_dropWhile_not List.isEmpty x.incoming
      rw [hdrop] at hhead hflat
      rw [List.flatten_cons, List.append_eq_nil_iff] at hflat
      simp [hflat.1] at hhead
  unfold Stream.next
  rw [hdrop]
  cases x.ending <;> rfl

/-- What comes next is taken from what is still to come, and nothing else changes. -/
theorem next_eq (hnext : x.next = (arrival, x')) :
    x.incoming.flatten = arrival.bytes ++ x'.incoming.flatten ∧
      x' = { x with incoming := x'.incoming } := by
  by_cases hnil : x.incoming.flatten = []
  · rw [next_of_nil hnil] at hnext
    cases hnext
    rw [hnil]
    -- the end of a stream has no bytes
    constructor
    · cases x.ending <;> rfl
    · rfl
  · rcases next_of_ne_nil hnil with ⟨p, rest, -, hbytes, hnext'⟩
    rw [hnext'] at hnext
    cases hnext
    exact ⟨hbytes, rfl⟩

/-- What a write takes is written behind what was written before. -/
theorem output_write (x : Stream) (bytes : Bytes) :
    (x.write bytes).2.output = x.output ++ x.taken bytes := by
  unfold Stream.write output
  dsimp only
  by_cases hnil : x.taken bytes = []
  · rw [hnil, List.append_nil]
    rfl
  · rw [if_neg (by simp [hnil])]
    simp

theorem taken_isPrefix (x : Stream) (bytes : Bytes) : x.taken bytes <+: bytes := by
  unfold taken
  cases x.maxWrite with
  | none =>
    cases x.room with
    | none => exact List.prefix_rfl
    | some room => exact List.take_prefix room bytes
  | some most =>
    cases x.room with
    | none => exact List.take_prefix most bytes
    | some room => exact (List.take_prefix room _).trans (List.take_prefix most bytes)

theorem Log.isPrefix (hlog : Log all x g h) : h <+: all := ⟨_, hlog.incoming⟩

theorem Log.next (hlog : Log all x g h) (hnext : x.next = (arrival, x')) :
    Log all x' g (h ++ arrival.bytes) := by
  rcases next_eq hnext with ⟨hbytes, hrest⟩
  refine ⟨?_, ?_, ?_⟩
  · rw [hrest]
    exact hlog.written
  · rw [← hlog.incoming, hbytes, List.append_assoc]
  · rw [hrest]
    exact hlog.unlimited

theorem taken_eq (hlog : Log all x g h) (bytes : Bytes) : x.taken bytes = bytes := by
  unfold taken
  rw [hlog.unlimited.1, hlog.unlimited.2]

theorem Log.write (hlog : Log all x g h) (bytes : Bytes) :
    (x.write bytes).1 = bytes.length ∧ Log all (x.write bytes).2 (g ++ bytes) h := by
  have htaken := taken_eq hlog bytes
  refine ⟨?_, ?_, hlog.incoming, hlog.unlimited.1, ?_⟩
  · unfold Stream.write
    rw [htaken]
  · rw [output_write, htaken, hlog.written]
  · unfold Stream.write
    dsimp only
    rw [hlog.unlimited.2]
    rfl

theorem keepsLog (ω : Type) (all : Bytes) : KeepsLog ω (Log all) where
  write {bytes x w n x' w' g s} hlog hwrite := by
    rcases hlog.write bytes with ⟨hlen, hlog'⟩
    have hn : (x.write bytes).1 = n ∧ (x.write bytes).2 = x' := by
      cases hwrite
      exact ⟨rfl, rfl⟩
    rcases hn with ⟨rfl, rfl⟩
    rw [hlen, List.take_length]
    exact hlog'
  write_error _ hwrite := by cases hwrite
  poll hlog hpoll := hlog.next hpoll
  await hlog hawait := by
    cases hawait
    exact hlog.next rfl

/-- What was written to a recorded connection, however little it takes at a time, and what of
`all` it has said. -/
structure Trace (all : Bytes) (x : Stream) (g h : Bytes) : Prop where
  written : x.output = g
  incoming : h ++ x.incoming.flatten = all

theorem Trace.write (htrace : Trace all x g h) (bytes : Bytes) :
    Trace all (x.write bytes).2 (g ++ bytes.take (x.write bytes).1) h := by
  refine ⟨?_, htrace.incoming⟩
  rw [output_write, htrace.written]
  exact congrArg (g ++ ·) (List.prefix_iff_eq_take.1 (taken_isPrefix x bytes))

theorem Trace.next (htrace : Trace all x g h) (hnext : x.next = (arrival, x')) :
    Trace all x' g (h ++ arrival.bytes) := by
  rcases next_eq hnext with ⟨hbytes, hrest⟩
  refine ⟨?_, ?_⟩
  · rw [hrest]
    exact htrace.written
  · rw [← htrace.incoming, hbytes, List.append_assoc]

theorem keepsTrace (ω : Type) (all : Bytes) : KeepsLog ω (Trace all) where
  write {bytes x w n x' w' g s} htrace hwrite := by
    cases hwrite
    exact htrace.write bytes
  write_error _ hwrite := by cases hwrite
  poll htrace hpoll := htrace.next hpoll
  await htrace hawait := by
    cases hawait
    exact htrace.next rfl

end Stream

/-! ## Writes without bytes -/

/-- A recorded connection holds no write without bytes. -/
def Stream.Solid (x : Stream) : Prop := [] ∉ x.written.toList

namespace Stream

variable {x : Stream}

theorem Solid.next (h : x.Solid) : x.next.2.Solid := by
  unfold Stream.next
  split
  · exact h
  · dsimp only
    cases x.ending <;> exact h

theorem Solid.write (h : x.Solid) (bytes : Bytes) : (x.write bytes).2.Solid := by
  unfold Solid Stream.write
  dsimp only
  split
  · exact h
  · rename_i hsome
    rw [Array.toList_push, List.mem_append, List.mem_singleton]
    refine not_or.2 ⟨h, ?_⟩
    intro hnil
    exact hsome (by rw [← hnil]; rfl)

theorem keepsSolid (ω : Type) : KeepsLog ω fun (x : Stream) _ _ => x.Solid where
  write h hwrite := by
    cases hwrite
    exact h.write _
  write_error _ hwrite := by cases hwrite
  poll h hpoll := by
    have hnext := h.next
    rwa [show Stream.next _ = _ from hpoll] at hnext
  await h hawait := by
    cases hawait
    exact h.next

end Stream

/-! ## Streams that take everything -/

/-- A recorded connection that was sent `g` and still says `b`. It takes everything, if not
at once. -/
structure Stream.Says (ending : Ending) (g : Bytes) (x : Stream) (b : Bytes) : Prop where
  incoming : x.incoming.flatten = b
  ending : x.ending = ending
  written : x.output = g
  takes : x.maxWrite ≠ some 0 ∧ x.room = none

section Saying

variable {ω : Type} {ending : Ending} {g b c c' : Bytes}

theorem Stream.says_ofPieces (pieces : List Bytes) (ending : Ending) :
    Says ending [] (ofPieces pieces ending) pieces.flatten :=
  ⟨rfl, rfl, rfl, nofun, rfl⟩

theorem Stream.supplies (ω : Type) (ending : Ending) (g : Bytes) :
    Supplies ω (Says ending g) ending where
  piece {x b} w hstream hne := by
    obtain rfl := hstream.incoming
    -- some piece is left
    rcases next_of_ne_nil hne with ⟨p, rest, hp, hbytes, hnext⟩
    refine ⟨p, rest.flatten, { x with incoming := rest }, hp, hbytes, ?_, ?_⟩
    · change (x.next.1, x.next.2, w) = _
      rw [hnext]
    · exact ⟨rfl, hstream.ending, hstream.written, hstream.takes⟩
  dry {x} w hstream := by
    -- no piece is left, and the end comes again and again
    refine ⟨{ x with incoming := [] }, ?_, ?_⟩
    · change (x.next.1, x.next.2, w) = _
      rw [next_of_nil hstream.incoming, hstream.ending]
    · exact ⟨rfl, hstream.ending, hstream.written, hstream.takes⟩

/-- A write takes at least one byte. -/
theorem Stream.Says.write {x : Stream} {bytes : Bytes} (h : Says ending g x b)
    (hne : bytes ≠ []) :
    ∃ m, (x.write bytes).1 = m + 1 ∧
      Says ending (g ++ bytes.take (m + 1)) (x.write bytes).2 b := by
  have hpos := List.length_pos_of_ne_nil hne
  obtain ⟨m, htaken, hm⟩ : ∃ m, x.taken bytes = bytes.take (m + 1) ∧ m + 1 ≤ bytes.length := by
    unfold Stream.taken
    rw [h.takes.2]
    cases hmax : x.maxWrite with
    | none =>
      refine ⟨bytes.length - 1, ?_, by omega⟩
      rw [Nat.sub_add_cancel hpos, List.take_length]
    | some k =>
      -- a write of no bytes is not allowed for
      have hk : k ≠ 0 := by
        intro hzero
        exact h.takes.1 (by rw [hmax, hzero])
      refine ⟨min k bytes.length - 1, ?_, by omega⟩
      rw [Nat.sub_add_cancel (by omega), ← List.take_eq_take_min]
  have hlen : (bytes.take (m + 1)).length = m + 1 := List.length_take_of_le hm
  refine ⟨m, ?_, h.incoming, h.ending, ?_, h.takes.1, ?_⟩
  · unfold Stream.write
    rw [htaken]
    exact hlen
  · rw [output_write, htaken, h.written]
  · unfold Stream.write
    dsimp only
    rw [h.takes.2]
    rfl

/-- Over recorded connections that take everything, an exchange goes through and sends the
bytes `c`, without reading anything. -/
def Writes (ω : Type) (act : LinkM ω Stream Unit) (c : Bytes) : Prop :=
  ∀ ⦃l w ending g b⦄, Link.Offers (Stream.Says ending g) l b →
    ∃ l', Meets act l w (.ok ()) l' w ∧ Link.Offers (Stream.Says ending (g ++ c)) l' b

theorem writes_pure : Writes ω (pure ()) [] := by
  intro l w ending g b hoffers
  refine ⟨l, meets_pure.2 ⟨rfl, rfl, rfl⟩, ?_⟩
  rw [List.append_nil]
  exact hoffers

theorem Writes.bind {act next : LinkM ω Stream Unit} (hact : Writes ω act c)
    (hnext : Writes ω next c') : Writes ω (act >>= fun _ => next) (c ++ c') := by
  intro l w ending g b hoffers
  rcases hact (w := w) hoffers with ⟨l₁, hfirst, hoffers₁⟩
  rcases hnext (w := w) hoffers₁ with ⟨l', hrest, hoffers'⟩
  rw [List.append_assoc] at hoffers'
  exact ⟨l', (meets_bind_of_ok hfirst).2 hrest, hoffers'⟩

theorem writes_writeWithin {writes : ℕ} {bytes : Bytes} (hwrites : bytes.length ≤ writes) :
    Writes ω (Link.writeWithin writes bytes) bytes := by
  induction writes generalizing bytes with
  | zero =>
    obtain rfl := List.length_eq_zero_iff.1 (Nat.le_zero.1 hwrites)
    exact writes_pure
  | succ writes ih =>
    by_cases hnil : bytes = []
    · subst hnil
      exact writes_pure
    intro l w ending g b hoffers
    rcases hoffers with ⟨more, hb, hstream⟩
    rcases hstream.write hnil with ⟨m, htaken, hstream₁⟩
    have hwrite : Remote.write bytes l.remote w = (.ok (m + 1), (l.remote.write bytes).2, w) := by
      rw [← htaken]
      rfl
    -- what is left is written after the bytes that were taken
    have hdrop : (bytes.drop (m + 1)).length ≤ writes := by
      rw [List.length_drop]
      omega
    have hoffers₁ : Link.Offers (Stream.Says ending (g ++ bytes.take (m + 1)))
        ⟨l.unread, (l.remote.write bytes).2⟩ b := ⟨more, hb, hstream₁⟩
    rcases ih hdrop (w := w) hoffers₁ with ⟨l', hm, hoffers'⟩
    rw [List.append_assoc, List.take_append_drop] at hoffers'
    exact ⟨l', (meets_writeWithin hnil hwrite).2 hm, hoffers'⟩

/-- Whatever is sent goes through. -/
theorem Sends.writes {act : LinkM ω Stream Unit} (h : Sends act c) : Writes ω act c := by
  rcases h with ⟨ps, rfl, rfl, -⟩
  induction ps with
  | nil => exact writes_pure
  | cons p ps ih => exact (writes_writeWithin le_rfl).bind ih

/-- What an exchange sends that reads nothing. -/
theorem Stream.sentBy_eq {act : LinkM Unit Stream Unit} (h : Sends act c) :
    sentBy act = c := by
  have hoffers : Link.Offers (Says .closed []) (.new (ofPieces [] .closed)) [] :=
    Link.offers_new (says_ofPieces [] .closed)
  rcases h.writes (w := ()) hoffers with ⟨l', hm, rest, -, hstream⟩
  unfold Meets at hm
  unfold sentBy exchange
  rw [hm]
  exact hstream.written

end Saying

/-! ## What an exchange over a recorded connection comes to -/

/-- A recorded connection that still says `b`, whatever it takes. -/
structure Stream.Speaks (ending : Ending) (x : Stream) (b : Bytes) : Prop where
  incoming : x.incoming.flatten = b
  ending : x.ending = ending

theorem Stream.supplies_speaks (ω : Type) (ending : Ending) :
    Supplies ω (Speaks ending) ending where
  piece {x b} w hstream hne := by
    obtain rfl := hstream.incoming
    rcases next_of_ne_nil hne with ⟨p, rest, hp, hbytes, hnext⟩
    refine ⟨p, rest.flatten, { x with incoming := rest }, hp, hbytes, ?_, rfl, hstream.ending⟩
    change (x.next.1, x.next.2, w) = _
    rw [hnext]
  dry {x} w hstream := by
    refine ⟨{ x with incoming := [] }, ?_, rfl, hstream.ending⟩
    change (x.next.1, x.next.2, w) = _
    rw [next_of_nil hstream.incoming, hstream.ending]

namespace Link

variable {α : Type} {l l' : Link Stream} {act : LinkM Unit Stream α} {r r' : Except Halt α}
variable {b b' : Bytes} {ending : Ending}

/-- The bytes that can still be read over a link to a recorded connection. -/
def bytes (l : Link Stream) : Bytes := l.unread ++ l.remote.incoming.flatten

/-- Over the link `l` to a recorded connection, an exchange comes to `r` and leaves the
bytes `b` to be read. -/
def Gives (l : Link Stream) (act : LinkM Unit Stream α) (r : Except Halt α) (b : Bytes) : Prop :=
  (Stream.exchange act l).1 = r ∧ (Stream.exchange act l).2.bytes = b

theorem Gives.unique (h : l.Gives act r b) (h' : l.Gives act r' b') : r = r' ∧ b = b' := by
  rcases h with ⟨rfl, rfl⟩
  exact h'

theorem offers_speaks (l : Link Stream) : Offers (Stream.Speaks l.remote.ending) l l.bytes :=
  ⟨_, rfl, rfl, rfl⟩

theorem bytes_eq (h : Offers (Stream.Speaks ending) l b) : l.bytes = b := by
  rcases h with ⟨rest, rfl, hstream⟩
  rw [bytes, hstream.incoming]

theorem gives_of_meets (hm : Meets act l () r l' ()) (h : Offers (Stream.Speaks ending) l' b) :
    l.Gives act r b := by
  unfold Meets at hm
  unfold Gives Stream.exchange
  rw [hm]
  exact ⟨rfl, bytes_eq h⟩

/-- Where an exchange ends, with the bytes that it leaves. -/
theorem meets_of_gives (h : l.Gives act r b) : ∃ l', Meets act l () r l' () ∧ l'.bytes = b := by
  rcases h with ⟨rfl, rfl⟩
  exact ⟨_, rfl, rfl⟩

end Link

end FleetEstimate
