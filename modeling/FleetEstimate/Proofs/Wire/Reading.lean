import FleetEstimate.Proofs.Wire.Encodings
import FleetEstimate.Proofs.Wire.Exchanges
import FleetEstimate.Wire.Stream

/-!
# Reading what a far end has to say

A far end says what it has to say in pieces, and then it comes to an end: it closes, fails or
waits. However the bytes are cut, who receives a message that they begin with gets it, and
what is behind the message is left. If they are only a part of it, the exchange halts for the
reason that the far end has come to its end for.
-/

namespace FleetEstimate

/-- What comes from a far end that has come to its end. -/
def Ending.arrival : Ending → Arrival
  | .closed => .piece []
  | .failing e => .failed e
  | .waiting => .nothing

/-- Why an exchange halts that needs more than has been said. -/
def Ending.halt : Ending → Halt
  | .closed => .failed .earlyEnd
  | .failing e => .failed e
  | .waiting => .stalled

variable {ω ρ α β : Type} [Remote ω ρ]

/-- Far ends `x` that say the bytes `b`, for `Rest x b`, and then come to an end. Saying them
changes nothing in the outside world. -/
structure Supplies (ω : Type) [Remote ω ρ] (Rest : ρ → Bytes → Prop) (ending : Ending) :
    Prop where
  piece : ∀ {x b} (w : ω), Rest x b → b ≠ [] → ∃ p rest x', p ≠ [] ∧ b = p ++ rest ∧
    Remote.await x w = (.piece p, x', w) ∧ Rest x' rest
  dry : ∀ {x} (w : ω), Rest x [] → ∃ x', Remote.await x w = (ending.arrival, x', w) ∧ Rest x' []

variable {Rest : ρ → Bytes → Prop} {ending : Ending} {l : Link ρ} {w : ω} {b c c' : Bytes}

/-- The bytes `b` can be read over a link: those that are unread, then the rest that the far
end has to say. -/
def Link.Offers (Rest : ρ → Bytes → Prop) (l : Link ρ) (b : Bytes) : Prop :=
  ∃ rest, b = l.unread ++ rest ∧ Rest l.remote rest

omit [Remote ω ρ] in
theorem Link.offers_new {x : ρ} (h : Rest x b) : Link.Offers Rest (.new x) b := ⟨b, rfl, h⟩

/-! ## Any number of bytes -/

section Receiving

variable {pieces missing n : ℕ} {read : List Bytes}

/-- While bytes are missing, nothing is left unread. -/
theorem meets_receiveMore_of_le (hs : Supplies ω Rest ending) (hoffers : Link.Offers Rest l b)
    (hunread : missing = 0 ∨ l.unread = []) (hpieces : missing ≤ pieces)
    (hle : missing ≤ b.length) :
    ∃ l', Meets (Link.receiveMore pieces missing read) l w
      (.ok (read.reverse.flatten ++ b.take missing)) l' w ∧
        Link.Offers Rest l' (b.drop missing) := by
  -- each piece is a part of what is missing, or is the last one and has more than that
  induction pieces, missing, read using Link.receiveMore.induct generalizing l b with
  | case1 pieces read =>
    rw [Link.receiveMore]
    refine ⟨l, meets_pure.2 ⟨?_, rfl, rfl⟩, hoffers⟩
    rw [List.take_zero, List.append_nil]
  | case2 missing read => omega
  | case3 pieces missing read ih =>
    have hempty : l.unread = [] := by
      rcases hunread with hzero | hempty
      · omega
      · exact hempty
    rcases hoffers with ⟨rest, hb, hrest⟩
    rw [hempty, List.nil_append] at hb
    subst hb
    have hne : b ≠ [] := by
      intro hnil
      rw [hnil, List.length_nil] at hle
      omega
    rcases hs.piece w hrest hne with ⟨p, rest, x, hp, rfl, hawait, hrest'⟩
    rw [List.length_append] at hle
    have hpos : 0 < p.length := List.length_pos_of_ne_nil hp
    have hpiece : Meets Link.nextPiece l w (.ok p) ⟨l.unread, x⟩ w :=
      (meets_nextPiece hawait).2 ⟨rfl, rfl, rfl⟩
    rw [Link.receiveMore]
    simp only [meets_bind_of_ok hpiece, List.isEmpty_iff, hp, if_false]
    by_cases hshort : p.length ≤ missing
    · -- the whole piece belongs to what is missing
      have hoffers : Link.Offers Rest ⟨l.unread, x⟩ rest := ⟨rest, by rw [hempty]; rfl, hrest'⟩
      rcases ih p hoffers (.inr hempty) (by omega) (by omega) with ⟨l', hmeets, hleft⟩
      refine ⟨l', ?_, ?_⟩
      · rw [if_pos hshort, List.take_append, List.take_of_length_le (by omega)]
        simpa using hmeets
      · rw [List.drop_append, List.drop_of_length_le (by omega), List.nil_append]
        exact hleft
    · -- the rest of the piece stays unread
      simp only [if_neg hshort, meets_modifyState_bind]
      refine ⟨_, meets_pure.2 ⟨?_, rfl, rfl⟩, rest, ?_, hrest'⟩
      · rw [List.take_append_of_le_length (by omega)]
        simp
      · rw [List.drop_append_of_le_length (by omega)]

theorem meets_receiveMore_of_lt (hs : Supplies ω Rest ending) (hoffers : Link.Offers Rest l b)
    (hunread : l.unread = []) (hpieces : missing ≤ pieces) (hlt : b.length < missing) :
    ∃ l', Meets (Link.receiveMore pieces missing read) l w (.error ending.halt) l' w ∧
      Link.Offers Rest l' [] := by
  induction pieces, missing, read using Link.receiveMore.induct generalizing l b with
  | case1 pieces read => omega
  | case2 missing read => omega
  | case3 pieces missing read ih =>
    rcases hoffers with ⟨rest, hb, hrest⟩
    rw [hunread, List.nil_append] at hb
    subst hb
    have hoffers (y : ρ) (more : Bytes) (hmore : Rest y more) :
        Link.Offers Rest ⟨l.unread, y⟩ more := ⟨more, by rw [hunread]; rfl, hmore⟩
    by_cases hne : b = []
    · subst hne
      -- all has been said, and the end decides what becomes of the wait
      rcases hs.dry w hrest with ⟨x, hawait, hrest'⟩
      refine ⟨⟨l.unread, x⟩, ?_, hoffers x [] hrest'⟩
      rw [Link.receiveMore]
      cases ending with
      | closed =>
        rw [meets_bind_of_ok ((meets_nextPiece hawait).2 ⟨rfl, rfl, rfl⟩)]
        exact meets_throw.2 ⟨rfl, rfl, rfl⟩
      | failing e =>
        exact meets_bind_of_error ((meets_nextPiece hawait).2 ⟨rfl, rfl, rfl⟩)
      | waiting =>
        exact meets_bind_of_error ((meets_nextPiece hawait).2 ⟨rfl, rfl, rfl⟩)
    · rcases hs.piece w hrest hne with ⟨p, rest, x, hp, rfl, hawait, hrest'⟩
      rw [List.length_append] at hlt
      have hpos : 0 < p.length := List.length_pos_of_ne_nil hp
      have hpiece : Meets Link.nextPiece l w (.ok p) ⟨l.unread, x⟩ w :=
        (meets_nextPiece hawait).2 ⟨rfl, rfl, rfl⟩
      -- no piece can be longer than what is missing
      have hshort : p.length ≤ missing := by omega
      rw [Link.receiveMore]
      simp only [meets_bind_of_ok hpiece, List.isEmpty_iff, hp, if_false, if_pos hshort]
      exact ih p (hoffers x rest hrest') hunread (by omega) (by omega)

/-- So many bytes are received if so many come. -/
theorem meets_receive_of_le (hs : Supplies ω Rest ending) (hoffers : Link.Offers Rest l b)
    (hle : n ≤ b.length) :
    ∃ l', Meets (Link.receive n) l w (.ok (b.take n)) l' w ∧ Link.Offers Rest l' (b.drop n) := by
  rcases hoffers with ⟨rest, rfl, hrest⟩
  rw [List.length_append] at hle
  have hoffers : Link.Offers Rest { l with unread := l.unread.drop n } (l.unread.drop n ++ rest) :=
    ⟨rest, rfl, hrest⟩
  have hunread : n - l.unread.length = 0 ∨ l.unread.drop n = [] := by
    rw [List.drop_eq_nil_iff]
    omega
  have hrest : n - l.unread.length ≤ (l.unread.drop n ++ rest).length := by
    rw [List.length_append, List.length_drop]
    omega
  obtain ⟨l', hmeets, hleft⟩ : ∃ l', Meets (Link.receiveMore (n - l.unread.length)
      (n - l.unread.length) [l.unread.take n]) { l with unread := l.unread.drop n } w _ l' w ∧ _ :=
    meets_receiveMore_of_le hs hoffers hunread le_rfl hrest
  -- either nothing is missing, or everything unread is taken
  have htake : (l.unread ++ rest).take n =
      l.unread.take n ++ (l.unread.drop n ++ rest).take (n - l.unread.length) := by
    rw [List.take_append]
    rcases hunread with hzero | hnil
    · rw [hzero, List.take_zero, List.take_zero]
    · rw [hnil, List.nil_append]
  have hdrop : (l.unread ++ rest).drop n =
      (l.unread.drop n ++ rest).drop (n - l.unread.length) := by
    rw [List.drop_append]
    rcases hunread with hzero | hnil
    · rw [hzero, List.drop_zero, List.drop_zero]
    · rw [hnil, List.nil_append, List.nil_append]
  refine ⟨l', ?_, ?_⟩
  · unfold Link.receive
    rw [meets_getState_bind, meets_modifyState_bind, htake]
    simpa using hmeets
  · rw [hdrop]
    exact hleft

/-- Too few bytes are read and lost. -/
theorem meets_receive_of_lt (hs : Supplies ω Rest ending) (hoffers : Link.Offers Rest l b)
    (hlt : b.length < n) :
    ∃ l', Meets (Link.receive n) l w (.error ending.halt) l' w ∧ Link.Offers Rest l' [] := by
  rcases hoffers with ⟨rest, rfl, hrest⟩
  rw [List.length_append] at hlt
  have hnil : l.unread.drop n = [] := List.drop_eq_nil_iff.2 (by omega)
  have hoffers : Link.Offers Rest { l with unread := l.unread.drop n } rest :=
    ⟨rest, by rw [hnil]; rfl, hrest⟩
  unfold Link.receive
  simp only [meets_getState_bind, meets_modifyState_bind]
  exact meets_receiveMore_of_lt hs hoffers hnil le_rfl (by omega)

end Receiving

/-! ## Messages -/

/-- An exchange reads the bytes `c` and comes to `a`. If the far end comes to its end before
it has said all of them, the exchange halts. -/
structure Reads (Rest : ρ → Bytes → Prop) (ending : Ending) (act : LinkM ω ρ α) (c : Bytes)
    (a : α) : Prop where
  whole : ∀ ⦃l w b⦄, Link.Offers Rest l (c ++ b) →
    ∃ l', Meets act l w (.ok a) l' w ∧ Link.Offers Rest l' b
  part : ∀ ⦃l w b⦄, Link.Offers Rest l b → b <+: c → b ≠ c →
    ∃ l', Meets act l w (.error ending.halt) l' w ∧ Link.Offers Rest l' []

omit [Remote ω ρ] in
theorem reads_pure {a : α} : Reads Rest ending (pure a : LinkM ω ρ α) [] a := by
  constructor
  · intro l w b hoffers
    exact ⟨l, meets_pure.2 ⟨rfl, rfl, rfl⟩, hoffers⟩
  · intro l w b _ hbegins hne
    exact absurd (List.prefix_nil.1 hbegins) hne

/-- Bytes that only begin two messages in a row only begin the first, or they hold the first and
only begin the second. -/
theorem part_of_append (hbegins : b <+: c ++ c') (hne : b ≠ c ++ c') :
    (b <+: c ∧ b ≠ c) ∨ ∃ b', b = c ++ b' ∧ b' <+: c' ∧ b' ≠ c' := by
  by_cases hall : c <+: b
  · rcases hall with ⟨b', rfl⟩
    refine .inr ⟨b', rfl, (List.prefix_append_right_inj c).1 hbegins, ?_⟩
    intro heq
    exact hne (by rw [heq])
  · rcases List.prefix_or_prefix_of_prefix hbegins (List.prefix_append c c') with hshort | hlong
    · refine .inl ⟨hshort, ?_⟩
      intro heq
      exact hall (heq ▸ List.prefix_rfl)
    · exact absurd hlong hall

omit [Remote ω ρ] in
theorem Reads.bind {act : LinkM ω ρ α} {next : α → LinkM ω ρ β} {a : α} {y : β}
    (hact : Reads Rest ending act c a) (hnext : Reads Rest ending (next a) c' y) :
    Reads Rest ending (act >>= next) (c ++ c') y := by
  constructor
  · intro l w b hoffers
    rw [List.append_assoc] at hoffers
    rcases hact.whole (w := w) hoffers with ⟨l₁, hfirst, hoffers₁⟩
    rcases hnext.whole (w := w) hoffers₁ with ⟨l', hrest, hoffers'⟩
    exact ⟨l', (meets_bind_of_ok hfirst).2 hrest, hoffers'⟩
  · intro l w b hoffers hbegins hne
    -- the part ends within the first message or within the second
    rcases part_of_append hbegins hne with ⟨hshort, hall⟩ | ⟨b', rfl, hbegins', hne'⟩
    · rcases hact.part (w := w) hoffers hshort hall with ⟨l', hfirst, hoffers'⟩
      exact ⟨l', meets_bind_of_error hfirst, hoffers'⟩
    · rcases hact.whole (w := w) hoffers with ⟨l₁, hfirst, hoffers₁⟩
      rcases hnext.part (w := w) hoffers₁ hbegins' hne' with ⟨l', hrest, hoffers'⟩
      exact ⟨l', (meets_bind_of_ok hfirst).2 hrest, hoffers'⟩

omit [Remote ω ρ] in
/-- What is read is turned into something else. -/
theorem Reads.map {act : LinkM ω ρ α} {a : α} (f : α → β) (hact : Reads Rest ending act c a) :
    Reads Rest ending (act >>= fun a => pure (f a)) c (f a) := by
  have hall : Reads Rest ending (act >>= fun a => pure (f a)) (c ++ []) (f a) :=
    hact.bind reads_pure
  rwa [List.append_nil] at hall

theorem reads_receive (hs : Supplies ω Rest ending) (c : Bytes) :
    Reads Rest ending (Link.receive c.length : LinkM ω ρ Bytes) c c := by
  constructor
  · intro l w b hoffers
    have hle : c.length ≤ (c ++ b).length := by
      rw [List.length_append]
      omega
    have hreceive := meets_receive_of_le (w := w) hs hoffers hle
    rwa [List.take_left, List.drop_left] at hreceive
  · intro l w b hoffers hbegins hne
    refine meets_receive_of_lt hs hoffers ?_
    rcases hbegins with ⟨rest, rfl⟩
    -- a part that is not the whole has fewer bytes
    have hrest : rest ≠ [] := by
      intro hnil
      rw [hnil, List.append_nil] at hne
      exact hne rfl
    have hpos := List.length_pos_of_ne_nil hrest
    rw [List.length_append]
    omega

/-- Bytes that are received and turned into a value. -/
theorem reads_receive_bind (hs : Supplies ω Rest ending) {n : ℕ} (hlen : c.length = n)
    {next : Bytes → LinkM ω ρ α} {a : α} (hnext : next c = pure a) :
    Reads Rest ending (Link.receive n >>= next) c a := by
  subst hlen
  have hthen : Reads Rest ending (next c) [] a := by
    rw [hnext]
    exact reads_pure
  have hall := (reads_receive hs c).bind hthen
  rwa [List.append_nil] at hall

namespace Link

theorem reads_recvTag (hs : Supplies ω Rest ending) (t : Tag) :
    Reads Rest ending (recvTag : LinkM ω ρ Tag) t.toBytes t := by
  refine reads_receive_bind hs t.length_toBytes ?_
  rw [Tag.ofBytes_toBytes]

theorem reads_recvReal (hs : Supplies ω Rest ending) (x : Real64) :
    Reads Rest ending (recvReal : LinkM ω ρ Real64) x.toBytes x := by
  refine reads_receive_bind hs x.length_toBytes ?_
  rw [Real64.ofBytes_toBytes]

theorem reads_recvUInt32 (hs : Supplies ω Rest ending) (n : UInt32) :
    Reads Rest ending (recvUInt32 : LinkM ω ρ UInt32) (Bytes.littleEndian 4 n.toNat) n := by
  refine reads_receive_bind hs (Bytes.length_littleEndian _ _) ?_
  have hlt : n.toNat < 256 ^ 4 := n.toNat_lt
  rw [Bytes.ofLittleEndian_littleEndian, Nat.mod_eq_of_lt hlt, UInt32.ofNat_toNat]

theorem reads_recvUInt64 (hs : Supplies ω Rest ending) (n : UInt64) :
    Reads Rest ending (recvUInt64 : LinkM ω ρ UInt64) (Bytes.littleEndian 8 n.toNat) n := by
  refine reads_receive_bind hs (Bytes.length_littleEndian _ _) ?_
  have hlt : n.toNat < 256 ^ 8 := n.toNat_lt
  rw [Bytes.ofLittleEndian_littleEndian, Nat.mod_eq_of_lt hlt, UInt64.ofNat_toNat]

theorem reads_recvLength (hs : Supplies ω Rest ending) {n : ℕ} (hn : n ≤ maxPayload) :
    Reads Rest ending (recvLength : LinkM ω ρ ℕ) (Bytes.bigEndian 8 n) n := by
  refine reads_receive_bind hs (Bytes.length_bigEndian _ _) ?_
  rw [Bytes.ofBigEndian_bigEndian, Nat.mod_eq_of_lt (toNat_lt_of_le_maxPayload hn)]

theorem reads_recvText (hs : Supplies ω Rest ending) {t : String}
    (ht : t.utf8ByteSize ≤ maxPayload) :
    Reads Rest ending (recvText : LinkM ω ρ String) (Text.frame t) t := by
  refine (reads_recvLength hs ht).bind ?_
  rw [if_neg (by omega)]
  refine reads_receive_bind hs (Text.length_toBytes t) ?_
  rw [Text.ofBytes_toBytes]

theorem reads_recvReals (hs : Supplies ω Rest ending) {xs : List Real64}
    (hxs : 8 * xs.length ≤ maxPayload) :
    Reads Rest ending (recvReals : LinkM ω ρ (List Real64)) (Real64.frame xs) xs := by
  refine (reads_recvLength hs (by omega)).bind ?_
  rw [if_neg (by omega)]
  refine reads_receive_bind hs (Real64.length_flatMap_toBytes xs) ?_
  rw [Real64.realsOf_flatMap]

end Link

theorem WorkResult.reads_recv (hs : Supplies ω Rest ending) {r : WorkResult} (hr : r.Travels) :
    Reads Rest ending (recv : LinkM ω ρ WorkResult) r.encode r := by
  refine (Link.reads_recvText hs hr.digest).bind ?_
  refine (Link.reads_recvReal hs r.parameter).bind ?_
  refine (Link.reads_recvReals hs hr.sum).bind ?_
  refine (Link.reads_recvReals hs hr.sumSq).bind ?_
  have hlast : Reads Rest ending (do
      let samples ← Link.recvUInt64
      return ⟨r.digest, r.parameter, ⟨r.batch.sum, r.batch.sumSq, samples⟩⟩ : LinkM ω ρ WorkResult)
      _ r := (Link.reads_recvUInt64 hs r.batch.samples).bind reads_pure
  rwa [List.append_nil] at hlast

end FleetEstimate
