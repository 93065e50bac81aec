import FleetEstimate.Proofs.Wire.Sequences

/-!
# Messages are received as they were sent

Who knows the kinds of the messages that were sent over a link gets the messages, in their
order and bit for bit. Neither the pieces in which their bytes come nor the looks that are
taken between them make a difference, and the bytes behind them are left to be read.
-/

namespace FleetEstimate

/-! ## A whole conversation -/

namespace Kind

variable {ω ρ : Type} [Remote ω ρ]

/-- Receives a message of each kind. Before each, some looks are taken. -/
def recvAll : (turns : List (ℕ × Kind)) → LinkM ω ρ (List (List Bool × Message))
  | [] => return []
  | (looks, k) :: turns => do
    let seen ← Link.lookTimes looks
    let m ← k.recv
    return (seen, m) :: (← recvAll turns)

end Kind

namespace Message

/-- What is received of messages that are sent before the bytes `rest`: each of them, and what
the looks before it come to. They see bytes unless there are none any more. -/
def heard (rest : Bytes) : (turns : List (ℕ × Message)) → List (List Bool × Message)
  | [] => []
  | (looks, m) :: turns =>
    let ahead := m.encode ++ (turns.flatMap fun t => t.2.encode) ++ rest
    (List.replicate looks (decide (ahead ≠ [])), m) :: heard rest turns

theorem map_heard (rest : Bytes) (turns : List (ℕ × Message)) :
    (heard rest turns).map Prod.snd = turns.map Prod.snd := by
  induction turns with
  | nil => rfl
  | cons t turns ih =>
    rw [heard, List.map_cons, List.map_cons, ih]

variable {ω ρ : Type} [Remote ω ρ] {Rest : ρ → Bytes → Prop} {ending : Ending}
variable {l : Link ρ} {w : ω} {rest : Bytes} {turns : List (ℕ × Message)}

theorem sends_sendAll {ms : List Message} (hms : ∀ m ∈ ms, m.Fits) :
    Sends (sendAll ms : LinkM ω ρ Unit) (ms.flatMap encode) := by
  induction ms with
  | nil => exact ⟨[], rfl, rfl, List.not_mem_nil⟩
  | cons m ms ih =>
    rw [List.flatMap_cons]
    refine (sends_send (hms m List.mem_cons_self)).bind (ih ?_)
    intro m' hm'
    exact hms m' (List.mem_cons_of_mem m hm')

theorem meets_recvAll (hs : Supplies ω Rest ending) (hturns : ∀ t ∈ turns, t.2.Fits)
    (hlooks : ending = .closed ∨ ∀ x ∈ heard rest turns, false ∉ x.1)
    (hoffers : Link.Offers Rest l ((turns.flatMap fun t => t.2.encode) ++ rest)) :
    ∃ l', Meets (Kind.recvAll (turns.map fun t => (t.1, t.2.kind))) l w
      (.ok (heard rest turns)) l' w ∧ Link.Offers Rest l' rest := by
  induction turns generalizing l with
  | nil => exact ⟨l, meets_pure.2 ⟨rfl, rfl, rfl⟩, hoffers⟩
  | cons t turns ih =>
    rcases t with ⟨looks, m⟩
    rw [List.flatMap_cons] at hoffers
    have hm : m.Fits := hturns (looks, m) List.mem_cons_self
    have hcomes : looks = 0 ∨ ending = .closed ∨
        m.encode ++ (turns.flatMap fun t => t.2.encode) ++ rest ≠ [] := by
      rcases hlooks with hclosed | hseen
      · exact .inr (.inl hclosed)
      · have hfirst := hseen _ List.mem_cons_self
        by_cases hzero : looks = 0
        · exact .inl hzero
        · refine .inr (.inr fun hnil => hfirst ?_)
          exact List.mem_replicate.2 ⟨hzero, by simp [hnil]⟩
    have hlooks' : ending = .closed ∨ ∀ x ∈ heard rest turns, false ∉ x.1 := by
      refine hlooks.imp_right fun hseen x hx => ?_
      exact hseen x (List.mem_cons_of_mem _ hx)
    -- the looks leave the message where it is, and behind it the others come
    rcases Link.meets_lookTimes (w := w) hs hoffers looks hcomes with ⟨l₁, hlook, hoffers₁⟩
    rw [List.append_assoc] at hoffers₁
    rcases (reads_recv hs hm).whole (w := w) hoffers₁ with ⟨l₂, hfirst, hoffers₂⟩
    have hturns' : ∀ t ∈ turns, t.2.Fits := fun t ht => hturns t (List.mem_cons_of_mem _ ht)
    rcases ih hturns' hlooks' hoffers₂ with ⟨l', hmore, hoffers'⟩
    refine ⟨l', ?_, hoffers'⟩
    rw [List.map_cons, Kind.recvAll, meets_bind_of_ok hlook, meets_bind_of_ok hfirst,
      meets_bind_of_ok hmore]
    exact meets_pure.2 ⟨rfl, rfl, rfl⟩

end Message

/-! ## What a look leaves alone -/

section Determined

variable {ω ρ α β : Type} [Remote ω ρ] {Rest : ρ → Bytes → Prop} {ending : Ending}

/-- What an exchange comes to, and what it leaves, depends only on the bytes that can be
read: where these are cut makes no difference. -/
def Determined (Rest : ρ → Bytes → Prop) (act : LinkM ω ρ α) : Prop :=
  ∀ b, ∃ r b', ∀ ⦃l w⦄, Link.Offers Rest l b →
    ∃ l', Meets act l w r l' w ∧ Link.Offers Rest l' b'

omit [Remote ω ρ] in
theorem determined_pure {a : α} : Determined Rest (pure a : LinkM ω ρ α) := by
  intro b
  refine ⟨.ok a, b, ?_⟩
  intro l w hoffers
  exact ⟨l, meets_pure.2 ⟨rfl, rfl, rfl⟩, hoffers⟩

omit [Remote ω ρ] in
theorem determined_throw {e : Halt} : Determined Rest (throw e : LinkM ω ρ α) := by
  intro b
  refine ⟨.error e, b, ?_⟩
  intro l w hoffers
  exact ⟨l, meets_throw.2 ⟨rfl, rfl, rfl⟩, hoffers⟩

omit [Remote ω ρ] in
theorem Determined.bind {act : LinkM ω ρ α} {next : α → LinkM ω ρ β}
    (hact : Determined Rest act) (hnext : ∀ a, Determined Rest (next a)) :
    Determined Rest (act >>= next) := by
  intro b
  rcases hact b with ⟨r, b₁, hfirst⟩
  -- the first part ends everything, or the second part sees what the first has left
  cases r with
  | error e =>
    refine ⟨.error e, b₁, ?_⟩
    intro l w hoffers
    rcases hfirst (w := w) hoffers with ⟨l', hm, hoffers'⟩
    exact ⟨l', meets_bind_of_error hm, hoffers'⟩
  | ok a =>
    rcases hnext a b₁ with ⟨r', b', hrest⟩
    refine ⟨r', b', ?_⟩
    intro l w hoffers
    rcases hfirst (w := w) hoffers with ⟨l₁, hm, hoffers₁⟩
    rcases hrest (w := w) hoffers₁ with ⟨l', hm', hoffers'⟩
    exact ⟨l', (meets_bind_of_ok hm).2 hm', hoffers'⟩

theorem determined_receive (hs : Supplies ω Rest ending) (n : ℕ) :
    Determined Rest (Link.receive n : LinkM ω ρ Bytes) := by
  intro b
  by_cases hle : n ≤ b.length
  · exact ⟨.ok (b.take n), b.drop n, fun l w hoffers => meets_receive_of_le hs hoffers hle⟩
  · refine ⟨.error ending.halt, [], ?_⟩
    intro l w hoffers
    exact meets_receive_of_lt hs hoffers (by omega)

/-- Where the pieces are cut makes no difference to any receiver. -/
theorem Receives.determined (hs : Supplies ω Rest ending) {act : LinkM ω ρ α}
    (h : Receives act) : Determined Rest act := by
  induction h with
  | pure a => exact determined_pure
  | throw e => exact determined_throw
  | receive n => exact determined_receive hs n
  | bind _ _ hfirst hrest => exact hfirst.bind hrest

theorem determined_lookTimes (hs : Supplies ω Rest ending) (times : ℕ) :
    Determined Rest (Link.lookTimes times : LinkM ω ρ (List Bool)) := by
  have hlook : Determined Rest (Link.readable : LinkM ω ρ Bool) := by
    intro b
    exact ⟨ending.sight b, b, fun l w hoffers => Link.meets_readable hs hoffers⟩
  induction times with
  | zero => exact determined_pure
  | succ times ih => exact hlook.bind fun _ => ih.bind fun _ => determined_pure

theorem Kind.determined_recvAll (hs : Supplies ω Rest ending) (turns : List (ℕ × Kind)) :
    Determined Rest (recvAll turns : LinkM ω ρ (List (List Bool × Message))) := by
  induction turns with
  | nil => exact determined_pure
  | cons t turns ih =>
    refine (determined_lookTimes hs t.1).bind fun seen => ?_
    refine ((receives_recv t.2).determined hs).bind fun m => ?_
    exact ih.bind fun _ => determined_pure

end Determined

/-- After a look, everything that is received is received as without it. -/
theorem Link.gives_after_look {α : Type} {act : LinkM Unit Stream α}
    (hact : ∀ ending, Determined (Stream.Speaks ending) act) (l : Link Stream) {r : Except Halt α}
    {b : Bytes} : (Stream.exchange readable l).2.Gives act r b ↔ l.Gives act r b := by
  have hs := Stream.supplies_speaks Unit l.remote.ending
  rcases meets_readable (w := ()) hs (offers_speaks l) with ⟨l', hlook, hoffers⟩
  have hl' : (Stream.exchange readable l).2 = l' := by
    unfold Meets at hlook
    unfold Stream.exchange
    rw [hlook]
  rw [hl']
  rcases hact l.remote.ending l.bytes with ⟨r', b', hall⟩
  -- what comes of the bytes does not depend on which of them have arrived
  have hgives {k : Link Stream} (hk : Offers (Stream.Speaks l.remote.ending) k l.bytes) :
      k.Gives act r' b' := by
    rcases hall (w := ()) hk with ⟨k', hm, hk'⟩
    exact gives_of_meets hm hk'
  have hbefore := hgives (offers_speaks l)
  have hafter := hgives hoffers
  constructor
  · intro h
    rcases h.unique hafter with ⟨rfl, rfl⟩
    exact hbefore
  · intro h
    rcases h.unique hbefore with ⟨rfl, rfl⟩
    exact hafter

/-! ## The round trip -/

namespace Message

variable {turns : List (ℕ × Message)} {y : Stream} {l : Link Stream} {rest : Bytes} {n : ℕ}

/-- Messages that are sent over a fresh link go through. However their bytes come over another
link, with any bytes behind them, and however often is looked before each of them, they are
received as they were sent, and the next bytes are the ones behind them. A look tells whether
a byte can be read, and changes nothing of what is received after it, whatever that is. A look
with nothing to see comes to an answer only at the end of the stream. -/
theorem received_as_sent (hfits : ∀ t ∈ turns, t.2.Fits) (hfresh : y.output = [])
    (htakes : y.maxWrite ≠ some 0 ∧ y.room = none)
    (hcomes : l.bytes =
      (Stream.exchange (sendAll (turns.map Prod.snd)) (.new y)).2.remote.output ++ rest)
    (hlooks : l.remote.ending = .closed ∨ ∀ x ∈ heard rest turns, false ∉ x.1)
    (hn : n ≤ rest.length) :
    (Stream.exchange (sendAll (turns.map Prod.snd)) (.new y)).1 = .ok () ∧
      l.Gives (do
          let all ← Kind.recvAll (turns.map fun t => (t.1, t.2.kind))
          return (all, ← Link.receive n))
        (.ok (heard rest turns, rest.take n)) (rest.drop n) ∧
      (heard rest turns).map Prod.snd = turns.map Prod.snd ∧
      (∀ k : Link Stream, k.Gives Link.readable (k.remote.ending.sight k.bytes) k.bytes) ∧
      ∀ (k : Link Stream) kinds r b, (Stream.exchange Link.readable k).2.Gives
        (Kind.recvAll kinds) r b ↔ k.Gives (Kind.recvAll kinds) r b := by
  -- what was sent is what the messages are written as
  have hmessages : ∀ m ∈ turns.map Prod.snd, m.Fits := by
    intro m hm
    rcases List.mem_map.1 hm with ⟨t, ht, rfl⟩
    exact hfits t ht
  have hsays : Link.Offers (Stream.Says y.ending []) (.new y) y.incoming.flatten :=
    Link.offers_new ⟨rfl, rfl, hfresh, htakes⟩
  rcases (sends_sendAll hmessages).writes (w := ()) hsays with ⟨sent, hsent, _, -, hstream⟩
  have hsend : Stream.exchange (sendAll (turns.map Prod.snd)) (.new y) = (.ok (), sent) := by
    unfold Meets at hsent
    unfold Stream.exchange
    rw [hsent]
  rw [hsend] at hcomes ⊢
  rw [hstream.written, List.nil_append, List.flatMap_map] at hcomes
  have hs := Stream.supplies_speaks Unit l.remote.ending
  have hoffers := Link.offers_speaks l
  rw [hcomes] at hoffers
  rcases meets_recvAll (w := ()) hs hfits hlooks hoffers with ⟨l₁, hall, hoffers₁⟩
  rcases meets_receive_of_le (w := ()) hs hoffers₁ hn with ⟨l', hnext, hoffers'⟩
  refine ⟨rfl, ?_, map_heard rest turns, ?_, ?_⟩
  · refine Link.gives_of_meets ?_ hoffers'
    rw [meets_bind_of_ok hall, meets_bind_of_ok hnext]
    exact meets_pure.2 ⟨rfl, rfl, rfl⟩
  · intro k
    have hsupplies := Stream.supplies_speaks Unit k.remote.ending
    rcases Link.meets_readable (w := ()) hsupplies (Link.offers_speaks k) with ⟨k', hlook, hk'⟩
    exact Link.gives_of_meets hlook hk'
  · intro k kinds r b
    refine Link.gives_after_look (fun ending => ?_) k
    exact Kind.determined_recvAll (Stream.supplies_speaks Unit ending) kinds

/-- Messages of several kinds, and how often is looked before each of them. -/
def mixed : List (ℕ × Message) :=
  [(1, .tag .getName), (0, .text "\u00e9"), (2, .real ⟨0x7ff0000000000001⟩), (0, .plain []),
    (0, .reals [1, ⟨0xfff8000000000007⟩]), (3, .call "run"), (0, .doubleWord 5)]

/-- What a far end that takes five bytes at a time was sent of them. -/
def mixedSent : Bytes :=
  (Stream.exchange (sendAll (mixed.map Prod.snd)) (.new ⟨[], .closed, #[], some 5, none⟩)).2
    |>.remote.output

/-- A signalling NaN and one with a payload keep their bits on their way in pieces of three. -/
theorem mixed_received :
    (Link.new (.ofBytes (mixedSent ++ [1, 2, 3]) (some 3) .waiting)).Gives (do
          let all ← Kind.recvAll (mixed.map fun t => (t.1, t.2.kind))
          return (all, ← Link.receive 2))
        (.ok (heard [1, 2, 3] mixed, [1, 2])) [3] := by
  have hfits : ∀ t ∈ mixed, t.2.Fits := by decide +kernel
  have htakes : some 5 ≠ some 0 ∧ (none : Option ℕ) = none := by decide
  have hcomes : (Link.new (.ofBytes (mixedSent ++ [1, 2, 3]) (some 3) .waiting)).bytes =
      mixedSent ++ [1, 2, 3] := by decide +kernel
  have hseen : ∀ x ∈ heard [1, 2, 3] mixed, false ∉ x.1 := by decide +kernel
  have hn : 2 ≤ ([1, 2, 3] : Bytes).length := by decide
  exact (received_as_sent hfits (y := ⟨[], .closed, #[], some 5, none⟩) rfl htakes hcomes
    (.inr hseen) hn).2.1

end Message

end FleetEstimate
