import FleetEstimate.Proofs.Wire.Forms
import FleetEstimate.Proofs.Wire.Messages
import FleetEstimate.Proofs.Wire.Streams

/-!
# What is accepted

A receiver accepts the bytes that have the form of a message, and these are the bytes that
some message is sent as. So both ends agree on what is too long, though the one counts bytes
where the other counts elements.
-/

namespace FleetEstimate

/-! ## What was said before -/

/-- A recorded connection that has said `h` of `all`, whatever it takes. -/
def Stream.Said (all : Bytes) (x : Stream) (_ h : Bytes) : Prop := h ++ x.incoming.flatten = all

namespace Stream

variable {all g h : Bytes} {x x' : Stream} {arrival : Arrival}

theorem Said.next (hsaid : Said all x g h) (hnext : x.next = (arrival, x')) :
    Said all x' g (h ++ arrival.bytes) := by
  unfold Said at hsaid ⊢
  rw [← hsaid, (next_eq hnext).1, List.append_assoc]

theorem keepsSaid (ω : Type) (all : Bytes) : KeepsLog ω (Said all) where
  write hsaid hwrite := by
    cases hwrite
    exact hsaid
  write_error _ hwrite := by cases hwrite
  poll hsaid hpoll := hsaid.next hpoll
  await hsaid hawait := by
    cases hawait
    exact hsaid.next rfl

end Stream

/-! ## Receivers and senders -/

section Pairs

variable {α : Type} {recv : LinkM Unit Stream α} {send : α → LinkM Unit Stream Unit}
variable {Legal : α → Prop} {encode : α → Bytes} {form : Form}

/-- A sender and a receiver of the same messages `encode a`. -/
structure Paired (recv : LinkM Unit Stream α) (send : α → LinkM Unit Stream Unit)
    (Legal : α → Prop) (encode : α → Bytes) : Prop where
  sends : ∀ {a}, Legal a → Sends (send a) (encode a)
  legal : ∀ {a l l'}, Meets (send a) l () (.ok ()) l' () → Legal a
  reads : ∀ {a}, Legal a → Reads (Stream.Speaks .closed) .closed recv (encode a) a
  logs : ∀ {all l l' g h a}, Link.Logs (Stream.Said all) l g h → Meets recv l () (.ok a) l' () →
    Legal a ∧ Link.Logs (Stream.Said all) l' g (h ++ encode a)

/-- A receiver goes by a form, whatever it reads: over a link to a far end that closes, it
succeeds on the bytes that the form takes and fails on those that it refuses. Those that it
takes are the messages that the sender sends, and the sender sends all that is legal. -/
structure Decodes (recv : LinkM Unit Stream α) (send : α → LinkM Unit Stream Unit)
    (Legal : α → Prop) (form : Form) : Prop where
  takes : ∀ {l : Link Stream}, l.remote.ending = .closed → ∀ b,
    (∃ a, l.Gives recv (.ok a) b) ↔ form.takes l.bytes b
  fails : ∀ {l : Link Stream}, l.remote.ending = .closed → ∀ halt b,
    l.Gives recv (.error halt) b ↔ ∃ e, halt = .failed e ∧ form.fails l.bytes e b
  written : ∀ {l : Link Stream}, l.remote.ending = .closed → ∀ a b,
    l.Gives recv (.ok a) b ↔ Legal a ∧ l.bytes = Stream.sentBy (send a) ++ b
  accepted : ∀ a, (Stream.exchange (send a) (.new (.ofPieces [] .closed))).1 = .ok () ↔ Legal a

/-- What a receiver takes and what it refuses is told by its form in one way. -/
theorem Judges.gives (h : Judges (Stream.Speaks .closed) recv form) {l : Link Stream}
    (hclosed : l.remote.ending = .closed) :
    (∃ a b, form.takes l.bytes b ∧ l.Gives recv (.ok a) b) ∨
      ∃ e b, form.fails l.bytes e b ∧ l.Gives recv (.error (.failed e)) b := by
  have hoffers := Link.offers_speaks l
  rw [hclosed] at hoffers
  rcases form.total l.bytes with ⟨b, htakes⟩ | ⟨e, b, hfails⟩
  · rcases h.takes (w := ()) hoffers htakes with ⟨a, l', hm, hoffers'⟩
    exact .inl ⟨a, b, htakes, Link.gives_of_meets hm hoffers'⟩
  · rcases h.fails (w := ()) hoffers hfails with ⟨l', hm, hoffers'⟩
    exact .inr ⟨e, b, hfails, Link.gives_of_meets hm hoffers'⟩

theorem Paired.decodes (h : Paired recv send Legal encode)
    (hjudges : Judges (Stream.Speaks .closed) recv form) : Decodes recv send Legal form where
  takes {l} hclosed b := by
    have hoffers := Link.offers_speaks l
    rw [hclosed] at hoffers
    constructor
    · intro hgives
      rcases hgives with ⟨a, hgives⟩
      -- what is received is judged by its form, and there is only one outcome
      rcases hjudges.gives hclosed with ⟨a', b', htakes, hgives'⟩ | ⟨e, b', -, hgives'⟩
      · rcases hgives.unique hgives' with ⟨-, rfl⟩
        exact htakes
      · rcases hgives.unique hgives' with ⟨hne, -⟩
        cases hne
    · intro htakes
      rcases hjudges.takes (w := ()) hoffers htakes with ⟨a, l', hm, hoffers'⟩
      exact ⟨a, Link.gives_of_meets hm hoffers'⟩
  fails {l} hclosed halt b := by
    have hoffers := Link.offers_speaks l
    rw [hclosed] at hoffers
    constructor
    · intro hgives
      rcases hjudges.gives hclosed with ⟨a, b', -, hgives'⟩ | ⟨e, b', hfails, hgives'⟩
      · rcases hgives.unique hgives' with ⟨hne, -⟩
        cases hne
      · rcases hgives.unique hgives' with ⟨heq, rfl⟩
        cases heq
        exact ⟨e, rfl, hfails⟩
    · intro hfails
      rcases hfails with ⟨e, rfl, hfails⟩
      rcases hjudges.fails (w := ()) hoffers hfails with ⟨l', hm, hoffers'⟩
      exact Link.gives_of_meets hm hoffers'
  written {l} hclosed a b := by
    constructor
    · intro hgives
      rcases Link.meets_of_gives hgives with ⟨l', hm, rfl⟩
      -- what was read and what is left are all the bytes that there were
      have hlogs : Link.Logs (Stream.Said l.bytes) l [] [] := rfl
      rcases h.logs hlogs hm with ⟨hlegal, hlogs'⟩
      refine ⟨hlegal, ?_⟩
      have hall : [] ++ encode a ++ l'.unread ++ l'.remote.incoming.flatten = l.bytes := hlogs'
      rw [List.nil_append, List.append_assoc] at hall
      rw [Stream.sentBy_eq (h.sends hlegal)]
      exact hall.symm
    · intro hsent
      rcases hsent with ⟨hlegal, hbytes⟩
      rw [Stream.sentBy_eq (h.sends hlegal)] at hbytes
      have hoffers := Link.offers_speaks l
      rw [hclosed, hbytes] at hoffers
      rcases (h.reads hlegal).whole (w := ()) hoffers with ⟨l', hm, hoffers'⟩
      exact Link.gives_of_meets hm hoffers'
  accepted a := by
    constructor
    · intro hok
      rcases Link.meets_of_gives ⟨hok, rfl⟩ with ⟨l', hm, -⟩
      exact h.legal hm
    · intro hlegal
      have hoffers : Link.Offers (Stream.Says .closed []) (.new (.ofPieces [] .closed)) [] :=
        Link.offers_new (Stream.says_ofPieces [] .closed)
      rcases (h.sends hlegal).writes (w := ()) hoffers with ⟨l', hm, -⟩
      unfold Meets at hm
      unfold Stream.exchange
      rw [hm]

namespace Link

theorem paired_tag : Paired recvTag sendTag (fun _ => True) Tag.toBytes where
  sends {t} _ := sends_sendTag t
  legal _ := trivial
  reads {t} _ := reads_recvTag (Stream.supplies_speaks Unit .closed) t
  logs {all} _ _ _ _ _ hlogs hm := ⟨trivial, logs_recvTag (Stream.keepsSaid Unit all) hlogs hm⟩

theorem paired_real : Paired recvReal sendReal (fun _ => True) Real64.toBytes where
  sends {x} _ := sends_sendReal x
  legal _ := trivial
  reads {x} _ := reads_recvReal (Stream.supplies_speaks Unit .closed) x
  logs {all} _ _ _ _ _ hlogs hm := ⟨trivial, logs_recvReal (Stream.keepsSaid Unit all) hlogs hm⟩

theorem paired_uint64 :
    Paired recvUInt64 sendUInt64 (fun _ => True) fun n => Bytes.littleEndian 8 n.toNat where
  sends {n} _ := sends_sendUInt64 n
  legal _ := trivial
  reads {n} _ := reads_recvUInt64 (Stream.supplies_speaks Unit .closed) n
  logs {all} _ _ _ _ _ hlogs hm :=
    ⟨trivial, logs_recvUInt64 (Stream.keepsSaid Unit all) hlogs hm⟩

theorem paired_text :
    Paired recvText sendText (fun t => t.utf8ByteSize ≤ maxPayload) Text.frame where
  sends ht := sends_sendText ht
  legal hm := size_le_of_sendText hm
  reads ht := reads_recvText (Stream.supplies_speaks Unit .closed) ht
  logs {all} _ _ _ _ _ hlogs hm := logs_recvText (Stream.keepsSaid Unit all) hlogs hm

theorem paired_reals :
    Paired recvReals sendReals (fun xs => 8 * xs.length ≤ maxPayload) Real64.frame where
  sends hxs := sends_sendReals hxs
  legal hm := size_le_of_sendReals hm
  reads hxs := reads_recvReals (Stream.supplies_speaks Unit .closed) hxs
  logs {all} _ _ _ _ _ hlogs hm := logs_recvReals (Stream.keepsSaid Unit all) hlogs hm

end Link

theorem WorkResult.paired : Paired WorkResult.recv WorkResult.send Travels WorkResult.encode where
  sends hr := sends_send hr
  legal hm := by
    rcases meets_bind_ok.1 hm with ⟨_, l₁, _, hdigest, hm⟩
    rcases meets_bind_ok.1 hm with ⟨_, l₂, _, -, hm⟩
    rcases meets_bind_ok.1 hm with ⟨_, l₃, _, hsum, hm⟩
    rcases meets_bind_ok.1 hm with ⟨_, l₄, _, hsumSq, -⟩
    exact ⟨Link.size_le_of_sendText hdigest, Link.size_le_of_sendReals hsum,
      Link.size_le_of_sendReals hsumSq⟩
  reads hr := reads_recv (Stream.supplies_speaks Unit .closed) hr
  logs {all} _ _ _ _ _ hlogs hm := logs_recv (Stream.keepsSaid Unit all) hlogs hm

end Pairs

/-! ## Heads -/

section Heads

variable {head : Bytes}

/-- Eight bytes begin a message with a length if they announce it. -/
theorem prefix_frame_iff (hhead : head.length = 8) {n : ℕ} (hn : n < 256 ^ 8) (body : Bytes) :
    head <+: Bytes.bigEndian 8 n ++ body ↔ announced head = n := by
  have htake : head.take 8 = head := List.take_of_length_le hhead.le
  have hback := Bytes.bigEndian_ofBigEndian head
  rw [hhead] at hback
  unfold announced
  rw [htake]
  constructor
  · intro hbegins
    have hlen : head.length = (Bytes.bigEndian 8 n).length := by
      rw [hhead, Bytes.length_bigEndian]
    -- the head of a frame is its announcement
    have heq : head = Bytes.bigEndian 8 n := by
      rcases hbegins with ⟨rest, hall⟩
      exact (List.append_inj hall hlen).1
    rw [heq, Bytes.ofBigEndian_bigEndian, Nat.mod_eq_of_lt hn]
  · intro hannounced
    rw [← hannounced, hback]
    exact List.prefix_append head body

/-- The receiver goes on reading behind a length if a text can be sent with it. -/
theorem Link.head_of_text_iff (hhead : head.length = 8) : announced head ≤ maxPayload ↔
    ∃ t, t.utf8ByteSize ≤ maxPayload ∧ head <+: Stream.sentBy (sendText t) := by
  have hsent {t : String} (ht : t.utf8ByteSize ≤ maxPayload) :
      head <+: Stream.sentBy (sendText t) ↔ announced head = t.utf8ByteSize := by
    rw [Stream.sentBy_eq (sends_sendText ht), Text.frame]
    exact prefix_frame_iff hhead (toNat_lt_of_le_maxPayload ht) _
  constructor
  · intro hle
    -- so many letters make a text of this length
    have hsize : (String.ofList (List.replicate (announced head) 'a')).utf8ByteSize =
        announced head := by
      have hone : Char.utf8Size 'a' = 1 := rfl
      rw [← Text.length_toBytes, Text.toBytes_ofList]
      simp [List.length_flatMap, hone]
    refine ⟨_, by rw [hsize]; exact hle, ?_⟩
    rw [hsent (by rw [hsize]; exact hle), hsize]
  · intro h
    rcases h with ⟨t, ht, hbegins⟩
    rw [(hsent ht).1 hbegins]
    exact ht

theorem Link.head_of_reals_iff (hhead : head.length = 8) : 8 * announced head ≤ maxPayload ↔
    ∃ xs, 8 * xs.length ≤ maxPayload ∧ head <+: Stream.sentBy (sendReals xs) := by
  have hsent {xs : List Real64} (hxs : 8 * xs.length ≤ maxPayload) :
      head <+: Stream.sentBy (sendReals xs) ↔ announced head = xs.length := by
    rw [Stream.sentBy_eq (sends_sendReals hxs), Real64.frame]
    exact prefix_frame_iff hhead (toNat_lt_of_le_maxPayload (by omega)) _
  constructor
  · intro hle
    -- a vector of so many zeros has this head
    have hlen : (List.replicate (announced head) (0 : Real64)).length = announced head :=
      List.length_replicate
    refine ⟨List.replicate (announced head) 0, by rw [hlen]; exact hle, ?_⟩
    rw [hsent (by rw [hlen]; exact hle), hlen]
  · intro h
    rcases h with ⟨xs, hxs, hbegins⟩
    rw [(hsent hxs).1 hbegins]
    exact hxs

end Heads

/-- Every receiver accepts exactly what the sender of its messages sends, over whatever stream
the bytes come. Both go by the same limits, for texts in bytes and for vectors in elements:
the receiver refuses no length that the sender can send, and no other one passes. A body that
is too long counts as invalid data and one that is cut as an unexpected end. -/
theorem receivers_accept_what_is_sent :
    Decodes Link.recvTag Link.sendTag (fun _ => True) .tag ∧
      Decodes Link.recvReal Link.sendReal (fun _ => True) (.fixed 8) ∧
      Decodes Link.recvUInt64 Link.sendUInt64 (fun _ => True) (.fixed 8) ∧
      Decodes Link.recvText Link.sendText (fun t => t.utf8ByteSize ≤ maxPayload) .text ∧
      Decodes Link.recvReals Link.sendReals (fun xs => 8 * xs.length ≤ maxPayload) .reals ∧
      Decodes WorkResult.recv WorkResult.send WorkResult.Travels .result ∧
      (∀ head : Bytes, head.length = 8 →
        (announced head ≤ maxPayload ↔
          ∃ t, t.utf8ByteSize ≤ maxPayload ∧ head <+: Stream.sentBy (Link.sendText t)) ∧
        (8 * announced head ≤ maxPayload ↔
          ∃ xs, 8 * xs.length ≤ maxPayload ∧ head <+: Stream.sentBy (Link.sendReals xs))) ∧
      LinkError.earlyEnd.kind = .unexpectedEof ∧
      ∀ length limit, (LinkError.tooLong length limit).kind = .invalidData := by
  have hs := Stream.supplies_speaks Unit .closed
  have hfixed : Judges (Stream.Speaks .closed) (Link.receive 8 : LinkM Unit Stream Bytes)
      (.fixed 8) := judges_receive hs 8
  -- each is a receiver paired with a sender, and judged by its form
  refine ⟨Link.paired_tag.decodes (Link.judges_recvTag hs),
    Link.paired_real.decodes (hfixed.map _), Link.paired_uint64.decodes (hfixed.map _),
    Link.paired_text.decodes (Link.judges_recvText hs),
    Link.paired_reals.decodes (Link.judges_recvReals hs),
    WorkResult.paired.decodes (WorkResult.judges_recv hs), ?_, rfl, fun _ _ => rfl⟩
  intro head hhead
  exact ⟨Link.head_of_text_iff hhead, Link.head_of_reals_iff hhead⟩

end FleetEstimate
