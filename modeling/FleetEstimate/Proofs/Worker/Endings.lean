import FleetEstimate.Proofs.Worker.Faults

/-!
# How the service of a worker ends

A coordinator that goes away closes its end of the link. The worker ends well if that comes
where a request could begin, or within the tag of one; anywhere else it is a failure. What is
no request, or comes before its time, is one too.
-/

namespace FleetEstimate

variable {ω E : Type} {g b : Bytes}

theorem Request.length_le_flatMap_encode (qs : List Request) :
    qs.length ≤ (qs.flatMap encode).length := by
  induction qs with
  | nil => exact Nat.zero_le _
  | cons q qs ih =>
    have hpos := List.length_pos_of_ne_nil q.encode_ne_nil
    rw [List.length_cons, List.flatMap_cons, List.length_append]
    omega

namespace Worker

open Session

variable [Experiment E] [WorkerWorld ω] {c : WorkerConfig} {s : Session Stream E} {w w' : ω}
variable {past : List Turn} {ready : Bool}

/-- Requests in order, and behind them the end of the service. -/
def IsConversation (E : Type) [Experiment E] (ready : Bool) (b : Bytes) : Prop :=
  ∃ qs rest, InOrder E ready qs ∧ b = qs.flatMap Request.encode ++ rest ∧ EndsService rest

/-- Every request that some bytes begin with, and that comes in order, has a reply that can be
written. -/
def CanReply (E : Type) [Experiment E] (c : WorkerConfig) (past : List Turn) (ready : Bool) (w : ω)
    (b : Bytes) : Prop :=
  ∀ qs, InOrder E ready qs → qs.flatMap Request.encode <+: b →
    AllFit E c past (course c.workUnit qs w).1

/-- Any bytes are a conversation, or there is a fault behind requests in order. -/
theorem conversation_or_fault (E : Type) [Experiment E] (ready : Bool) (b : Bytes) :
    IsConversation E ready b ∨ ∃ qs rest err, InOrder E ready qs ∧
      b = qs.flatMap Request.encode ++ rest ∧ Fault E (ready || Request.anySystem qs) rest err := by
  -- on the number of bytes: a request takes some of them
  induction hlen : b.length using Nat.strong_induction_on generalizing b ready with
  | _ n ih =>
    rcases request_or_fault E ready b with
      ⟨q, b', rfl, hserved⟩ | hends | ⟨err, hfault⟩
    · have hpos := List.length_pos_of_ne_nil q.encode_ne_nil
      rw [List.length_append] at hlen
      rcases ih b'.length (by omega) (q.readies ready) b' rfl with
        ⟨qs, rest, horder, rfl, hends⟩ | ⟨qs, rest, err, horder, rfl, hfault⟩
      · refine .inl ⟨q :: qs, rest, ⟨hserved, horder⟩, ?_, hends⟩
        rw [List.flatMap_cons, List.append_assoc]
      · -- whether there is a system is handed on through the request
        rw [Request.readies_or] at hfault
        refine .inr ⟨q :: qs, rest, err, ⟨hserved, horder⟩, ?_, hfault⟩
        rw [List.flatMap_cons, List.append_assoc]
    · exact .inl ⟨[], b, trivial, rfl, hends⟩
    · refine .inr ⟨[], b, err, trivial, rfl, ?_⟩
      rw [show Request.anySystem [] = false from rfl, Bool.or_false]
      exact hfault

/-- A worker whose replies can be written ends well, or it fails, and then what it was sent is
no conversation. -/
theorem serve_or_fails {n : ℕ} (hready : (standing (E := E) past).isSome = ready)
    (hstands : s.Stands past) (hoffers : Link.Offers (Stream.Says .closed g) s.link b)
    (hreplies : CanReply E c past ready w b) (hn : b.length < n) :
    IsConversation E ready b ∨ ∃ e s' w', serve c n s w = (.ends (.error e), s', w') := by
  rcases conversation_or_fault E ready b with
    hconversation | ⟨qs, rest, err, horder, rfl, hfault⟩
  · exact .inl hconversation
  · have hlen := Request.length_le_flatMap_encode qs
    rw [List.length_append] at hn
    have hfits := hreplies qs horder (List.prefix_append _ _)
    rcases serve_fault horder hready hfault rfl hfits hstands hoffers
      (show qs.length < n by omega) with ⟨s', w', replies, rest', hserve, -⟩
    exact .inr ⟨err, s', w', hserve⟩

/-- A worker whose replies can be written ends, and it ends well exactly if it was sent
requests in order and then the end of its service: the tag that ends it, or the end of the
stream in place of a tag or within one. -/
theorem ends_iff_isConversation {x : Stream} {n : ℕ} (hclosed : x.ending = .closed)
    (htakes : x.maxWrite ≠ some 0 ∧ x.room = none)
    (hreplies : CanReply E c [] false w x.incoming.flatten) (hn : x.incoming.flatten.length < n) :
    (∃ result, (serve c n (Session.new x : Session Stream E) w).1 = .ends result) ∧
      ((serve c n (Session.new x : Session Stream E) w).1 = .ends (.ok ()) ↔
        IsConversation E false x.incoming.flatten) := by
  have hoffers : Link.Offers (Stream.Says .closed x.output) (Session.new x : Session Stream E).link
      x.incoming.flatten := Link.offers_new ⟨rfl, hclosed, rfl, htakes⟩
  -- a conversation is served to its end
  have hwell (h : IsConversation E false x.incoming.flatten) :
      (serve c n (Session.new x : Session Stream E) w).1 = .ends (.ok ()) := by
    rcases h with ⟨qs, rest, horder, hsaid, hends⟩
    have hfits := hreplies qs horder ⟨rest, hsaid.symm⟩
    have hlen := Request.length_le_flatMap_encode qs
    rw [hsaid] at hoffers
    rw [hsaid, List.length_append] at hn
    rcases serve_course horder rfl rfl hfits hends (stands_new x) hoffers
      (show qs.length < n by omega) with ⟨s', replies, rest', hserve, -⟩
    rw [hserve]
  -- all else fails, and failing is not ending well
  rcases serve_or_fails rfl (stands_new x) hoffers hreplies hn with
    hconversation | ⟨e, s', w', hserve⟩
  · exact ⟨⟨_, hwell hconversation⟩, fun _ => hconversation, hwell⟩
  · refine ⟨⟨.error e, by rw [hserve]⟩, ?_, hwell⟩
    intro hok
    rw [hserve] at hok
    cases hok

/-- A request for the name and one byte more. -/
def nameAndByte : Bytes := Request.name.encode ++ [0]

theorem canReply_nameAndByte :
    CanReply Replay ⟨"w", 0⟩ [] false (Ensemble.ofConfigs [] : Ensemble Replay) nameAndByte := by
  have hname : "w".utf8ByteSize ≤ maxPayload := by decide
  intro qs horder hprefix
  have hlen := hprefix.length_le
  cases qs with
  | nil => exact trivial
  | cons q qs =>
    cases qs with
    | nil =>
      cases q with
      | name => exact ⟨hname, trivial⟩
      | work => cases horder.1
      | die => exact trivial
      | other call => exact trivial
      | _ => exact ⟨trivial, trivial⟩
    | cons q' qs =>
      -- two requests have eight bytes at least
      simp only [List.flatMap_cons, Request.encode, List.length_append, Tag.length_toBytes] at hlen
      have hfive : nameAndByte.length = 5 := rfl
      omega

theorem ends_within_tag :
    (∃ result, (serve ⟨"w", 0⟩ 6 (Session.new (.ofPieces [nameAndByte] .closed) :
        Session Stream Replay) (Ensemble.ofConfigs [] : Ensemble Replay)).1 = .ends result) ∧
      ((serve ⟨"w", 0⟩ 6 (Session.new (.ofPieces [nameAndByte] .closed) :
          Session Stream Replay) (Ensemble.ofConfigs [] : Ensemble Replay)).1 = .ends (.ok ()) ↔
        IsConversation Replay false nameAndByte) :=
  ends_iff_isConversation (x := .ofPieces [nameAndByte] .closed) rfl ⟨nofun, rfl⟩
    canReply_nameAndByte (by decide)

/-- Two bytes of a tag are not where a request could begin, and yet the worker ends well. -/
theorem ends_well_off_boundary :
    (serve ⟨"w", 0⟩ 3 (Session.new (.ofPieces [[0, 0]] .closed) : Session Stream Replay)
        (Ensemble.ofConfigs [] : Ensemble Replay)).1 = .ends (.ok ()) ∧
      ¬ ∃ qs rest, InOrder Replay false qs ∧ [0, 0] = qs.flatMap Request.encode ++ rest ∧
        (Tag.die.toBytes <+: rest ∨ rest = []) := by
  refine ⟨rfl, ?_⟩
  rintro ⟨qs, rest, -, hbytes, hrest⟩
  cases qs with
  | nil =>
    obtain rfl : rest = [0, 0] := hbytes.symm
    rcases hrest with hdie | hnil
    · have hlen := hdie.length_le
      rw [Tag.length_toBytes] at hlen
      exact absurd hlen (by decide)
    · cases hnil
  | cons q qs =>
    have hlen := congrArg List.length hbytes
    simp only [List.flatMap_cons, Request.encode, List.length_append, Tag.length_toBytes] at hlen
    -- any request is longer than two bytes
    have htwo : ([0, 0] : Bytes).length = 2 := rfl
    omega

end Worker

end FleetEstimate
