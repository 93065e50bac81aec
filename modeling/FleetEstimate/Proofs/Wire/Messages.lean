import FleetEstimate.Proofs.Wire.Encodings
import FleetEstimate.Proofs.Wire.Exchanges

/-!
# Sending and receiving messages

Whoever sends a message gives the far end its bytes, and whoever receives one has read
its bytes and nothing behind them.
-/

namespace FleetEstimate

variable {ω ρ : Type} [Remote ω ρ] {Log : ρ → Bytes → Bytes → Prop}
variable {l l' : Link ρ} {w w' : ω} {g h : Bytes}

namespace Link

/-! ## Sending -/

theorem tells_sendTag (hkeep : KeepsLog ω Log) (t : Tag) :
    Tells Log (sendTag t : LinkM ω ρ Unit) t.toBytes :=
  tells_writeAll hkeep _

theorem tells_sendReal (hkeep : KeepsLog ω Log) (x : Real64) :
    Tells Log (sendReal x : LinkM ω ρ Unit) x.toBytes :=
  tells_writeAll hkeep _

/-- In one piece or in two, a frame is its length and its body. -/
theorem tells_sendFrame (hkeep : KeepsLog ω Log) (length : ℕ) (body : Bytes) :
    Tells Log (sendFrame length body : LinkM ω ρ Unit) (Bytes.bigEndian 8 length ++ body) := by
  unfold sendFrame
  dsimp only
  split
  · exact tells_writeAll hkeep _
  · exact (tells_writeAll hkeep _).bind fun _ => tells_writeAll hkeep _

theorem tells_sendText (hkeep : KeepsLog ω Log) (t : String) :
    Tells Log (sendText t : LinkM ω ρ Unit) (Text.frame t) := by
  unfold sendText
  split
  · exact tells_sendFrame hkeep _ _
  · exact tells_throw _

theorem size_le_of_sendText {t : String} (hm : Meets (sendText t) l w (.ok ()) l' w') :
    t.utf8ByteSize ≤ maxPayload := by
  unfold sendText at hm
  split at hm
  · rename_i hsize
    exact hsize
  · exact absurd hm not_meets_fail

theorem tells_sendReals (hkeep : KeepsLog ω Log) (xs : List Real64) :
    Tells Log (sendReals xs : LinkM ω ρ Unit) (Real64.frame xs) := by
  unfold sendReals
  split
  · exact tells_sendFrame hkeep _ _
  · exact tells_throw _

theorem size_le_of_sendReals {xs : List Real64} (hm : Meets (sendReals xs) l w (.ok ()) l' w') :
    8 * xs.length ≤ maxPayload := by
  unfold sendReals at hm
  split at hm
  · rename_i hsize
    exact hsize
  · exact absurd hm not_meets_fail

theorem tells_call (hkeep : KeepsLog ω Log) (name : String) :
    Tells Log (call name : LinkM ω ρ Unit) (Tag.work.toBytes ++ Text.frame name) :=
  (tells_sendTag hkeep _).bind fun _ => tells_sendText hkeep _

/-! ## Receiving -/

theorem logs_recvTag (hkeep : KeepsLog ω Log) {t : Tag} (hlog : Link.Logs Log l g h)
    (hm : Meets recvTag l w (.ok t) l' w') : Link.Logs Log l' g (h ++ t.toBytes) := by
  rcases meets_bind_ok.1 hm with ⟨bytes, l₁, w₁, hbytes, hrest⟩
  rcases logs_receive hkeep hlog hbytes with ⟨hlen, hlog₁⟩
  cases htag : Tag.ofBytes bytes with
  | error e =>
    simp only [htag] at hrest
    exact absurd hrest not_meets_fail
  | ok t' =>
    simp only [htag] at hrest
    rcases meets_pure.1 hrest with ⟨ht, rfl, -⟩
    cases ht
    -- a tag that was read is written with the bytes it was read from
    rw [Tag.toBytes_of_ofBytes hlen htag]
    exact hlog₁

theorem logs_recvReal (hkeep : KeepsLog ω Log) {x : Real64} (hlog : Link.Logs Log l g h)
    (hm : Meets recvReal l w (.ok x) l' w') : Link.Logs Log l' g (h ++ x.toBytes) := by
  rcases meets_bind_ok.1 hm with ⟨bytes, l₁, w₁, hbytes, hrest⟩
  rcases logs_receive hkeep hlog hbytes with ⟨hlen, hlog₁⟩
  rcases meets_pure.1 hrest with ⟨hx, rfl, -⟩
  cases hx
  rw [Real64.toBytes_ofBytes hlen]
  exact hlog₁

theorem logs_recvUInt64 (hkeep : KeepsLog ω Log) {n : UInt64} (hlog : Link.Logs Log l g h)
    (hm : Meets recvUInt64 l w (.ok n) l' w') :
    Link.Logs Log l' g (h ++ Bytes.littleEndian 8 n.toNat) := by
  rcases meets_bind_ok.1 hm with ⟨bytes, l₁, w₁, hbytes, hrest⟩
  rcases logs_receive hkeep hlog hbytes with ⟨hlen, hlog₁⟩
  rcases meets_pure.1 hrest with ⟨hn, rfl, -⟩
  cases hn
  rw [Bytes.littleEndian_toNat_ofNat hlen]
  exact hlog₁

theorem logs_recvLength (hkeep : KeepsLog ω Log) {n : ℕ} (hlog : Link.Logs Log l g h)
    (hm : Meets recvLength l w (.ok n) l' w') :
    Link.Logs Log l' g (h ++ Bytes.bigEndian 8 n) := by
  rcases meets_bind_ok.1 hm with ⟨bytes, l₁, w₁, hbytes, hrest⟩
  rcases logs_receive hkeep hlog hbytes with ⟨hlen, hlog₁⟩
  rcases meets_pure.1 hrest with ⟨hn, rfl, -⟩
  cases hn
  have hback := Bytes.bigEndian_ofBigEndian bytes
  rw [hlen] at hback
  rw [hback]
  exact hlog₁

theorem logs_recvText (hkeep : KeepsLog ω Log) {t : String} (hlog : Link.Logs Log l g h)
    (hm : Meets recvText l w (.ok t) l' w') :
    t.utf8ByteSize ≤ maxPayload ∧ Link.Logs Log l' g (h ++ Text.frame t) := by
  rcases meets_bind_ok.1 hm with ⟨n, l₁, w₁, hlength, hrest⟩
  have hlog₁ := logs_recvLength hkeep hlog hlength
  split at hrest
  · exact absurd hrest not_meets_fail
  · rename_i hsize
    rcases meets_bind_ok.1 hrest with ⟨bytes, l₂, w₂, hbytes, hreturn⟩
    rcases logs_receive hkeep hlog₁ hbytes with ⟨hlen, hlog₂⟩
    cases htext : Text.ofBytes bytes with
    | error e =>
      simp only [htext] at hreturn
      exact absurd hreturn not_meets_fail
    | ok t' =>
      simp only [htext] at hreturn
      rcases meets_pure.1 hreturn with ⟨ht, rfl, -⟩
      cases ht
      have hback := Text.toBytes_of_ofBytes htext
      -- the length that was announced is that of the text
      have hn : t.utf8ByteSize = n := by rw [← Text.length_toBytes, hback, hlen]
      refine ⟨by omega, ?_⟩
      rw [Text.frame, hn, hback, ← List.append_assoc]
      exact hlog₂

theorem logs_recvReals (hkeep : KeepsLog ω Log) {xs : List Real64} (hlog : Link.Logs Log l g h)
    (hm : Meets recvReals l w (.ok xs) l' w') :
    8 * xs.length ≤ maxPayload ∧ Link.Logs Log l' g (h ++ Real64.frame xs) := by
  rcases meets_bind_ok.1 hm with ⟨n, l₁, w₁, hlength, hrest⟩
  have hlog₁ := logs_recvLength hkeep hlog hlength
  split at hrest
  · exact absurd hrest not_meets_fail
  · rename_i hsize
    rcases meets_bind_ok.1 hrest with ⟨bytes, l₂, w₂, hbytes, hreturn⟩
    rcases logs_receive hkeep hlog₁ hbytes with ⟨hlen, hlog₂⟩
    rcases meets_pure.1 hreturn with ⟨hxs, rfl, -⟩
    cases hxs
    -- the numbers are written with the bytes they were read from
    rcases Real64.flatMap_realsOf hlen with ⟨hcount, hall⟩
    rw [Real64.frame, hcount, hall, ← List.append_assoc]
    exact ⟨by omega, hlog₂⟩

/-! ## Sending takes no waiting -/

theorem prompt_sendFrame (length : ℕ) (body : Bytes) :
    Prompt (sendFrame length body : LinkM ω ρ Unit) := by
  unfold sendFrame
  dsimp only
  split
  · exact prompt_writeAll _
  · exact (prompt_writeAll _).bind fun _ => prompt_writeAll _

theorem prompt_sendText (t : String) : Prompt (sendText t : LinkM ω ρ Unit) := by
  unfold sendText
  split
  · exact prompt_sendFrame _ _
  · exact prompt_fail _

theorem prompt_call (name : String) : Prompt (call name : LinkM ω ρ Unit) :=
  (prompt_writeAll _).bind fun _ => prompt_sendText name

/-! ## Nothing but receiving -/

theorem receives_recvTag : Receives (recvTag : LinkM ω ρ Tag) := by
  refine (Receives.receive 4).bind fun bytes => ?_
  cases Tag.ofBytes bytes with
  | error e => exact .throw _
  | ok t => exact .pure t

theorem receives_recvReal : Receives (recvReal : LinkM ω ρ Real64) :=
  (Receives.receive 8).bind fun _ => .pure _

theorem receives_recvUInt64 : Receives (recvUInt64 : LinkM ω ρ UInt64) :=
  (Receives.receive 8).bind fun _ => .pure _

theorem receives_recvLength : Receives (recvLength : LinkM ω ρ ℕ) :=
  (Receives.receive 8).bind fun _ => .pure _

theorem receives_recvText : Receives (recvText : LinkM ω ρ String) := by
  refine receives_recvLength.bind fun n => ?_
  split
  · exact .throw _
  · refine (Receives.receive n).bind fun bytes => ?_
    cases Text.ofBytes bytes with
    | error e => exact .throw _
    | ok t => exact .pure t

theorem receives_recvReals : Receives (recvReals : LinkM ω ρ (List Real64)) := by
  refine receives_recvLength.bind fun n => ?_
  split
  · exact .throw _
  · exact (Receives.receive _).bind fun _ => .pure _

end Link

/-! ## Work results -/

namespace WorkResult

open Link

theorem logs_recv (hkeep : KeepsLog ω Log) {r : WorkResult} (hlog : Link.Logs Log l g h)
    (hm : Meets recv l w (.ok r) l' w') : r.Travels ∧ Link.Logs Log l' g (h ++ r.encode) := by
  rcases meets_bind_ok.1 hm with ⟨digest, l₁, w₁, hdigest, hm⟩
  rcases meets_bind_ok.1 hm with ⟨parameter, l₂, w₂, hparameter, hm⟩
  rcases meets_bind_ok.1 hm with ⟨sum, l₃, w₃, hsum, hm⟩
  rcases meets_bind_ok.1 hm with ⟨sumSq, l₄, w₄, hsumSq, hm⟩
  rcases meets_bind_ok.1 hm with ⟨samples, l₅, w₅, hsamples, hm⟩
  rcases meets_pure.1 hm with ⟨hr, rfl, -⟩
  cases hr
  -- the parts are read in the order in which they are sent
  rcases logs_recvText hkeep hlog hdigest with ⟨hsize, hlog⟩
  have hlog := logs_recvReal hkeep hlog hparameter
  rcases logs_recvReals hkeep hlog hsum with ⟨hsumLe, hlog⟩
  rcases logs_recvReals hkeep hlog hsumSq with ⟨hsumSqLe, hlog⟩
  have hlog := logs_recvUInt64 hkeep hlog hsamples
  refine ⟨⟨hsize, hsumLe, hsumSqLe⟩, ?_⟩
  unfold encode
  simpa only [List.append_assoc] using hlog

theorem receives_recv : Receives (recv : LinkM ω ρ WorkResult) := by
  refine receives_recvText.bind fun digest => ?_
  refine receives_recvReal.bind fun parameter => ?_
  refine receives_recvReals.bind fun sum => ?_
  refine receives_recvReals.bind fun sumSq => ?_
  exact receives_recvUInt64.bind fun samples => .pure _

end WorkResult

end FleetEstimate
