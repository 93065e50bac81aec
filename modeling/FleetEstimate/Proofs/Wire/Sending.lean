import FleetEstimate.Proofs.Wire.Encodings
import FleetEstimate.Proofs.Wire.Exchanges

/-!
# Messages as writes

Whatever is sent goes out in a few writes, one after the other, each of which is written as a
whole. How a far end takes a message can be told from what it does with one write.
-/

namespace FleetEstimate

variable {ω ρ : Type} [Remote ω ρ]

namespace Link

/-- Writes some pieces one after the other. -/
def writeEach : List Bytes → LinkM ω ρ Unit
  | [] => pure ()
  | p :: ps => do
    writeAll p
    writeEach ps

theorem writeEach_append (ps qs : List Bytes) :
    (writeEach (ps ++ qs) : LinkM ω ρ Unit) = (do writeEach ps; writeEach qs) := by
  induction ps with
  | nil => rw [List.nil_append, writeEach, pure_bind]
  | cons p ps ih => rw [List.cons_append, writeEach, writeEach, bind_assoc, ih]

end Link

/-- An exchange writes the bytes `c`, in pieces none of which is empty, and does nothing else. -/
def Sends (act : LinkM ω ρ Unit) (c : Bytes) : Prop :=
  ∃ ps, act = Link.writeEach ps ∧ ps.flatten = c ∧ [] ∉ ps

variable {act next : LinkM ω ρ Unit} {c c' : Bytes}

theorem Sends.bind (hact : Sends act c) (hnext : Sends next c') :
    Sends (act >>= fun _ => next) (c ++ c') := by
  rcases hact with ⟨ps, rfl, rfl, hps⟩
  rcases hnext with ⟨qs, rfl, rfl, hqs⟩
  refine ⟨ps ++ qs, (Link.writeEach_append ps qs).symm, List.flatten_append, ?_⟩
  rw [List.mem_append]
  exact not_or.2 ⟨hps, hqs⟩

theorem sends_writeAll {bytes : Bytes} (hne : bytes ≠ []) :
    Sends (Link.writeAll bytes : LinkM ω ρ Unit) bytes := by
  refine ⟨[bytes], ?_, List.append_nil bytes, ?_⟩
  · exact (bind_pure (Link.writeAll bytes : LinkM ω ρ Unit)).symm
  · rw [List.mem_singleton]
    exact hne.symm

theorem sends_of_length {bytes : Bytes} {n : ℕ} (hlen : bytes.length = n + 1) :
    Sends (Link.writeAll bytes : LinkM ω ρ Unit) bytes := by
  refine sends_writeAll ?_
  intro hnil
  rw [hnil] at hlen
  cases hlen

namespace Link

theorem sends_sendTag (t : Tag) : Sends (sendTag t : LinkM ω ρ Unit) t.toBytes :=
  sends_of_length t.length_toBytes

theorem sends_sendReal (x : Real64) : Sends (sendReal x : LinkM ω ρ Unit) x.toBytes :=
  sends_of_length x.length_toBytes

theorem sends_sendUInt64 (n : UInt64) :
    Sends (sendUInt64 n : LinkM ω ρ Unit) (Bytes.littleEndian 8 n.toNat) :=
  sends_of_length (Bytes.length_littleEndian _ _)

/-- A long body goes out apart from its length. -/
theorem sends_sendFrame (length : ℕ) (body : Bytes) :
    Sends (sendFrame length body : LinkM ω ρ Unit) (Bytes.bigEndian 8 length ++ body) := by
  have hhead : (Bytes.bigEndian 8 length).length = 7 + 1 := Bytes.length_bigEndian _ _
  unfold sendFrame
  dsimp only
  split
  · -- a short body goes out with its length
    refine sends_writeAll ?_
    intro hnil
    rw [(List.append_eq_nil_iff.1 hnil).1] at hhead
    cases hhead
  · -- a long body is written by itself, and it is not empty
    rename_i hlong
    refine (sends_of_length hhead).bind (sends_writeAll ?_)
    intro hnil
    rw [hnil] at hlong
    exact hlong (Nat.zero_le _)

theorem sends_sendText {t : String} (ht : t.utf8ByteSize ≤ maxPayload) :
    Sends (sendText t : LinkM ω ρ Unit) (Text.frame t) := by
  unfold sendText
  rw [if_pos ht]
  exact sends_sendFrame _ _

theorem sends_sendReals {xs : List Real64} (hxs : 8 * xs.length ≤ maxPayload) :
    Sends (sendReals xs : LinkM ω ρ Unit) (Real64.frame xs) := by
  unfold sendReals
  rw [if_pos hxs]
  exact sends_sendFrame _ _

theorem sends_call {name : String} (hname : name.utf8ByteSize ≤ maxPayload) :
    Sends (call name : LinkM ω ρ Unit) (Tag.work.toBytes ++ Text.frame name) :=
  (sends_sendTag _).bind (sends_sendText hname)

end Link

theorem WorkResult.sends_send {r : WorkResult} (hr : r.Travels) :
    Sends (send r : LinkM ω ρ Unit) r.encode := by
  refine (Link.sends_sendText hr.digest).bind ?_
  refine (Link.sends_sendReal r.parameter).bind ?_
  refine (Link.sends_sendReals hr.sum).bind ?_
  exact (Link.sends_sendReals hr.sumSq).bind (Link.sends_sendUInt64 r.batch.samples)

end FleetEstimate
