import FleetEstimate.Proofs.Wire.Messages

/-!
# Nothing but reading and writing

Whoever has a link reads and writes over it, and every message is made of that. So what
reading and writing keep, every exchange keeps.
-/

namespace FleetEstimate

variable {ω ρ α : Type} [Remote ω ρ] {P : ρ → ω → Prop}

/-- Exchanges that do nothing but read and write. -/
inductive Talks : {α : Type} → LinkM ω ρ α → Prop
  | pure {α : Type} (a : α) : Talks (pure a)
  | throw {α : Type} (e : Halt) : Talks (throw e : LinkM ω ρ α)
  | receive (n : ℕ) : Talks (Link.receive n)
  | readable : Talks Link.readable
  | writeAll (bytes : Bytes) : Talks (Link.writeAll bytes)
  | bind {α β : Type} {act : LinkM ω ρ α} {next : α → LinkM ω ρ β} (first : Talks act)
      (rest : ∀ a, Talks (next a)) : Talks (act >>= next)

theorem keeps_readable (hwait : KeptByWaiting P) :
    Keeps P (Link.readable : LinkM ω ρ Bool) := by
  unfold Link.readable
  refine keeps_getLink.bind fun l => ?_
  have hwaiting : Keeps P (do
      let bytes ← Link.nextPiece
      modifyThe (Link ρ) fun l => { l with unread := bytes }
      return !bytes.isEmpty : LinkM ω ρ Bool) :=
    (keeps_nextPiece hwait).bind fun bytes => keeps_modifyUnread.bind fun _ => keeps_pure
  split
  · exact keeps_pure
  · exact hwaiting

theorem Talks.keeps (hwait : KeptByWaiting P) (hwrite : KeptByWriting P) {act : LinkM ω ρ α}
    (h : Talks act) : Keeps P act := by
  induction h with
  | pure a => exact keeps_pure
  | throw e => exact keeps_throw
  | receive n => exact keeps_receive hwait n
  | readable => exact keeps_readable hwait
  | writeAll bytes => exact keeps_writeWithin hwrite _ bytes
  | bind _ _ hfirst hrest => exact hfirst.bind hrest

theorem Receives.talks {act : LinkM ω ρ α} (h : Receives act) : Talks act := by
  induction h with
  | pure a => exact .pure a
  | throw e => exact .throw e
  | receive n => exact .receive n
  | bind _ _ hfirst hrest => exact hfirst.bind hrest

/-! ## Messages -/

namespace Link

theorem talks_sendTag (t : Tag) : Talks (sendTag t : LinkM ω ρ Unit) := .writeAll _

theorem talks_sendReal (x : Real64) : Talks (sendReal x : LinkM ω ρ Unit) := .writeAll _

theorem talks_sendText (t : String) : Talks (sendText t : LinkM ω ρ Unit) := by
  unfold sendText
  split
  · unfold sendFrame
    dsimp only
    split
    · exact .writeAll _
    · exact (Talks.writeAll _).bind fun _ => .writeAll _
  · exact .throw _

theorem talks_call (name : String) : Talks (call name : LinkM ω ρ Unit) :=
  (talks_sendTag _).bind fun _ => talks_sendText name

end Link

end FleetEstimate
