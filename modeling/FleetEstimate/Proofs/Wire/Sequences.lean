import FleetEstimate.Proofs.Wire.Messages
import FleetEstimate.Proofs.Wire.Streams

/-!
# Messages in a row

A message is what is sent over a link in one go. Its kind is what a receiver knows of it
before it comes. Messages that are sent one after the other are received one after the
other, however their bytes are cut on the way and however often the receiver looks
whether anything has come.
-/

namespace FleetEstimate

/-- What is sent over a link in one go. -/
inductive Message
  | tag (t : Tag)
  | word (n : UInt32)
  | doubleWord (n : UInt64)
  | real (x : Real64)
  /-- Any other value of a fixed width, by the bytes that it has in memory. -/
  | plain (bytes : Bytes)
  | text (t : String)
  | reals (xs : List Real64)
  | call (name : String)
  | result (r : WorkResult)
deriving DecidableEq

/-- What a receiver knows of a message before it comes. -/
inductive Kind
  | tag
  | word
  | doubleWord
  | real
  | plain (width : ℕ)
  | text
  | reals
  | call
  | result

namespace Message

def kind : Message → Kind
  | .tag _ => .tag
  | .word _ => .word
  | .doubleWord _ => .doubleWord
  | .real _ => .real
  | .plain bytes => .plain bytes.length
  | .text _ => .text
  | .reals _ => .reals
  | .call _ => .call
  | .result _ => .result

/-- The bytes of a message. Only a plain value without width has none. -/
def encode : Message → Bytes
  | .tag t => t.toBytes
  | .word n => Bytes.littleEndian 4 n.toNat
  | .doubleWord n => Bytes.littleEndian 8 n.toNat
  | .real x => x.toBytes
  | .plain bytes => bytes
  | .text t => Text.frame t
  | .reals xs => Real64.frame xs
  | .call name => Tag.work.toBytes ++ Text.frame name
  | .result r => r.encode

/-- No part of a message is longer than it may be. -/
def Fits : Message → Prop
  | .text t => t.utf8ByteSize ≤ maxPayload
  | .reals xs => 8 * xs.length ≤ maxPayload
  | .call name => name.utf8ByteSize ≤ maxPayload
  | .result r => r.Travels
  | _ => True

instance : (m : Message) → Decidable m.Fits
  | .text t => inferInstanceAs (Decidable (t.utf8ByteSize ≤ maxPayload))
  | .reals xs => inferInstanceAs (Decidable (8 * xs.length ≤ maxPayload))
  | .call name => inferInstanceAs (Decidable (name.utf8ByteSize ≤ maxPayload))
  | .result r => inferInstanceAs (Decidable r.Travels)
  | .tag _ | .word _ | .doubleWord _ | .real _ | .plain _ => .isTrue trivial

variable {ω ρ : Type} [Remote ω ρ]

def send : Message → LinkM ω ρ Unit
  | .tag t => Link.sendTag t
  | .word n => Link.sendUInt32 n
  | .doubleWord n => Link.sendUInt64 n
  | .real x => Link.sendReal x
  | .plain bytes => Link.writeAll bytes
  | .text t => Link.sendText t
  | .reals xs => Link.sendReals xs
  | .call name => Link.call name
  | .result r => r.send

def sendAll : List Message → LinkM ω ρ Unit
  | [] => return
  | m :: ms => do
    m.send
    sendAll ms

end Message

namespace Kind

variable {ω ρ : Type} [Remote ω ρ]

/-- Receives a message of a kind. Where a call is awaited, another tag stands for itself. -/
def recv : Kind → LinkM ω ρ Message
  | .tag => return .tag (← Link.recvTag)
  | .word => return .word (← Link.recvUInt32)
  | .doubleWord => return .doubleWord (← Link.recvUInt64)
  | .real => return .real (← Link.recvReal)
  | .plain width => return .plain (← Link.receive width)
  | .text => return .text (← Link.recvText)
  | .reals => return .reals (← Link.recvReals)
  | .call => do
    match ← Link.recvTag with
    | .work => return .call (← Link.recvText)
    | t => return .tag t
  | .result => return .result (← WorkResult.recv)

end Kind

theorem Kind.receives_recv {ω ρ : Type} [Remote ω ρ] (k : Kind) :
    Receives (k.recv : LinkM ω ρ Message) := by
  cases k with
  | tag => exact Link.receives_recvTag.bind fun _ => .pure _
  | word => exact ((Receives.receive 4).bind fun _ => .pure _).bind fun _ => .pure _
  | doubleWord => exact Link.receives_recvUInt64.bind fun _ => .pure _
  | real => exact Link.receives_recvReal.bind fun _ => .pure _
  | plain width => exact (Receives.receive width).bind fun _ => .pure _
  | text => exact Link.receives_recvText.bind fun _ => .pure _
  | reals => exact Link.receives_recvReals.bind fun _ => .pure _
  | call =>
    refine Link.receives_recvTag.bind fun t => ?_
    -- only the tag of a call has a name behind it
    cases t with
    | work => exact Link.receives_recvText.bind fun _ => .pure _
    | getName => exact .pure _
    | getCpuTime => exact .pure _
    | die => exact .pure _
  | result => exact WorkResult.receives_recv.bind fun _ => .pure _

/-! ## Looking at a link -/

/-- What a look comes to where the bytes `b` can be read before the far end comes to its end. -/
def Ending.sight : Ending → (b : Bytes) → Except Halt Bool
  | _, _ :: _ => .ok true
  | .closed, [] => .ok false
  | .failing e, [] => .error (.failed e)
  | .waiting, [] => .error .stalled

theorem Ending.sight_of_ne_nil {b : Bytes} (ending : Ending) (hb : b ≠ []) :
    ending.sight b = .ok true := by
  cases b with
  | nil => exact absurd rfl hb
  | cons first b => cases ending <;> rfl

/-- At bytes, or at the end of the stream, a look comes to an answer. -/
theorem Ending.sight_of_comes {ending : Ending} {b : Bytes} (hcomes : ending = .closed ∨ b ≠ []) :
    ending.sight b = .ok (decide (b ≠ [])) := by
  by_cases hb : b = []
  · rcases hcomes with hclosed | hne
    · subst hclosed hb
      rfl
    · exact absurd hb hne
  · rw [sight_of_ne_nil ending hb]
    simp [hb]

namespace Link

variable {ω ρ : Type} [Remote ω ρ] {Rest : ρ → Bytes → Prop} {ending : Ending}
variable {l : Link ρ} {w : ω} {b : Bytes}

/-- Looks so many times whether anything can be read. -/
def lookTimes : (times : ℕ) → LinkM ω ρ (List Bool)
  | 0 => return []
  | times + 1 => do
    let seen ← readable
    return seen :: (← lookTimes times)

/-- Whatever a look comes to, what is to be read stays as it is. -/
theorem meets_readable (hs : Supplies ω Rest ending) (hoffers : Offers Rest l b) :
    ∃ l', Meets readable l w (ending.sight b) l' w ∧ Offers Rest l' b := by
  unfold readable
  simp only [meets_getState_bind]
  by_cases hunread : l.unread = []
  · rw [if_neg (not_not.2 hunread)]
    rcases hoffers with ⟨rest, rfl, hrest⟩
    rw [hunread, List.nil_append]
    by_cases hnil : rest = []
    · subst hnil
      rcases hs.dry w hrest with ⟨x, hawait, hrest'⟩
      have hempty : Offers Rest ⟨l.unread, x⟩ [] := ⟨[], by rw [hunread]; rfl, hrest'⟩
      cases ending with
      | closed =>
        -- the end of the stream is looked at as a piece without bytes
        refine ⟨⟨[], x⟩, ?_, [], rfl, hrest'⟩
        rw [meets_bind_of_ok ((meets_nextPiece hawait).2 ⟨rfl, rfl, rfl⟩), meets_modifyState_bind]
        exact meets_pure.2 ⟨rfl, rfl, rfl⟩
      | failing e =>
        have hpiece := (meets_nextPiece hawait).2 ⟨rfl, rfl, rfl⟩
        exact ⟨⟨l.unread, x⟩, meets_bind_of_error hpiece, hempty⟩
      | waiting =>
        have hpiece := (meets_nextPiece hawait).2 ⟨rfl, rfl, rfl⟩
        exact ⟨⟨l.unread, x⟩, meets_bind_of_error hpiece, hempty⟩
    · rcases hs.piece w hrest hnil with ⟨p, more, x, hp, rfl, hawait, hrest'⟩
      refine ⟨⟨p, x⟩, ?_, more, rfl, hrest'⟩
      rw [Ending.sight_of_ne_nil ending hnil,
        meets_bind_of_ok ((meets_nextPiece hawait).2 ⟨rfl, rfl, rfl⟩), meets_modifyState_bind]
      refine meets_pure.2 ⟨?_, rfl, rfl⟩
      simp [hp]
  · have hb : b ≠ [] := by
      rcases hoffers with ⟨rest, rfl, -⟩
      simp [hunread]
    rw [if_pos hunread, Ending.sight_of_ne_nil ending hb]
    exact ⟨l, meets_pure.2 ⟨rfl, rfl, rfl⟩, hoffers⟩

theorem meets_lookTimes (hs : Supplies ω Rest ending) (hoffers : Offers Rest l b) (times : ℕ)
    (hcomes : times = 0 ∨ ending = .closed ∨ b ≠ []) :
    ∃ l', Meets (lookTimes times) l w (.ok (List.replicate times (decide (b ≠ [])))) l' w ∧
      Offers Rest l' b := by
  -- a look changes nothing, so every look sees the same
  induction times generalizing l with
  | zero => exact ⟨l, meets_pure.2 ⟨rfl, rfl, rfl⟩, hoffers⟩
  | succ times ih =>
    have hcomes' : ending = .closed ∨ b ≠ [] := by
      rcases hcomes with hzero | hcomes
      · cases hzero
      · exact hcomes
    rcases meets_readable (w := w) hs hoffers with ⟨l₁, hlook, hoffers₁⟩
    rw [Ending.sight_of_comes hcomes'] at hlook
    rcases ih hoffers₁ (.inr hcomes') with ⟨l', hmore, hoffers'⟩
    refine ⟨l', ?_, hoffers'⟩
    rw [lookTimes, meets_bind_of_ok hlook, meets_bind_of_ok hmore]
    exact meets_pure.2 ⟨rfl, rfl, rfl⟩

end Link

/-! ## One message -/

namespace Message

variable {ω ρ : Type} [Remote ω ρ] {Rest : ρ → Bytes → Prop} {ending : Ending}

theorem sends_send {m : Message} (hm : m.Fits) : Sends (send m : LinkM ω ρ Unit) m.encode := by
  cases m with
  | tag t => exact Link.sends_sendTag t
  | word n => exact sends_of_length (Bytes.length_littleEndian 4 _)
  | doubleWord n => exact Link.sends_sendUInt64 n
  | real x => exact Link.sends_sendReal x
  | plain bytes =>
    -- of a plain value without width nothing is written
    by_cases hnil : bytes = []
    · subst hnil
      exact ⟨[], rfl, rfl, List.not_mem_nil⟩
    · exact sends_writeAll hnil
  | text t => exact Link.sends_sendText hm
  | reals xs => exact Link.sends_sendReals hm
  | call name => exact Link.sends_call hm
  | result r => exact WorkResult.sends_send hm

theorem reads_recv (hs : Supplies ω Rest ending) {m : Message} (hm : m.Fits) :
    Reads Rest ending (m.kind.recv : LinkM ω ρ Message) m.encode m := by
  cases m with
  | tag t => exact (Link.reads_recvTag hs t).map Message.tag
  | word n => exact (Link.reads_recvUInt32 hs n).map Message.word
  | doubleWord n => exact (Link.reads_recvUInt64 hs n).map Message.doubleWord
  | real x => exact (Link.reads_recvReal hs x).map Message.real
  | plain bytes => exact (reads_receive hs bytes).map Message.plain
  | text t => exact (Link.reads_recvText hs hm).map Message.text
  | reals xs => exact (Link.reads_recvReals hs hm).map Message.reals
  | call name =>
    have hname := (Link.reads_recvText hs hm).map Message.call
    exact (Link.reads_recvTag hs .work).bind hname
  | result r => exact (WorkResult.reads_recv hs hm).map Message.result

end Message

end FleetEstimate
