import FleetEstimate.Proofs.Estimation.Samples
import FleetEstimate.Proofs.Worker.Protocol
import FleetEstimate.Worker

/-!
# What a worker owes its coordinator

A session is a course of turns: the requests in the order in which they come, each with what
the outside world adds to it. What a worker replies in a turn is told by the turns before it,
which are kept with the latest one first.
-/

namespace FleetEstimate

/-! ## Requests in order -/

section Order

variable (E : Type) [Experiment E]

/-- A request that a worker serves to its end, with a system (`ready`) or without one. -/
def Request.Served (ready : Bool) : Request → Prop
  | .name => True
  | .busyTime => True
  | .system text => text.utf8ByteSize ≤ maxPayload ∧ ∃ e : E, Experiment.ofText text = .ok e
  | .parameter _ => ready = true
  | .work => ready = true
  | .die => False
  | .other _ => False

/-- Whether a worker has a system after a request. -/
def Request.readies (ready : Bool) : Request → Bool
  | .system _ => true
  | _ => ready

/-- Complete requests, none of which comes before its time. -/
def InOrder : (ready : Bool) → List Request → Prop
  | _, [] => True
  | ready, q :: qs => q.Served E ready ∧ InOrder (q.readies ready) qs

end Order

/-! ## Turns -/

/-- A request with what the outside world has added to it. -/
inductive Turn
  | name
  | busyTime
  | system (text : String)
  /-- The system is reseeded before it gets the parameter. -/
  | parameter (seed : UInt64) (value : Real64)
  /-- So many samples are drawn, and that takes so long. -/
  | work (drawn : ℕ) (spent : Nanoseconds)

section Course

variable {ω : Type} [WorkerWorld ω]

/-- The number of samples of a work unit. -/
def WorkSpan.drawn (length : Nanoseconds) (span : WorkSpan) : ℕ :=
  if length = 0 then 1 else span.further + 1

theorem WorkSpan.drawn_pos (length : Nanoseconds) (span : WorkSpan) : 0 < span.drawn length := by
  unfold drawn
  split <;> omega

/-- The turn that a request comes to, for a worker with work units of the given length. -/
def Turn.of (length : Nanoseconds) : Request → ω → Option (Turn × ω)
  | .name, w => some (.name, w)
  | .busyTime, w => some (.busyTime, w)
  | .system text, w => some (.system text, w)
  | .parameter value, w =>
    let (seed, w) := WorkerWorld.freshSeed w
    some (.parameter seed value, w)
  | .work, w =>
    let (span, w) := WorkerWorld.span length w
    some (.work (span.drawn length) span.spent, w)
  | .die, _ => none
  | .other _, _ => none

/-- The turns that requests come to, and the outside world after them. -/
def course (length : Nanoseconds) : List Request → ω → List Turn × ω
  | [], w => ([], w)
  | q :: qs, w =>
    match Turn.of length q w with
    | none => ([], w)
    | some (t, w) =>
      let (ts, w) := course length qs w
      (t :: ts, w)

end Course

/-! ## The history of a session -/

section History

variable {E : Type} [Experiment E]

/-- The system of a session with the text that it was rebuilt from: reseeded, set to the
parameters and sampled since, as the turns were. -/
def standing : (past : List Turn) → Option (String × E)
  | [] => none
  | .system text :: _ => (Experiment.ofText text).toOption.map fun e => (text, e)
  | .parameter seed value :: past =>
    (standing past).map fun (text, e) =>
      (text, Experiment.setParameter value (Experiment.seed seed e))
  | .work drawn _ :: past => (standing past).map fun (text, e) => (text, Experiment.skip drawn e)
  | .name :: past => standing past
  | .busyTime :: past => standing past

/-- The parameter that was given last since the system was. -/
def given : (past : List Turn) → Option Real64
  | [] => none
  | .system _ :: _ => none
  | .parameter _ value :: _ => some value
  | .work _ _ :: past => given past
  | .name :: past => given past
  | .busyTime :: past => given past

/-- The times of the work units since the last query for the busy time. -/
def untold : (past : List Turn) → List Nanoseconds
  | [] => []
  | .busyTime :: _ => []
  | .work _ spent :: past => untold past ++ [spent]
  | .name :: past => untold past
  | .system _ :: past => untold past
  | .parameter _ _ :: past => untold past

/-- The times that are told in some turns after others, one list for each query. -/
def told : (past turns : List Turn) → List (List Nanoseconds)
  | _, [] => []
  | past, .busyTime :: ts => untold past :: told (.busyTime :: past) ts
  | past, t :: ts => told (t :: past) ts

/-- The times of all work units. -/
def Turn.spent : Turn → List Nanoseconds
  | .work _ spent => [spent]
  | _ => []

/-- The time of every work unit is told once, or not told yet. -/
theorem told_untold (past ts : List Turn) :
    (told past ts).flatten ++ untold (ts.reverse ++ past) =
      untold past ++ ts.flatMap Turn.spent := by
  -- each turn moves into the past; only a query empties what is untold
  induction ts generalizing past with
  | nil => simp [told]
  | cons t ts ih =>
    have hrest := ih (t :: past)
    rw [List.reverse_cons, List.append_assoc, List.singleton_append, List.flatMap_cons]
    cases t with
    | busyTime =>
      rw [told, List.flatten_cons, List.append_assoc, hrest]
      rfl
    | work drawn spent =>
      rw [told, hrest, untold, List.append_assoc]
      · rfl
      · simp
    | _ =>
      rw [told, hrest]
      · rfl
      · simp

/-! ## Replies -/

/-- Experiments that keep the parameter they are set to while they are sampled. -/
structure KeepsParameter (E : Type) [Experiment E] : Prop where
  set : ∀ (x : Real64) (e : E), Experiment.parameter (Experiment.setParameter x e) = x
  sample : ∀ e : E, Experiment.parameter (Experiment.sample e).2 = Experiment.parameter e

theorem KeepsParameter.skip (h : KeepsParameter E) (n : ℕ) (e : E) :
    Experiment.parameter (Experiment.skip n e) = Experiment.parameter e := by
  induction n generalizing e with
  | zero => rfl
  | succ n ih => rw [Experiment.skip, ih, h.sample]

/-- The parameter is the one that was given last, or else the one that the text sets. -/
theorem KeepsParameter.standing (h : KeepsParameter E) {past : List Turn} {text : String}
    {e e₀ : E} (hstanding : standing past = some (text, e))
    (htext : Experiment.ofText text = .ok e₀) :
    Experiment.parameter e = (given past).getD (Experiment.parameter e₀) := by
  -- back to the last turn that set the parameter, over turns that leave it alone
  induction past generalizing e with
  | nil => cases hstanding
  | cons t past ih =>
    cases t with
    | name => exact ih hstanding
    | busyTime => exact ih hstanding
    | system text' =>
      rw [FleetEstimate.standing, Option.map_eq_some_iff] at hstanding
      rcases hstanding with ⟨e', he', heq⟩
      cases heq
      rw [htext] at he'
      cases he'
      rfl
    | parameter seed value =>
      rw [FleetEstimate.standing, Option.map_eq_some_iff] at hstanding
      rcases hstanding with ⟨y, -, heq⟩
      cases heq
      exact h.set value _
    | work drawn spent =>
      rw [FleetEstimate.standing, Option.map_eq_some_iff] at hstanding
      rcases hstanding with ⟨y, hy, heq⟩
      cases heq
      rw [h.skip]
      exact ih hy

/-- What a worker tells of a work unit of `drawn` samples of the system `e` with this text: its
digest, its parameter, and the totals of its next samples. For experiments that keep the parameter
they are set to, that parameter is the one given last. -/
structure Worked (text : String) (e : E) (past : List Turn) (drawn : ℕ) (r : WorkResult) :
    Prop where
  digest : r.digest = (Digest.of (Text.toBytes text)).toHex
  parameter : r.parameter = Experiment.parameter (Experiment.skip drawn e)
  given : KeepsParameter E → ∀ e₀ : E, Experiment.ofText text = .ok e₀ →
    r.parameter = (given past).getD (Experiment.parameter e₀)
  pos : 0 < drawn
  samples : r.batch.samples.toNat = drawn
  totals : (Totals.zero (Experiment.count e)).accumulateAll drawn e = .ok r.batch

/-- What a worker replies in a turn, after the turns `past`. -/
inductive Turn.Reply (E : Type) [Experiment E] (c : WorkerConfig) (past : List Turn) :
    Turn → Bytes → Prop
  | name : Reply E c past .name (Text.frame c.name)
  | busyTime : Reply E c past .busyTime (Nanoseconds.seconds (untold past).sum).toBytes
  | system {text} : Reply E c past (.system text) []
  | parameter {seed value} : Reply E c past (.parameter seed value) []
  | work {drawn spent text r} {e : E} (stands : standing past = some (text, e))
      (worked : Worked text e past drawn r) : Reply E c past (.work drawn spent) r.encode

/-- What a worker replies in some turns, after the turns `past`. -/
inductive Replied (E : Type) [Experiment E] (c : WorkerConfig) :
    (past turns : List Turn) → List Bytes → Prop
  | nil {past} : Replied E c past [] []
  | cons {past t ts bytes replies} (reply : t.Reply E c past bytes)
      (rest : Replied E c (t :: past) ts replies) :
      Replied E c past (t :: ts) (bytes :: replies)

/-- A turn whose reply can be written: no part of it is longer than a message may be, and the
number of samples has 64 bits. -/
def Turn.Fits (E : Type) [Experiment E] (c : WorkerConfig) (past : List Turn) : Turn → Prop
  | .name => c.name.utf8ByteSize ≤ maxPayload
  | .work drawn _ => drawn < UInt64.size ∧ ∀ text, ∀ e : E, standing past = some (text, e) →
      8 * Experiment.count e ≤ maxPayload
  | _ => True

/-- The replies of some turns can be written. -/
def AllFit (E : Type) [Experiment E] (c : WorkerConfig) : (past turns : List Turn) → Prop
  | _, [] => True
  | past, t :: ts => t.Fits E c past ∧ AllFit E c (t :: past) ts

end History

end FleetEstimate
