import FleetEstimate.Proofs.Wire.Exchanges

/-!
# Looking at a link

A look at a link finds unread bytes at the near end, or takes there what has come from the
far end. It reads nothing and says nothing. A link whose far end is gone can still be read
until nothing is unread.
-/

namespace FleetEstimate

/-- How a link with nothing unread is found when this comes next. -/
def Arrival.readiness : Arrival → Readiness
  | .piece [] => .closed
  | .piece _ => .unread
  | .failed _ => .closed
  | .nothing => .quiet

namespace Link

variable {ω ρ : Type} [Remote ω ρ] {l : Link ρ}

/-- A byte can be read without waiting. -/
def HasUnread (ω : Type) [Remote ω ρ] (l : Link ρ) : Prop :=
  l.unread ≠ [] ∨ (Remote.poll ω l.remote).1.bytes ≠ []

/-- No byte is unread, and the connection is closed or has failed. -/
def HasEnded (ω : Type) [Remote ω ρ] (l : Link ρ) : Prop :=
  l.unread = [] ∧
    ((Remote.poll ω l.remote).1 = .piece [] ∨ ∃ e, (Remote.poll ω l.remote).1 = .failed e)

/-! ## A look at a link -/

theorem readiness_of_unread (h : l.unread ≠ []) : l.readiness ω = (.unread, l) := if_pos h

/-- With nothing unread, a look finds what comes next from the far end. -/
theorem readiness_of_unread_eq_nil (h : l.unread = []) :
    l.readiness ω = ((Remote.poll ω l.remote).1.readiness,
      ⟨(Remote.poll ω l.remote).1.bytes, (Remote.poll ω l.remote).2⟩) := by
  have hne : ¬ l.unread ≠ [] := not_not.mpr h
  rw [readiness, if_neg hne]
  rcases Remote.poll ω l.remote with ⟨(_ | _) | _ | _, x⟩ <;>
    simp [Arrival.bytes, Arrival.readiness, h]

theorem readiness_eq_unread_iff : (l.readiness ω).1 = .unread ↔ l.HasUnread ω := by
  unfold HasUnread
  by_cases h : l.unread = []
  · rw [readiness_of_unread_eq_nil h]
    rcases (Remote.poll ω l.remote).1 with (_ | _) | _ | _ <;>
      simp [Arrival.readiness, Arrival.bytes, h]
  · simp [readiness_of_unread h, h]

theorem readiness_eq_closed_iff : (l.readiness ω).1 = .closed ↔ l.HasEnded ω := by
  unfold HasEnded
  by_cases h : l.unread = []
  · rw [readiness_of_unread_eq_nil h]
    rcases (Remote.poll ω l.remote).1 with (_ | _) | _ | _ <;> simp [Arrival.readiness, h]
  · simp [readiness_of_unread h, h]

/-- After a look, what can be read without waiting is at the near end. -/
theorem unread_readiness : (l.readiness ω).2.unread ≠ [] ↔ l.HasUnread ω := by
  unfold HasUnread
  by_cases h : l.unread = []
  · simp [readiness_of_unread_eq_nil h, h]
  · simp [readiness_of_unread h, h]

/-- A look reads nothing and says nothing. -/
theorem Logs.readiness {Log : ρ → Bytes → Bytes → Prop} {given read : Bytes}
    (hkeep : KeepsLog ω Log) (hlog : Logs Log l given read) :
    Logs Log (l.readiness ω).2 given read := by
  by_cases h : l.unread = []
  · have hlog' := hkeep.poll hlog rfl
    rw [h, List.append_nil] at hlog'
    rw [readiness_of_unread_eq_nil h]
    exact hlog'
  · rw [readiness_of_unread h]
    exact hlog

end Link

end FleetEstimate
