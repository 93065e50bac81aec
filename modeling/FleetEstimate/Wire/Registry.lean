import FleetEstimate.Failure

/-!
# Calls by name

A registry holds the actions that a far end may call, under their names. The last
registration of a name counts.
-/

namespace FleetEstimate

/-- Actions of a kind `α` by name, the last registered first. -/
structure Registry (α : Type) where
  handlers : List (String × α)

namespace Registry

variable {α : Type}

def empty : Registry α := ⟨[]⟩

/-- Puts an action under a name, in place of any other one. -/
def register (r : Registry α) (name : String) (handler : α) : Registry α :=
  ⟨(name, handler) :: r.handlers.filter fun h => h.1 ≠ name⟩

/-- The action under a name. It is for the caller to perform it. -/
def find (r : Registry α) (name : String) : Except ProtocolError α :=
  match r.handlers.find? fun h => h.1 == name with
  | some (_, handler) => .ok handler
  | none => .error (.unknownFunction name)

theorem find_register_self (r : Registry α) (name : String) (handler : α) :
    (r.register name handler).find name = .ok handler := by
  simp [register, find]

theorem find_register_ne (r : Registry α) {name other : String} (handler : α) (h : other ≠ name) :
    (r.register name handler).find other = r.find other := by
  have key : (r.handlers.filter fun h => h.1 ≠ name).find? (fun h => h.1 == other) =
      r.handlers.find? fun h => h.1 == other := by
    rw [List.find?_filter]
    congr 1
    funext p
    by_cases hp : p.1 = other <;> simp [hp, h]
  unfold register find
  rw [List.find?_cons_of_neg (by simpa using fun e => h e.symm), key]

end Registry

end FleetEstimate
