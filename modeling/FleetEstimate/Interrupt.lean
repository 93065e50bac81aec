/-!
# Requests to stop

An interrupt is a flag that is raised once and for all. Its copies share one flag,
so that raising any of them raises all.
-/

namespace FleetEstimate

/-- A copy of a flag, by the flag's place among all flags. -/
structure Interrupt where
  flag : Nat
deriving DecidableEq, Repr

/-- All flags there are. -/
structure Flags where
  raised : List Bool
deriving DecidableEq, Repr

namespace Flags

def empty : Flags := ⟨[]⟩

/-- A fresh flag. -/
def add (f : Flags) : Interrupt × Flags := (⟨f.raised.length⟩, ⟨f.raised ++ [false]⟩)

/-- Raises the flag of an interrupt. -/
def raise (f : Flags) (i : Interrupt) : Flags := ⟨f.raised.set i.flag true⟩

/-- Whether the flag of an interrupt is raised. -/
def isRaised (f : Flags) (i : Interrupt) : Bool := f.raised.getD i.flag false

end Flags

end FleetEstimate
