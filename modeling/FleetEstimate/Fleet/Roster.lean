/-!
# Rosters

A roster keeps values under numbers that it gives out itself, in the order in which
it gave them out. No number is given out twice, also after its value is gone.
-/

namespace FleetEstimate

/-- Values under numbers. The numbers ascend and lie below the next one. -/
structure Roster (α : Type) where
  entries : List (Nat × α)
  next : Nat
  ascending : (entries.map (·.1)).Pairwise (· < ·)
  below_next : ∀ p ∈ entries, p.1 < next

namespace Roster

variable {α : Type}

def empty : Roster α := ⟨[], 0, .nil, by simp⟩

/-- The numbers in use, ascending. -/
def ids (r : Roster α) : List Nat := r.entries.map (·.1)

/-- The value under a number. -/
def get? (r : Roster α) (id : Nat) : Option α :=
  (r.entries.find? fun p => p.1 == id).map (·.2)

/-- Puts a value under the next number. -/
def add (r : Roster α) (a : α) : Roster α where
  entries := r.entries ++ [(r.next, a)]
  next := r.next + 1
  ascending := by
    rw [List.map_append]
    refine List.pairwise_append.2 ⟨r.ascending, by simp, ?_⟩
    intro x hx y hy
    obtain ⟨p, hp, rfl⟩ := List.mem_map.1 hx
    simp only [List.map_cons, List.map_nil, List.mem_singleton] at hy
    exact hy ▸ r.below_next p hp
  below_next p hp := by
    rcases List.mem_append.1 hp with hp | hp
    · exact Nat.lt_succ_of_lt (r.below_next p hp)
    · simp only [List.mem_singleton] at hp
      subst hp
      exact Nat.lt_succ_self _

/-- Changes every value. -/
def mapEntries (r : Roster α) (f : Nat → α → α) : Roster α where
  entries := r.entries.map fun p => (p.1, f p.1 p.2)
  next := r.next
  ascending := by
    rw [List.map_map]
    exact r.ascending
  below_next p hp := by
    obtain ⟨q, hq, rfl⟩ := List.mem_map.1 hp
    exact r.below_next q hq

/-- Changes the value under a number, if there is one. -/
def modify (r : Roster α) (id : Nat) (f : α → α) : Roster α :=
  r.mapEntries fun i a => if i = id then f a else a

/-- Keeps the entries that satisfy a condition. -/
def filter (r : Roster α) (keep : Nat → α → Bool) : Roster α where
  entries := r.entries.filter fun p => keep p.1 p.2
  next := r.next
  ascending := r.ascending.sublist (List.filter_sublist.map _)
  below_next p hp := r.below_next p (List.mem_filter.1 hp).1

/-- Removes a number. -/
def erase (r : Roster α) (id : Nat) : Roster α := r.filter fun i _ => i ≠ id

/-- Removes all numbers. -/
def clear (r : Roster α) : Roster α := ⟨[], r.next, .nil, by simp⟩

/-! ## What is found under a number -/

/-- A number that is not given out yet has no value. -/
theorem get?_eq_none_of_next_le (r : Roster α) {id : Nat} (h : r.next ≤ id) : r.get? id = none := by
  have hnone : (r.entries.find? fun p => p.1 == id) = none := by
    refine List.find?_eq_none.2 fun p hp heq => ?_
    have hlt := r.below_next p hp
    have : p.1 = id := by simpa using heq
    omega
  simp [get?, hnone]

theorem get?_empty (id : Nat) : (empty : Roster α).get? id = none := rfl

theorem get?_clear (r : Roster α) (id : Nat) : r.clear.get? id = none := rfl

/-- A new value is found under the number that it was given, and no other is moved. -/
theorem get?_add (r : Roster α) (a : α) (id : Nat) :
    (r.add a).get? id = if id = r.next then some a else r.get? id := by
  by_cases h : id = r.next
  · subst h
    have hnone := r.get?_eq_none_of_next_le (Nat.le_refl _)
    simp only [get?, Option.map_eq_none_iff] at hnone
    simp [get?, add, List.find?_append, hnone]
  · have hne : (r.next == id) = false := by simpa using fun e => h e.symm
    simp [get?, add, List.find?_append, hne, h]

theorem get?_mapEntries (r : Roster α) (f : Nat → α → α) (id : Nat) :
    (r.mapEntries f).get? id = (r.get? id).map (f id) := by
  simp only [get?, mapEntries, List.find?_map, Option.map_map]
  cases h : r.entries.find? ((fun p => p.1 == id) ∘ fun p => (p.1, f p.1 p.2)) with
  | none =>
    have h' : (r.entries.find? fun p => p.1 == id) = none := h
    simp [h']
  | some p =>
    have h' : (r.entries.find? fun p => p.1 == id) = some p := h
    have hid : p.1 = id := by simpa using List.find?_some h'
    simp [h', hid]

/-- Only the value under the number changes. -/
theorem get?_modify (r : Roster α) (id : Nat) (f : α → α) (other : Nat) :
    (r.modify id f).get? other = if other = id then (r.get? other).map f else r.get? other := by
  rw [modify, get?_mapEntries]
  by_cases h : other = id <;> simp [h]

/-- Only the value under the number is gone. -/
theorem get?_erase (r : Roster α) (id other : Nat) :
    (r.erase id).get? other = if other = id then none else r.get? other := by
  simp only [get?, erase, filter, List.find?_filter]
  by_cases h : other = id
  · subst h
    simp
  · rw [if_neg h]
    congr 2
    funext p
    by_cases hp : p.1 = other <;> simp [hp, h]

/-- Changing values changes no number. -/
theorem ids_mapEntries (r : Roster α) (f : Nat → α → α) : (r.mapEntries f).ids = r.ids := by
  simp [ids, mapEntries]

theorem ids_modify (r : Roster α) (id : Nat) (f : α → α) : (r.modify id f).ids = r.ids :=
  r.ids_mapEntries _

end Roster

end FleetEstimate
