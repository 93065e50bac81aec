import Mathlib
import FleetEstimate.Fleet.Basic

/-!
# Who is in which state

A fleet is looked at through `get?`: which member stands under a number. `stateOf?`
is its state. The searches of a fleet, `find?`, `idsIn` and `count`, are told by it.
-/

namespace FleetEstimate

namespace Roster

variable {α : Type}

theorem nodup_ids (r : Roster α) : r.ids.Nodup :=
  r.ascending.imp fun h => Nat.ne_of_lt h

/-- What is found under a number is the entry with it. -/
theorem get?_eq_some_iff (r : Roster α) (id : Nat) (a : α) :
    r.get? id = some a ↔ (id, a) ∈ r.entries := by
  unfold get?
  constructor
  · intro h
    rcases Option.map_eq_some_iff.1 h with ⟨p, hp, rfl⟩
    have hid : p.1 = id := by simpa using List.find?_some hp
    subst hid
    exact List.mem_of_find?_eq_some hp
  · intro h
    cases hfind : r.entries.find? fun p => p.1 == id with
    | none => exact absurd (List.find?_eq_none.1 hfind _ h) (by simp)
    | some p =>
      have hid : p.1 = id := by simpa using List.find?_some hfind
      have hmem := List.mem_of_find?_eq_some hfind
      -- numbers are not used twice, so the first entry found is this one
      have heq : p = (id, a) := List.inj_on_of_nodup_map r.nodup_ids hmem h hid
      rw [heq]
      rfl

end Roster

namespace Fleet

variable {ρ : Type} {f g : Fleet ρ} {id : MemberId} {s : MemberState}

/-- Members stand under numbers that were given out. -/
theorem lt_next_of_get? {m : Member ρ} (hm : f.get? id = some m) : id < f.members.next := by
  refine lt_of_not_ge fun hge => ?_
  rw [Fleet.get?, f.members.get?_eq_none_of_next_le hge] at hm
  cases hm

/-- The state of the member with a number. -/
def stateOf? (f : Fleet ρ) (id : MemberId) : Option MemberState := (f.get? id).map (·.state)

theorem stateOf?_eq_some_iff : f.stateOf? id = some s ↔ ∃ m, f.get? id = some m ∧ m.state = s :=
  Option.map_eq_some_iff

theorem stateOf?_eq_none_iff : f.stateOf? id = none ↔ f.get? id = none :=
  Option.map_eq_none_iff

/-- Nobody is in a state. -/
def NoneIn (f : Fleet ρ) (s : MemberState) : Prop := ∀ id, f.stateOf? id ≠ some s

theorem state_eq_of_get? {m : Member ρ} (hs : f.stateOf? id = some s) (hm : f.get? id = some m) :
    m.state = s := by
  rcases stateOf?_eq_some_iff.1 hs with ⟨m', hm', hs'⟩
  rw [hm] at hm'
  rw [Option.some.inj hm', hs']

theorem mem_idsIn : id ∈ f.idsIn s ↔ f.stateOf? id = some s := by
  rw [stateOf?_eq_some_iff]
  simp only [idsIn, List.mem_map, List.mem_filter, get?, Roster.get?_eq_some_iff, beq_iff_eq]
  constructor
  · intro h
    rcases h with ⟨⟨i, m⟩, ⟨h, hs⟩, rfl⟩
    exact ⟨m, h, hs⟩
  · intro h
    rcases h with ⟨m, h, hs⟩
    exact ⟨(id, m), ⟨h, hs⟩, rfl⟩

theorem stateOf?_of_find? (h : f.find? s = some id) : f.stateOf? id = some s := by
  rcases Option.map_eq_some_iff.1 h with ⟨⟨i, m⟩, hp, rfl⟩
  rw [stateOf?_eq_some_iff]
  refine ⟨m, ?_, by simpa using List.find?_some hp⟩
  exact (Roster.get?_eq_some_iff _ _ _).2 (List.mem_of_find?_eq_some hp)

theorem find?_eq_none_iff : f.find? s = none ↔ ∀ id, f.stateOf? id ≠ some s := by
  constructor
  · intro h id hid
    rcases stateOf?_eq_some_iff.1 hid with ⟨m, hm, hs⟩
    rw [find?, Option.map_eq_none_iff, List.find?_eq_none] at h
    exact h (id, m) ((Roster.get?_eq_some_iff _ _ _).1 hm) (by simpa using hs)
  · intro h
    cases hfind : f.find? s with
    | none => rfl
    | some id => exact absurd (stateOf?_of_find? hfind) (h id)

theorem anyWorking_eq_false_iff : f.anyWorking = false ↔ ∀ id, f.stateOf? id ≠ some .working := by
  rw [anyWorking, ← find?_eq_none_iff]
  cases f.find? .working <;> simp

theorem nodup_idsIn : (f.idsIn s).Nodup :=
  f.members.nodup_ids.sublist (List.filter_sublist.map _)

/-- A state that some member has left and none has entered has fewer members. -/
theorem count_lt (hsub : ∀ i, g.stateOf? i = some s → f.stateOf? i = some s)
    (hid : f.stateOf? id = some s) (hid' : g.stateOf? id ≠ some s) : g.count s < f.count s := by
  have hmem : id ∈ f.idsIn s := mem_idsIn.2 hid
  -- whoever is in the state now was in it before and is not `id`
  have hle : (g.idsIn s).Subperm ((f.idsIn s).erase id) := by
    refine nodup_idsIn.subperm fun i hi => ?_
    rw [mem_idsIn] at hi
    refine (List.mem_erase_of_ne ?_).2 (mem_idsIn.2 (hsub i hi))
    rintro rfl
    exact hid' hi
  have hlen := hle.length_le
  rw [List.length_erase_of_mem hmem] at hlen
  have hpos := List.length_pos_of_mem hmem
  unfold count
  omega

end Fleet

end FleetEstimate
