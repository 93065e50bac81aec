import Mathlib
import FleetEstimate.Settings

/-!
# Texts with blanks and commas

A setting counts without the blanks at its ends, and a list is what stands between its commas:
it has at least one part, and parts may be empty. The numbers of a list are read part by part.
The first part that is no number is told, and only where every part is one does it matter
whether all of them are finite.
-/

namespace FleetEstimate

/-! ## Blanks -/

namespace Text

variable {text core : String}

/-- The text is `core` with blanks around it, and `core` has none at its ends. -/
structure Trims (text core : String) : Prop where
  around : ∃ before after, text = before ++ core ++ after ∧
    (∀ c ∈ before.toList, isBlank c = true) ∧ ∀ c ∈ after.toList, isBlank c = true
  head : ∀ c ∈ core.toList.head?, isBlank c = false
  last : ∀ c ∈ core.toList.getLast?, isBlank c = false

theorem not_blank_of_head?_dropWhile {cs : List Char} {c : Char}
    (h : c ∈ (cs.dropWhile isBlank).head?) : isBlank c = false := by
  have hnot := List.head?_dropWhile_not isBlank cs
  rw [Option.mem_def.mp h] at hnot
  exact hnot

theorem dropWhile_isBlank {cs : List Char} (h : ∀ c ∈ cs.head?, isBlank c = false) :
    cs.dropWhile isBlank = cs := by
  cases cs with
  | nil => rfl
  | cons c cs => simp [h c rfl]

theorem trims_trimmed (text : String) : Trims text (trimmed text) := by
  -- what is left in front, the text up to its last character that is no blank
  obtain ⟨front, hfront⟩ : ∃ front, front = text.toList.dropWhile isBlank := ⟨_, rfl⟩
  obtain ⟨kept, hkept⟩ : ∃ kept, kept = front.reverse.dropWhile isBlank := ⟨_, rfl⟩
  have htrimmed : (trimmed text).toList = kept.reverse := by
    rw [hkept, hfront, trimmed, String.toList_ofList]
  have hparts : front = kept.reverse ++ (front.reverse.takeWhile isBlank).reverse := by
    rw [← List.reverse_append, hkept, List.takeWhile_append_dropWhile, List.reverse_reverse]
  refine ⟨⟨String.ofList (text.toList.takeWhile isBlank),
    String.ofList (front.reverse.takeWhile isBlank).reverse, ?_, ?_, ?_⟩, ?_, ?_⟩
  · rw [← String.toList_inj, String.toList_append, String.toList_append, htrimmed,
      String.toList_ofList, String.toList_ofList, List.append_assoc, ← hparts, hfront,
      List.takeWhile_append_dropWhile]
  · intro c hc
    rw [String.toList_ofList] at hc
    exact List.mem_takeWhile_imp hc
  · intro c hc
    rw [String.toList_ofList, List.mem_reverse] at hc
    exact List.mem_takeWhile_imp hc
  · intro c hc
    rw [htrimmed] at hc
    have hc' : c ∈ (text.toList.dropWhile isBlank).head? := by
      rw [← hfront, hparts, List.head?_append, Option.mem_def.mp hc]
      rfl
    exact not_blank_of_head?_dropWhile hc'
  · intro c hc
    rw [htrimmed, List.getLast?_reverse, hkept] at hc
    exact not_blank_of_head?_dropWhile hc

theorem Trims.trimmed_eq (h : Trims text core) : trimmed text = core := by
  obtain ⟨⟨before, after, rfl, hbefore, hafter⟩, hhead, hlast⟩ := h
  -- from behind, the blanks end at the last character of the core
  have hbehind : (after.toList.reverse ++ core.toList.reverse).dropWhile isBlank =
      core.toList.reverse := by
    rw [List.dropWhile_append_of_pos (fun c hc => hafter c (List.mem_reverse.mp hc))]
    exact dropWhile_isBlank fun c hc => hlast c (by rwa [List.head?_reverse] at hc)
  -- in front they have ended at the first one, unless there is no core
  have hfront : (core.toList ++ after.toList).dropWhile isBlank = core.toList ++ after.toList ∨
      core.toList = [] := by
    cases hcore : core.toList with
    | nil => exact .inr rfl
    | cons c cs =>
      refine .inl (dropWhile_isBlank ?_)
      simpa [hcore] using hhead
  rw [trimmed, String.toList_append, String.toList_append, List.append_assoc,
    List.dropWhile_append_of_pos hbefore, ← String.toList_inj, String.toList_ofList]
  rcases hfront with hfront | hempty
  · rw [hfront, List.reverse_append, hbehind, List.reverse_reverse]
  · have hblank : after.toList.dropWhile isBlank = [] := List.dropWhile_eq_nil_iff.mpr hafter
    rw [hempty, List.nil_append, hblank]
    rfl

theorem trims_iff : Trims text core ↔ trimmed text = core := by
  constructor
  · exact Trims.trimmed_eq
  · rintro rfl
    exact trims_trimmed text

end Text

namespace Settings

open Decimal (NumberError)

variable {α ε : Type}

/-- The text, without the blanks at its ends, is read as a value. -/
def Denotes (read : String → Except ε α) (text : String) (x : α) : Prop :=
  ∃ core, Text.Trims text core ∧ read core = .ok x

/-- The text, without the blanks at its ends, is not read. -/
def Refused (read : String → Except ε α) (text : String) (e : ε) : Prop :=
  ∃ core, Text.Trims text core ∧ read core = .error e

section

variable {read : String → Except ε α} {text : String} {x : α} {e : ε}

theorem denotes_iff : Denotes read text x ↔ read (Text.trimmed text) = .ok x := by
  simp only [Denotes, Text.trims_iff, exists_eq_left']

theorem refused_iff : Refused read text e ↔ read (Text.trimmed text) = .error e := by
  simp only [Refused, Text.trims_iff, exists_eq_left']

theorem mapError_trimmed_eq_ok_iff {g : ε → SettingsError} :
    (read (Text.trimmed text)).mapError g = .ok x ↔ Denotes read text x := by
  rw [denotes_iff]
  cases read (Text.trimmed text) <;> simp [Except.mapError]

theorem mapError_trimmed_eq_error_iff {g : ε → SettingsError} {e' : SettingsError} :
    (read (Text.trimmed text)).mapError g = .error e' ↔ ∃ e, Refused read text e ∧ e' = g e := by
  simp only [refused_iff]
  cases read (Text.trimmed text) <;> simp [Except.mapError, eq_comm]

theorem Denotes.unique {y : α} (h : Denotes read text x) (h' : Denotes read text y) : x = y := by
  simpa using (denotes_iff.mp h).symm.trans (denotes_iff.mp h')

end

/-! ## Commas -/

/-- The parts stand between the commas of a list. -/
structure Segments (list : String) (parts : List String) : Prop where
  ne_nil : parts ≠ []
  clear : ∀ part ∈ parts, ',' ∉ part.toList
  joined : ",".intercalate parts = list

theorem notMem_of_mem_splitOn {c : Char} {cs part : List Char} (h : part ∈ cs.splitOn c) :
    c ∉ part := by
  induction cs generalizing part with
  | nil => simp_all
  | cons d cs ih =>
    rw [List.splitOn_cons_eq_if_modifyHead] at h
    split at h
    case isTrue heq =>
      rcases List.mem_cons.mp h with rfl | hmem
      · exact List.not_mem_nil
      · exact ih hmem
    case isFalse hne =>
      -- any other character goes to the front of the first part
      cases hsplit : cs.splitOn c with
      | nil => exact absurd hsplit (List.splitOn_ne_nil c cs)
      | cons first rest =>
        rw [hsplit] at h ih
        rcases List.mem_cons.mp h with rfl | hmem
        · have hfirst : c ∉ first := ih List.mem_cons_self
          have hd : c ≠ d := fun heq => hne (by simp [heq])
          exact fun hmem => (List.mem_cons.mp hmem).elim hd hfirst
        · exact ih (List.mem_cons_of_mem _ hmem)

theorem segments_commaParts (list : String) : Segments list (commaParts list) where
  ne_nil := by simp [commaParts, List.splitOn_ne_nil]
  clear := by
    intro part hpart
    obtain ⟨cs, hcs, rfl⟩ := List.mem_map.mp hpart
    rw [String.toList_ofList]
    exact notMem_of_mem_splitOn hcs
  joined := by
    rw [← String.toList_inj, String.toList_intercalate, commaParts, List.map_map]
    -- as lists of characters, where the library joins what it has split
    have htoList : String.toList ∘ String.ofList = id := by
      funext cs
      exact String.toList_ofList
    rw [htoList, List.map_id]
    exact List.intercalate_splitOn ','

theorem segments_iff {list : String} {parts : List String} :
    Segments list parts ↔ commaParts list = parts := by
  constructor
  · rintro ⟨hne, hclear, rfl⟩
    -- parts without a comma are what their joined text is split into
    have hchars : ∀ cs ∈ parts.map String.toList, ',' ∉ cs := by
      intro cs hcs
      obtain ⟨part, hpart, rfl⟩ := List.mem_map.mp hcs
      exact hclear part hpart
    have hsplit := List.splitOn_intercalate ',' hchars (by simpa using hne)
    rw [commaParts, String.toList_intercalate]
    have hcomma : ",".toList = [','] := rfl
    rw [hcomma, hsplit, List.map_map]
    simp [Function.comp_def]
  · rintro rfl
    exact segments_commaParts list

/-! ## Numbers -/

/-- Reads a number. -/
def readReal (text : String) : Except NumberError Real64 :=
  (Decimal.readFloat text).map Real64.ofFloat

/-- These are the numbers between the commas of a list. -/
def Numbers (list : String) (xs : List Real64) : Prop :=
  ∃ parts, Segments list parts ∧ List.Forall₂ (Denotes readReal) parts xs

/-- Some part of the list is no number, and the first such part fails with this error. -/
def NotNumbers (list : String) (e : NumberError) : Prop :=
  ∃ front part behind, Segments list (front ++ part :: behind) ∧ Refused readReal part e ∧
    ∀ p ∈ front, ∃ x, Denotes readReal p x

/-- Reads one part of a list of parameters. -/
def readPart (part : String) : Except SettingsError Real64 :=
  (readReal (Text.trimmed part)).mapError .parameter

theorem readParameters_eq (list : String) :
    readParameters list = (commaParts list).mapM readPart >>= fun xs =>
      if xs.all Real64.isFinite then .ok xs else .error (.notFinite list) := by
  unfold readParameters
  congr 2
  funext part
  rw [readPart, readReal]
  cases Decimal.readFloat (Text.trimmed part) <;> rfl

theorem mapM_eq_ok_iff {β : Type} {f : α → Except ε β} {as : List α} {bs : List β} :
    as.mapM f = .ok bs ↔ List.Forall₂ (fun a b => f a = .ok b) as bs := by
  induction as generalizing bs with
  | nil => simp [pure, Except.pure, eq_comm]
  | cons a as ih =>
    rw [List.mapM_cons, List.forall₂_cons_left_iff]
    cases f a with
    | error e => simp [bind, Except.bind]
    | ok b =>
      -- the head is read, so it is up to the tail
      cases hrest : as.mapM f with
      | error e => simp [bind, Except.bind, ← ih, hrest]
      | ok rest => simp [bind, Except.bind, pure, Except.pure, ← ih, hrest, eq_comm]

/-- The first member that fails is the head, or it is the first of the tail behind a head that
does not fail. -/
theorem first_cons_iff {P Q : α → Prop} {a : α} {as : List α} :
    (∃ front b behind, a :: as = front ++ b :: behind ∧ P b ∧ ∀ c ∈ front, Q c) ↔
      P a ∨ Q a ∧ ∃ front b behind, as = front ++ b :: behind ∧ P b ∧ ∀ c ∈ front, Q c := by
  constructor
  · rintro ⟨_ | ⟨a', front⟩, b, behind, heq, hb, hfront⟩
    · cases heq
      exact .inl hb
    · cases heq
      obtain ⟨ha, hfront⟩ := List.forall_mem_cons.mp hfront
      exact .inr ⟨ha, front, b, behind, rfl, hb, hfront⟩
  · rintro (ha | ⟨ha, front, b, behind, rfl, hb, hfront⟩)
    · exact ⟨[], a, as, rfl, ha, by simp⟩
    · exact ⟨a :: front, b, behind, rfl, hb, List.forall_mem_cons.mpr ⟨ha, hfront⟩⟩

theorem mapM_eq_error_iff {β : Type} {f : α → Except ε β} {as : List α} {e : ε} :
    as.mapM f = .error e ↔ ∃ front a behind, as = front ++ a :: behind ∧ f a = .error e ∧
      ∀ a' ∈ front, ∃ b, f a' = .ok b := by
  induction as with
  | nil => simp [pure, Except.pure]
  | cons a as ih =>
    rw [List.mapM_cons, first_cons_iff, ← ih]
    cases f a with
    | error e' => simp [bind, Except.bind]
    | ok b => cases as.mapM f <;> simp [bind, Except.bind, pure, Except.pure]

theorem mapM_readPart_eq_ok_iff {list : String} {xs : List Real64} :
    (commaParts list).mapM readPart = .ok xs ↔ Numbers list xs := by
  simp only [mapM_eq_ok_iff, readPart, mapError_trimmed_eq_ok_iff, Numbers, segments_iff,
    exists_eq_left']

theorem mapM_readPart_eq_error_iff {list : String} {e : SettingsError} :
    (commaParts list).mapM readPart = .error e ↔ ∃ e', NotNumbers list e' ∧ e = .parameter e' := by
  simp only [mapM_eq_error_iff, readPart, mapError_trimmed_eq_ok_iff,
    mapError_trimmed_eq_error_iff, NotNumbers, segments_iff]
  constructor
  · rintro ⟨front, part, behind, hparts, ⟨e', he', rfl⟩, hfront⟩
    exact ⟨e', ⟨front, part, behind, hparts, he', hfront⟩, rfl⟩
  · rintro ⟨e', ⟨front, part, behind, hparts, he', hfront⟩, rfl⟩
    exact ⟨front, part, behind, hparts, ⟨e', he', rfl⟩, hfront⟩

theorem Numbers.unique {list : String} {xs ys : List Real64} (h : Numbers list xs)
    (h' : Numbers list ys) : xs = ys := by
  simpa using (mapM_readPart_eq_ok_iff.mpr h).symm.trans (mapM_readPart_eq_ok_iff.mpr h')

theorem Numbers.ne_nil {list : String} {xs : List Real64} (h : Numbers list xs) : xs ≠ [] := by
  obtain ⟨parts, hparts, hxs⟩ := h
  rintro rfl
  exact hparts.ne_nil (List.forall₂_nil_right_iff.mp hxs)

end Settings

end FleetEstimate
