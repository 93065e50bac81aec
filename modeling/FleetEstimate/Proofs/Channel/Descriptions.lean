import Mathlib
import FleetEstimate.Experiment.UncodedChannel
import FleetEstimate.Proofs.Json.Reading

/-!
# What the text of a channel tells

The text of a channel is read back as what it was written from, an object that names the system
and the block size. It tells nothing of the parameter and of the random source, so that a reader
gets a new channel. Other texts describe the same channel too, but each of them is read as a
channel that has the one text of its block size.
-/

namespace FleetEstimate.UncodedChannel

open Json (IsPlain readMembers readValue)

variable {c c' : UncodedChannel} {text : String}

/-! ## Reading the text of a channel -/

/-- What the text of a channel says. -/
def described (c : UncodedChannel) : Json :=
  .object [("system", .string "uncoded_awgn"), ("block_size", .whole c.blockSize)]

theorem isPlain_words : (∀ c ∈ "system".toList, IsPlain c) ∧
    (∀ c ∈ "uncoded_awgn".toList, IsPlain c) ∧ ∀ c ∈ "block_size".toList, IsPlain c := by
  simp [IsPlain]

theorem toList_toText (c : UncodedChannel) :
    c.toText.toList = '\x7b' :: '"' :: ("system".toList ++ '"' :: ':' :: '"' ::
      ("uncoded_awgn".toList ++ '"' :: ',' :: '"' :: ("block_size".toList ++ '"' :: ':' ::
        (Nat.toDigits 10 c.blockSize.toNat ++ ['\x7d'])))) := by
  -- the number stays as it is: only the words around it are spelled out
  have hhead : "\x7b\"system\":\"uncoded_awgn\",\"block_size\":".toList =
      '\x7b' :: '"' :: ("system".toList ++ '"' :: ':' :: '"' ::
        ("uncoded_awgn".toList ++ '"' :: ',' :: '"' :: ("block_size".toList ++ ['"', ':']))) := by
    simp
  have htail : "\x7d".toList = ['\x7d'] := by simp
  generalize hn : c.blockSize.toNat = n
  unfold toText
  rw [String.toList_append, String.toList_append, hn, hhead, htail, Nat.toString_eq_repr,
    Nat.toList_repr]
  simp only [List.append_assoc, List.cons_append, List.nil_append]

theorem readValue_toText (c : UncodedChannel) (calls depth : ℕ) :
    readValue (calls + 4) (depth + 1) c.toText.toList = some (c.described, []) := by
  -- a brace ends a number, so the digits are read as far as they go
  have hends : Json.EndsNumber ['\x7d'] := by
    intro d hd
    obtain rfl : '\x7d' = d := Option.some.inj hd
    exact ⟨by unfold Decimal.IsDigit; decide, by decide, by decide, by decide⟩
  have hsize : readValue (calls + 1) depth (Nat.toDigits 10 c.blockSize.toNat ++ ['\x7d']) =
      some (.whole c.blockSize, ['\x7d']) := by
    rw [Json.readValue_toDigits c.blockSize.toNat_lt hends, UInt64.ofNat_toNat]
  obtain ⟨hsystem, hname, hblock⟩ := isPlain_words
  rw [toList_toText]
  refine Json.readValue_object ?_
  rw [Json.readMembers_cons hsystem (Json.readValue_string hname),
    Json.readMembers_last hblock hsize]
  rfl

theorem ofText?_toText (c : UncodedChannel) : Json.ofText? c.toText = some c.described := by
  have hlength : 4 ≤ 2 * c.toText.toList.length + 2 := by
    rw [toList_toText]
    simp
  obtain ⟨calls, hcalls⟩ := Nat.exists_eq_add_of_le' hlength
  simp only [Json.ofText?, hcalls, readValue_toText c calls 126]
  rfl

/-- The text of a channel is read as a new channel of its block size. -/
theorem ofText_toText (c : UncodedChannel) :
    ofText c.toText = .ok (new c.blockSize c.blockSize_ne_zero) := by
  have hdescribed : describedBlockSize? c.described = some (.whole c.blockSize) := by
    simp [described, describedBlockSize?, soleMember?]
  have hread : ofText? c.toText = some (new c.blockSize c.blockSize_ne_zero) := by
    simp [ofText?, ofText?_toText, hdescribed, c.blockSize_ne_zero]
  rw [ofText, hread]

/-- Every channel that is read is new. -/
theorem eq_new_of_ofText (h : ofText text = .ok c) : c = new c.blockSize c.blockSize_ne_zero := by
  have hread : ofText? text = some c := by
    unfold ofText at h
    cases hread : ofText? text with
    | none =>
      rw [hread] at h
      cases h
    | some c' =>
      rw [hread] at h
      cases h
      rfl
  -- the reader makes a channel in one place, behind the checks of its name and its block size
  obtain ⟨j, -, hread⟩ := Option.bind_eq_some_iff.mp hread
  obtain ⟨size, -, hsize⟩ := Option.bind_eq_some_iff.mp hread
  split at hsize
  · split at hsize
    · cases hsize
      rfl
    · cases hsize
  · cases hsize

theorem toText_eq_iff : toText c = toText c' ↔ c.blockSize = c'.blockSize := by
  constructor
  · intro h
    have hread := ofText_toText c
    rw [h, ofText_toText c'] at hread
    exact (congrArg blockSize (Except.ok.inj hread)).symm
  · intro h
    unfold toText
    rw [h]

/-- The text of a channel says its block size and nothing else, whatever has become of the
channel. A reader of the text gets a new channel of that block size, at the ratio zero and at the
start of the stream of seed zero, which has the same text. Channels have one text if and only if
they have one block size. Whatever text a channel was read from, its own text gives it back. -/
theorem text_tells_block_size (c c' : UncodedChannel) :
    (∃ r, ofText (toText c) = .ok r ∧ r.blockSize = c.blockSize ∧ r.ratio = 0 ∧
      r.generator = .ofSeed 0 ∧ r = new c.blockSize c.blockSize_ne_zero ∧ toText r = toText c) ∧
    (toText c = toText c' ↔ c.blockSize = c'.blockSize) ∧
    (∀ text, ofText text = .ok c → ofText (toText c) = .ok c) := by
  refine ⟨⟨_, ofText_toText c, rfl, rfl, rfl, rfl, rfl⟩, toText_eq_iff, ?again⟩
  case again =>
    intro text h
    rw [ofText_toText, ← eq_new_of_ofText h]

example : (ofText? "[\"uncoded_awgn\", 8]").map toText =
    some "\x7b\"system\":\"uncoded_awgn\",\"block_size\":8\x7d" := by decide +kernel

end FleetEstimate.UncodedChannel
