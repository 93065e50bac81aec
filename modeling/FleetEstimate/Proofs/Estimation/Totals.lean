import Mathlib
import FleetEstimate.Totals

/-!
# Totals keep their dimension

Both ways in which totals grow, by a sample and by a batch, ask for the dimension of the
totals and keep it. Neither lets the number of samples leave 64 bits.
-/

namespace FleetEstimate

theorem addCounts_eq_error_iff {a b : UInt64} {fault : TotalsFault} :
    addCounts a b = .error fault ↔
      fault = .countOverflow ∧ UInt64.size ≤ a.toNat + b.toNat := by
  unfold addCounts
  split
  · rename_i hlt
    constructor
    · intro h
      cases h
    · intro h
      omega
  · rename_i hle
    constructor
    · intro h
      cases h
      exact ⟨rfl, by omega⟩
    · intro h
      rcases h with ⟨rfl, -⟩
      rfl

namespace Totals

variable {α : Type} [Scalar α]

/-- Totals of samples of a dimension. -/
def Fits (t : Totals α) (k : ℕ) : Prop := t.sum.length = k ∧ t.sumSq.length = k

theorem fits_zero (k : ℕ) : (zero k : Totals α).Fits k :=
  ⟨List.length_replicate, List.length_replicate⟩

/-- A sample of the dimension is added if it can be counted. -/
theorem accumulate_of_length {t : Totals α} {x : List α} (hlen : x.length = t.count) :
    t.accumulate x = (addCounts t.samples 1).map fun samples =>
      ⟨t.sum.zipWith (fun s v => s + v) x, t.sumSq.zipWith (fun s v => s + v * v) x, samples⟩ := by
  unfold accumulate
  rw [if_pos hlen]
  cases addCounts t.samples 1 <;> rfl

/-- What is in totals with another sample. -/
theorem accumulate_inv {t t' : Totals α} {x : List α} (h : t.accumulate x = .ok t') :
    x.length = t.count ∧ addCounts t.samples 1 = .ok t'.samples ∧
      t'.sum = t.sum.zipWith (fun s v => s + v) x ∧
      t'.sumSq = t.sumSq.zipWith (fun s v => s + v * v) x := by
  -- added only if the length is right and the count has room
  by_cases hlen : x.length = t.count
  · rw [accumulate_of_length hlen] at h
    cases hcount : addCounts t.samples 1 with
    | error fault =>
      rw [hcount] at h
      cases h
    | ok n =>
      rw [hcount] at h
      cases h
      exact ⟨hlen, rfl, rfl, rfl⟩
  · unfold accumulate at h
    rw [if_neg hlen] at h
    cases h

theorem Fits.accumulate {t t' : Totals α} {k : ℕ} {x : List α} (ht : t.Fits k)
    (h : t.accumulate x = .ok t') : t'.Fits k := by
  rcases accumulate_inv h with ⟨hlen, -, hsum, hsumSq⟩
  have hx : x.length = k := hlen.trans ht.1
  exact ⟨by simp [hsum, ht.1, hx], by simp [hsumSq, ht.2, hx]⟩

/-- The totals with those of a batch, entry by entry. -/
def plus (t batch : Totals α) : Totals α where
  sum := t.sum.zipWith (· + ·) batch.sum
  sumSq := t.sumSq.zipWith (· + ·) batch.sumSq
  samples := t.samples + batch.samples

/-- A batch is merged if it fits and can be counted. -/
theorem merge_eq_some_iff {t t' batch : Totals α} :
    t.merge batch = .ok (some t') ↔ batch.Fits t.count ∧
      t.samples.toNat + batch.samples.toNat < UInt64.size ∧ t' = t.plus batch := by
  unfold merge addCounts
  -- what does not fit is left alone; what fits must be counted too
  by_cases hfits : batch.sum.length = t.count ∧ batch.sumSq.length = t.count
  · by_cases hlt : t.samples.toNat + batch.samples.toNat < UInt64.size
    · rw [if_pos hfits, if_pos hlt]
      constructor
      · intro h
        cases h
        exact ⟨hfits, hlt, rfl⟩
      · intro h
        rw [h.2.2]
        rfl
    · rw [if_pos hfits, if_neg hlt]
      constructor
      · intro h
        cases h
      · intro h
        exact absurd h.2.1 hlt
  · rw [if_neg hfits]
    constructor
    · intro h
      cases h
    · intro h
      exact absurd h.1 hfits

theorem Fits.merge {t t' batch : Totals α} {k : ℕ} (ht : t.Fits k)
    (h : t.merge batch = .ok (some t')) : t'.Fits k := by
  rcases merge_eq_some_iff.1 h with ⟨hfits, -, rfl⟩
  have hk : batch.Fits k := ht.1 ▸ hfits
  exact ⟨by simp [plus, ht.1, hk.1], by simp [plus, ht.2, hk.2]⟩

/-- Merging fails only by leaving 64 bits with a batch that fits. -/
theorem merge_eq_error_iff {t batch : Totals α} {fault : TotalsFault} :
    t.merge batch = .error fault ↔
      fault = .countOverflow ∧ batch.Fits t.count ∧
        UInt64.size ≤ t.samples.toNat + batch.samples.toNat := by
  unfold merge
  split
  · rename_i hfits
    -- only the count of a batch that fits is checked
    have hcount : addCounts t.samples batch.samples = .error fault ↔ _ := addCounts_eq_error_iff
    cases hc : addCounts t.samples batch.samples with
    | error e =>
      rw [hc, Except.error.injEq] at hcount
      change Except.error e = Except.error fault ↔ _
      rw [Except.error.injEq, hcount]
      exact ⟨fun h => ⟨h.1, hfits, h.2⟩, fun h => ⟨h.1, h.2.2⟩⟩
    | ok n =>
      rw [hc] at hcount
      constructor
      · intro h
        cases h
      · intro h
        rcases h with ⟨hfault, -, hleaves⟩
        cases hcount.2 ⟨hfault, hleaves⟩
  · rename_i hnot
    constructor
    · intro h
      cases h
    · intro h
      rcases h with ⟨-, hfits, -⟩
      exact absurd hfits hnot

/-- A batch is passed over if it does not fit. -/
theorem merge_eq_none_iff {t batch : Totals α} :
    t.merge batch = .ok none ↔ ¬ batch.Fits t.count := by
  by_cases hfits : batch.Fits t.count
  · refine iff_of_false (fun h => ?_) (not_not_intro hfits)
    by_cases hlt : t.samples.toNat + batch.samples.toNat < UInt64.size
    · rw [merge_eq_some_iff.2 ⟨hfits, hlt, rfl⟩] at h
      cases h
    · rw [merge_eq_error_iff.2 ⟨rfl, hfits, not_lt.1 hlt⟩] at h
      cases h
  · exact iff_of_true (if_neg hfits) hfits

theorem count_plus {t batch : Totals α} (hfits : batch.Fits t.count) :
    (t.plus batch).count = t.count := by
  change (t.sum.zipWith (· + ·) batch.sum).length = t.sum.length
  rw [List.length_zipWith, hfits.1]
  exact Nat.min_self _

/-- What totals say about a dimension. -/
theorem getElem?_estimate {t : Totals α} {i : ℕ} {sum sumSq : α} (hsum : t.sum[i]? = some sum)
    (hsumSq : t.sumSq[i]? = some sumSq) (multiplier : α) :
    (t.estimate multiplier).result[i]? = some (t.mean sum) ∧
      (t.estimate multiplier).tolerance[i]? =
        some (tolerance sum sumSq t.samples multiplier) := by
  constructor
  · simp only [estimate, List.getElem?_zipWith, hsum, hsumSq]
  · simp only [estimate, List.getElem?_zipWith, hsum, hsumSq]

/-! ## Samples added up -/

/-- Entry by entry, what samples make of sums to which each value `v` adds `f v`. -/
def added (f : α → α) (sums : List α) (xs : List (List α)) : List α :=
  xs.foldl (fun sums x => sums.zipWith (fun s v => s + f v) x) sums

/-- What samples make of totals. -/
def withSamples (t : Totals α) (xs : List (List α)) : Totals α where
  sum := added id t.sum xs
  sumSq := added (fun v => v * v) t.sumSq xs
  samples := t.samples + .ofNat xs.length

variable {t : Totals α} {k : ℕ} {x : List α} {xs : List (List α)}

theorem length_added {f : α → α} {sums : List α} (hsums : sums.length = k)
    (hxs : ∀ x ∈ xs, x.length = k) : (added f sums xs).length = k := by
  induction xs generalizing sums with
  | nil => exact hsums
  | cons x xs ih =>
    have hx := hxs x List.mem_cons_self
    exact ih (by rw [List.length_zipWith, hsums, hx, Nat.min_self])
      fun y hy => hxs y (List.mem_cons_of_mem x hy)

theorem Fits.withSamples (ht : t.Fits k) (hxs : ∀ x ∈ xs, x.length = k) :
    (t.withSamples xs).Fits k :=
  ⟨length_added ht.1 hxs, length_added ht.2 hxs⟩

theorem withSamples_nil (t : Totals α) : t.withSamples [] = t := by
  have hcount : t.samples + .ofNat 0 = t.samples := UInt64.add_zero _
  unfold Totals.withSamples
  rw [List.length_nil, hcount]
  rfl

theorem withSamples_append (t : Totals α) (xs ys : List (List α)) :
    t.withSamples (xs ++ ys) = (t.withSamples xs).withSamples ys := by
  unfold Totals.withSamples added
  rw [List.foldl_append, List.foldl_append, List.length_append, UInt64.ofNat_add, UInt64.add_assoc]

theorem samples_withSamples (hn : t.samples.toNat + xs.length < UInt64.size) :
    (t.withSamples xs).samples.toNat = t.samples.toNat + xs.length := by
  have hlen : (UInt64.ofNat xs.length).toNat = xs.length :=
    UInt64.toNat_ofNat_of_lt' (Nat.lt_of_le_of_lt (Nat.le_add_left _ _) hn)
  change (t.samples + .ofNat xs.length).toNat = _
  rw [UInt64.toNat_add, hlen, Nat.mod_eq_of_lt hn]

theorem accumulate_eq_withSamples (hx : x.length = t.count)
    (hcount : t.samples.toNat + 1 < UInt64.size) :
    t.accumulate x = .ok (t.withSamples [x]) := by
  have hone : (1 : UInt64).toNat = 1 := rfl
  have hadds : addCounts t.samples 1 = .ok (t.samples + 1) := by
    unfold addCounts
    rw [hone, if_pos hcount]
  rw [accumulate_of_length hx, hadds]
  rfl

/-- Samples of the dimension are added one after the other, if they can be counted. -/
theorem foldlM_accumulate (ht : t.Fits k) (hxs : ∀ x ∈ xs, x.length = k)
    (hn : t.samples.toNat + xs.length < UInt64.size) :
    xs.foldlM accumulate t = .ok (t.withSamples xs) := by
  -- by induction on the samples; the room for the rest is what is left behind the first
  induction xs generalizing t with
  | nil =>
    rw [withSamples_nil]
    rfl
  | cons x xs ih =>
    rw [List.length_cons] at hn
    have hx : x.length = t.count := (hxs x List.mem_cons_self).trans ht.1.symm
    have hfirst := accumulate_eq_withSamples hx (by omega)
    have hsamples : (t.withSamples [x]).samples.toNat = t.samples.toNat + 1 :=
      samples_withSamples (by rw [List.length_singleton]; omega)
    have hrest := ih (ht.accumulate hfirst) (fun y hy => hxs y (List.mem_cons_of_mem x hy)) (by omega)
    rw [← withSamples_append] at hrest
    rw [List.foldlM_cons, hfirst]
    exact hrest

end Totals

end FleetEstimate
