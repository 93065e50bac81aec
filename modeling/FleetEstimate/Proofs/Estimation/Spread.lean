import FleetEstimate.Proofs.Estimation.Unrounded

/-!
# The spread of samples

Without rounding, totals hold the sums over their samples, however the samples and merged batches
have come to them. The number of samples times the sum of the squares exceeds the square of the
sum by the spread: that many times the sum of the squared distances from the mean. Hence no
variance is negative, which leaves nothing but rounding for the clamp at zero to correct, and a
tolerance is zero only if there is no spread, that is if all samples are the same.
-/

namespace FleetEstimate

/-! ## Totals and their samples -/

namespace Totals

section

variable {α : Type} [Scalar α]

/-- Totals that are built from none by samples and by batches that are built alike, with all the
samples in them. -/
inductive Reached : Totals α → List (List α) → Prop
  | zero (k : ℕ) : Reached (zero k) []
  | sample {t t' : Totals α} {xs : List (List α)} {x : List α} (h : Reached t xs)
      (h' : t.accumulate x = .ok t') : Reached t' (xs ++ [x])
  | batch {t t' b : Totals α} {xs ys : List (List α)} (h : Reached t xs) (hb : Reached b ys)
      (h' : t.merge b = .ok (some t')) : Reached t' (xs ++ ys)

/-- The totals of these samples. -/
structure AddsUp (t : Totals α) (xs : List (List α)) : Prop where
  length : ∀ x ∈ xs, x.length = t.count
  samples : t.samples.toNat = xs.length
  totals : t = (zero t.count).withSamples xs

variable {t t' b : Totals α} {xs ys : List (List α)} {x : List α}

theorem lt_of_addCounts {m n k : UInt64} (h : addCounts m n = .ok k) :
    m.toNat + n.toNat < UInt64.size := by
  by_contra hle
  rw [addCounts_eq_error_iff.2 ⟨rfl, not_lt.1 hle⟩] at h
  cases h

theorem AddsUp.fits (h : t.AddsUp xs) : t.Fits t.count := by
  have hfits : ((zero t.count).withSamples xs).Fits t.count := (fits_zero _).withSamples h.length
  rwa [← h.totals] at hfits

theorem addsUp_zero (k : ℕ) : (zero k : Totals α).AddsUp [] := by
  have hcount : (zero k : Totals α).count = k := List.length_replicate
  constructor
  · intro x hx
    cases hx
  · rfl
  · rw [hcount, withSamples_nil]

/-- More samples of the dimension. -/
theorem AddsUp.withSamples (h : t.AddsUp xs) (hys : ∀ y ∈ ys, y.length = t.count)
    (hn : t.samples.toNat + ys.length < UInt64.size) : (t.withSamples ys).AddsUp (xs ++ ys) := by
  have hcount : (t.withSamples ys).count = t.count := (h.fits.withSamples hys).1
  constructor
  · intro y hy
    rw [hcount]
    rcases List.mem_append.1 hy with hy | hy
    · exact h.length y hy
    · exact hys y hy
  · rw [samples_withSamples hn, h.samples, List.length_append]
  · rw [hcount, withSamples_append, ← h.totals]

theorem AddsUp.accumulate (h : t.AddsUp xs) (h' : t.accumulate x = .ok t') :
    t'.AddsUp (xs ++ [x]) := by
  rcases accumulate_inv h' with ⟨hlen, hcounts, -, -⟩
  have hn : t.samples.toNat + 1 < UInt64.size := lt_of_addCounts hcounts
  rw [accumulate_eq_withSamples hlen hn] at h'
  cases h'
  refine h.withSamples ?_ hn
  intro y hy
  rw [List.mem_singleton.1 hy]
  exact hlen

theorem AddsUp.merge [Exact α] (h : t.AddsUp xs) (hb : b.AddsUp ys)
    (h' : t.merge b = .ok (some t')) : t'.AddsUp (xs ++ ys) := by
  rcases merge_eq_some_iff.1 h' with ⟨hbatch, hn, -⟩
  have hcount : b.count = t.count := hbatch.1
  have hys : ∀ y ∈ ys, y.length = t.count := fun y hy => (hb.length y hy).trans hcount
  rw [hb.samples] at hn
  -- without rounding, merging a batch comes to adding its samples
  rw [hb.totals, hcount, merge_withSamples h.fits hys hn] at h'
  cases h'
  exact h.withSamples hys hn

/-- However they are reached, totals are those of their samples. -/
theorem Reached.addsUp [Exact α] (h : t.Reached xs) : t.AddsUp xs := by
  induction h with
  | zero k => exact addsUp_zero k
  | sample _ h' ih => exact ih.accumulate h'
  | batch _ _ h' ih ihb => exact ih.merge ihb h'

end

/-! ## Sums over a dimension -/

/-- The entries of samples in a dimension. -/
def column (xs : List (List ℝ)) (i : ℕ) : List ℝ := xs.map fun x => x.getD i 0

variable {xs : List (List ℝ)} {i : ℕ}

theorem getElem?_added {g : EReal → EReal} {f : ℝ → ℝ} (hg : ∀ v : ℝ, g v = f v)
    (hxs : ∀ x ∈ xs, i < x.length) {sums : List EReal} {s : ℝ} (hs : sums[i]? = some (s : EReal)) :
    (added g sums (xs.map (List.map Real.toEReal)))[i]? =
      some ((s + ((column xs i).map f).sum : ℝ) : EReal) := by
  -- by induction on the samples, with what the dimension has come to so far
  induction xs generalizing sums s with
  | nil =>
    have hnone : s + ((column [] i).map f).sum = s := add_zero s
    rw [hnone]
    exact hs
  | cons x xs ih =>
    have hx : i < x.length := hxs x List.mem_cons_self
    have hnext : (sums.zipWith (fun s v => s + g v) (x.map Real.toEReal))[i]? =
        some ((s + f (x.getD i 0) : ℝ) : EReal) := by
      rw [List.getElem?_zipWith, hs, List.getElem?_map, List.getD_eq_getElem?_getD,
        List.getElem?_eq_getElem hx, Option.getD_some, EReal.coe_add, ← hg]
      rfl
    have hrest := ih (fun y hy => hxs y (List.mem_cons_of_mem x hy)) hnext
    rw [add_assoc] at hrest
    exact hrest

theorem AddsUp.lt_length {t : Totals EReal} (h : t.AddsUp (xs.map (List.map Real.toEReal)))
    (hi : i < t.count) : ∀ x ∈ xs, i < x.length := by
  intro x hx
  have hlen := h.length _ (List.mem_map_of_mem hx)
  rw [List.length_map] at hlen
  rwa [hlen]

theorem AddsUp.sums {t : Totals EReal} (h : t.AddsUp (xs.map (List.map Real.toEReal)))
    (hi : i < t.count) : t.sum[i]? = some (((column xs i).sum : ℝ) : EReal) ∧
      t.sumSq[i]? = some ((((column xs i).map fun v => v * v).sum : ℝ) : EReal) := by
  have hxs := h.lt_length hi
  -- every dimension starts from zero
  have hzero : (List.replicate t.count (0 : EReal))[i]? = some ((0 : ℝ) : EReal) :=
    List.getElem?_replicate_of_lt hi
  have hsum := getElem?_added (g := id) (f := id) (fun _ => rfl) hxs hzero
  have hsumSq := getElem?_added (g := fun v => v * v) (f := fun v => v * v)
    (fun v => (EReal.coe_mul v v).symm) hxs hzero
  rw [zero_add, List.map_id] at hsum
  rw [zero_add] at hsumSq
  rw [h.totals]
  exact ⟨hsum, hsumSq⟩

theorem column_constant_iff (hxs : ∀ x ∈ xs, i < x.length) :
    (∀ v ∈ column xs i, ∀ w ∈ column xs i, v = w) ↔ ∀ x ∈ xs, ∀ y ∈ xs, x[i]? = y[i]? := by
  -- every sample is long enough to have an entry here
  have hentry : ∀ x ∈ xs, x[i]? = some (x.getD i 0) := by
    intro x hx
    rw [List.getD_eq_getElem?_getD, List.getElem?_eq_getElem (hxs x hx), Option.getD_some]
  constructor
  · intro hall x hx y hy
    rw [hentry x hx, hentry y hy]
    exact congrArg some (hall _ (List.mem_map_of_mem hx) _ (List.mem_map_of_mem hy))
  · intro hall v hv w hw
    rcases List.mem_map.1 hv with ⟨x, hx, rfl⟩
    rcases List.mem_map.1 hw with ⟨y, hy, rfl⟩
    have hsame := hall x hx y hy
    rw [hentry x hx, hentry y hy] at hsame
    exact Option.some.inj hsame

end Totals

/-! ## Distances from the mean -/

variable {vs : List ℝ}

theorem sum_sq_sub (vs : List ℝ) (m : ℝ) :
    (vs.map fun v => (v - m) * (v - m)).sum =
      (vs.map fun v => v * v).sum - 2 * m * vs.sum + vs.length * (m * m) := by
  induction vs with
  | nil => simp
  | cons v vs ih =>
    simp only [List.map_cons, List.sum_cons, ih, List.length_cons, Nat.cast_add, Nat.cast_one]
    ring

theorem sum_sq_sub_nonneg (vs : List ℝ) (m : ℝ) :
    0 ≤ (vs.map fun v => (v - m) * (v - m)).sum := by
  apply List.sum_nonneg
  intro d hd
  rcases List.mem_map.1 hd with ⟨v, -, rfl⟩
  exact mul_self_nonneg _

theorem length_ne_zero (hvs : vs ≠ []) : (vs.length : ℝ) ≠ 0 := by
  rw [Nat.cast_ne_zero]
  exact fun h => hvs (List.length_eq_zero_iff.1 h)

theorem spread_eq (hvs : vs ≠ []) :
    vs.length * (vs.map fun v => v * v).sum - vs.sum * vs.sum =
      vs.length * (vs.map fun v => (v - vs.sum / vs.length) * (v - vs.sum / vs.length)).sum := by
  have hne := length_ne_zero hvs
  rw [sum_sq_sub]
  field_simp
  ring

/-- The inequality of Cauchy and Schwarz. -/
theorem sum_mul_sum_le (vs : List ℝ) :
    vs.sum * vs.sum ≤ vs.length * (vs.map fun v => v * v).sum := by
  by_cases hvs : vs = []
  · subst hvs
    simp
  · rw [← sub_nonneg, spread_eq hvs]
    exact mul_nonneg (Nat.cast_nonneg _) (sum_sq_sub_nonneg vs _)

/-- Both sides of the inequality are the same only if nothing is spread. -/
theorem sum_mul_sum_eq_iff (hvs : vs ≠ []) :
    vs.length * (vs.map fun v => v * v).sum - vs.sum * vs.sum = 0 ↔
      ∀ v ∈ vs, ∀ w ∈ vs, v = w := by
  have hne := length_ne_zero hvs
  constructor
  · intro heq
    rw [spread_eq hvs, mul_eq_zero, or_iff_right hne] at heq
    -- squares that add up to zero are zero one by one, so nothing is away from the mean
    have hmean : ∀ v ∈ vs, v = vs.sum / vs.length := by
      intro v hv
      have hsq : (v - vs.sum / vs.length) * (v - vs.sum / vs.length) = 0 := by
        refine List.all_zero_of_le_zero_le_of_sum_eq_zero ?_ heq (List.mem_map_of_mem hv)
        intro d hd
        rcases List.mem_map.1 hd with ⟨w, -, rfl⟩
        exact mul_self_nonneg _
      exact sub_eq_zero.1 (mul_self_eq_zero.1 hsq)
    intro v hv w hw
    rw [hmean v hv, hmean w hw]
  · intro hall
    rcases List.exists_mem_of_ne_nil vs hvs with ⟨v, hv⟩
    have hconstant : vs = List.replicate vs.length v :=
      List.eq_replicate_iff.2 ⟨rfl, fun w hw => hall w hw v hv⟩
    rw [hconstant, List.map_replicate, List.sum_replicate, List.sum_replicate, List.length_replicate,
      nsmul_eq_mul, nsmul_eq_mul]
    ring

/-! ## Tolerances -/

theorem exactVariance_eq {sum sumSq : ℝ} {n : ℕ} (hn : (n : ℝ) ≠ 0) :
    exactVariance sum sumSq n = (n * sumSq - sum * sum) / (n * n * (n - 1)) := by
  have hmoment : sumSq / n - sum / n * (sum / n) = (n * sumSq - sum * sum) / (n * n) := by
    field_simp
  rw [exactVariance, hmoment, div_div]

section

variable {n : ℕ} (hvs : vs.length = n) (hn : 1 < (n : ℝ))

include hvs hn

theorem exactVariance_nonneg : 0 ≤ exactVariance vs.sum (vs.map fun v => v * v).sum n := by
  have hspread := sub_nonneg.2 (sum_mul_sum_le vs)
  rw [hvs] at hspread
  rw [exactVariance_eq (zero_lt_one.trans hn).ne']
  have hless := sub_pos.2 hn
  positivity

theorem exactVariance_eq_zero_iff :
    exactVariance vs.sum (vs.map fun v => v * v).sum n = 0 ↔ ∀ v ∈ vs, ∀ w ∈ vs, v = w := by
  have hpos := zero_lt_one.trans hn
  have hne : vs ≠ [] := by
    intro hnil
    rw [← hvs, hnil, List.length_nil, Nat.cast_zero] at hpos
    exact lt_irrefl _ hpos
  have hbelow : (n : ℝ) * n * (n - 1) ≠ 0 :=
    mul_ne_zero (mul_pos hpos hpos).ne' (sub_pos.2 hn).ne'
  rw [← sum_mul_sum_eq_iff hne, hvs, exactVariance_eq hpos.ne', div_eq_zero_iff,
    or_iff_left hbelow]

end

namespace Totals

variable {t : Totals EReal} {xs : List (List ℝ)} {i : ℕ}

theorem length_column (xs : List (List ℝ)) (i : ℕ) : (column xs i).length = xs.length :=
  List.length_map _

/-- A tolerance around a positive mean is zero exactly if all entries of its dimension agree. -/
theorem AddsUp.tolerance_eq_zero_iff (h : t.AddsUp (xs.map (List.map Real.toEReal)))
    (hi : i < t.count) (hn : 2 ≤ t.samples) {z : ℝ} (hz : 0 < z)
    (hmean : 0 < (column xs i).sum / t.samples.toNat) :
    tolerance (((column xs i).sum : ℝ) : EReal)
        ((((column xs i).map fun v => v * v).sum : ℝ) : EReal) t.samples (z : EReal) = 0 ↔
      ∀ x ∈ xs, ∀ y ∈ xs, x[i]? = y[i]? := by
  have hlen : (column xs i).length = t.samples.toNat := by
    rw [length_column, h.samples, List.length_map]
  have hone := one_lt_of_two_le hn
  have hxs := h.lt_length hi
  have hvar := exactVariance_nonneg hlen hone
  -- above a positive mean only the root can vanish, and it does if the variance is zero
  rw [← column_constant_iff hxs, ← exactVariance_eq_zero_iff hlen hone,
    tolerance_coe (UInt64.not_lt.2 hn) (not_le.2 hmean), max_eq_left hvar, ← EReal.coe_zero,
    EReal.coe_eq_coe_iff, div_eq_zero_iff, or_iff_left hmean.ne', mul_eq_zero, or_iff_right hz.ne',
    Real.sqrt_eq_zero hvar]

/-- Without rounding no variance of totals is negative, however samples and batches have come to
them, and a tolerance around a positive mean is zero exactly if all samples agree in the
dimension. -/
theorem zero_tolerance_iff_constant (h : t.Reached (xs.map (List.map Real.toEReal)))
    (hi : i < t.count) :
    ∃ sum sumSq, t.sum[i]? = some sum ∧ t.sumSq[i]? = some sumSq ∧
      sum * sum ≤ Scalar.ofCount t.samples * sumSq ∧
      (2 ≤ t.samples →
        0 ≤ (sumSq / Scalar.ofCount t.samples -
          sum / Scalar.ofCount t.samples * (sum / Scalar.ofCount t.samples)) /
            (Scalar.ofCount t.samples - 1) ∧
        ∀ z : ℝ, 0 < z → ∃ mean width, (t.estimate z).result[i]? = some mean ∧
          (t.estimate z).tolerance[i]? = some width ∧
          (0 < mean → (width = 0 ↔ ∀ x ∈ xs, ∀ y ∈ xs, x[i]? = y[i]?))) := by
  have hadds := h.addsUp
  -- the sums are those of the column, so the inequalities are about real numbers
  rcases hadds.sums hi with ⟨hsum, hsumSq⟩
  have hlen : (column xs i).length = t.samples.toNat := by
    rw [length_column, hadds.samples, List.length_map]
  refine ⟨_, _, hsum, hsumSq, ?_, fun hn => ⟨?_, fun z hz => ?_⟩⟩
  · rw [Scalar.ofCount_coe, ← EReal.coe_mul, ← EReal.coe_mul, EReal.coe_le_coe_iff, ← hlen]
    exact sum_mul_sum_le _
  · rw [variance_coe, ← EReal.coe_zero, EReal.coe_le_coe_iff]
    exact exactVariance_nonneg hlen (one_lt_of_two_le hn)
  · rcases getElem?_estimate hsum hsumSq (z : EReal) with ⟨hresult, hwidth⟩
    have hmean : t.mean ((column xs i).sum : EReal) =
        (((column xs i).sum / t.samples.toNat : ℝ) : EReal) := by
      have hsome : 0 < t.samples := UInt64.lt_of_lt_of_le (by decide) hn
      rw [mean, if_pos hsome, Scalar.ofCount_coe, ← EReal.coe_div]
    refine ⟨_, _, hresult, hwidth, fun hpos => hadds.tolerance_eq_zero_iff hi hn hz ?_⟩
    rwa [hmean, ← EReal.coe_zero, EReal.coe_lt_coe_iff] at hpos

/-- A sample and a batch of one, both of them 1. -/
theorem zero_tolerance_of_ones :
    ∃ t : Totals EReal, t.Reached ([[1], [1]].map (List.map Real.toEReal)) ∧ 0 < t.count ∧
      2 ≤ t.samples ∧ (0 : ℝ) < 2 ∧
      ∃ mean, (t.estimate ((2 : ℝ) : EReal)).result[0]? = some mean ∧ 0 < mean ∧
        (t.estimate ((2 : ℝ) : EReal)).tolerance[0]? = some 0 := by
  let ones : List (List EReal) := [[((1 : ℝ) : EReal)]]
  let one : Totals EReal := (zero 1).withSamples ones
  have hfits : one.Fits 1 := (fits_zero 1).withSamples (by simp [ones])
  have hone : one.Reached ones := .sample (.zero 1) (accumulate_eq_withSamples rfl (by decide))
  -- one sample by itself, and the same totals once more as a batch
  have hboth : (one.withSamples ones).Reached ([[1], [1]].map (List.map Real.toEReal)) :=
    .batch hone hone (merge_withSamples hfits (by simp [ones]) (by decide))
  have hi : 0 < (one.withSamples ones).count := Nat.one_pos
  have hn : 2 ≤ (one.withSamples ones).samples := by decide
  have hz : (0 : ℝ) < 2 := two_pos
  rcases zero_tolerance_iff_constant hboth hi with ⟨_, _, -, -, -, hall⟩
  rcases (hall hn).2 2 hz with ⟨mean, width, hmean, hwidth, hiff⟩
  have hpos : 0 < mean := by
    have hvalue : some mean = some (((0 + 1 + 1) / (2 : UInt64).toNat : ℝ) : EReal) := by
      rw [← hmean, EReal.coe_div, EReal.coe_add, EReal.coe_add, EReal.coe_zero]
      rfl
    have hcount : (2 : UInt64).toNat = 2 := rfl
    rw [Option.some.inj hvalue, ← EReal.coe_zero, EReal.coe_lt_coe_iff, hcount]
    norm_num
  have hzero : width = 0 := (hiff hpos).2 (by simp)
  exact ⟨_, hboth, hi, hn, hz, mean, hmean, hpos, hzero ▸ hwidth⟩

end Totals

end FleetEstimate
