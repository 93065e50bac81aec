import FleetEstimate.Proofs.Estimation.Totals

/-!
# Totals of work that is split

Samples reach the totals of a run one by one, or as the totals of a batch that somebody else has
added up from zero. Where additions are exact, all that counts is which samples there are: neither
how they are split into batches, nor in which order batches and single samples are added, nor in
which order a batch was drawn makes a difference to any sum or to the count.
-/

namespace FleetEstimate

/-- Numbers with additions that lose nothing. -/
class Exact (α : Type) [Scalar α] : Prop where
  add_assoc : ∀ a b c : α, a + b + c = a + (b + c)
  add_comm : ∀ a b : α, a + b = b + a
  add_zero : ∀ a : α, a + 0 = a

/-- The rational numbers, with any square root and any number for infinity. -/
abbrev Scalar.rational (root : ℚ → ℚ) (top : ℚ) : Scalar ℚ where
  ofCount n := n.toNat
  sqrt := root
  abs x := |x|
  larger := max
  smaller := min
  infinity := top
  decidableLe := inferInstance

theorem Exact.rational (root : ℚ → ℚ) (top : ℚ) : @Exact ℚ (.rational root top) :=
  let _ := Scalar.rational root top
  ⟨Rat.add_assoc, Rat.add_comm, Rat.add_zero⟩

namespace Totals

variable {α : Type} [Scalar α]

/-- What is added to totals at once. -/
inductive Addition (α : Type)
  | sample (x : List α)
  /-- The samples of a batch. -/
  | batch (xs : List (List α))

/-- The samples of an addition. -/
def Addition.samples : Addition α → List (List α)
  | .sample x => [x]
  | .batch xs => xs

/-- Totals with an addition, unless it is refused. A batch is added up from zero before it is
merged. -/
def add (t : Totals α) (dimension : ℕ) : Addition α → Except TotalsFault (Option (Totals α))
  | .sample x => (t.accumulate x).map some
  | .batch xs => xs.foldlM accumulate (zero dimension) >>= t.merge

/-- Totals with some additions, one after the other, unless one of them is refused. -/
def addAll (t : Totals α) (dimension : ℕ) :
    List (Addition α) → Except TotalsFault (Option (Totals α))
  | [] => .ok (some t)
  | a :: as => t.add dimension a >>= fun
    | none => .ok none
    | some t => t.addAll dimension as

/-! ## Sums -/

section

variable [Exact α]

theorem zipWith_add_right_comm (f : α → α) (sums x y : List α) :
    (sums.zipWith (fun s v => s + f v) x).zipWith (fun s v => s + f v) y =
      (sums.zipWith (fun s v => s + f v) y).zipWith (fun s v => s + f v) x := by
  refine List.ext_getElem ?_ fun i hi hi' => ?_
  · simp only [List.length_zipWith]
    omega
  · simp only [List.getElem_zipWith]
    rw [Exact.add_assoc, Exact.add_comm (f _), ← Exact.add_assoc]

/-- The order of samples does not matter to a sum. -/
theorem added_perm (f : α → α) (sums : List α) {xs ys : List (List α)} (h : xs.Perm ys) :
    added f sums xs = added f sums ys :=
  h.foldl_eq' (fun x _ y _ s => zipWith_add_right_comm f s x y) sums

theorem zipWith_add_zeros (sums : List α) :
    sums.zipWith (· + ·) (List.replicate sums.length 0) = sums := by
  refine List.ext_getElem ?_ fun i hi hi' => ?_
  · simp
  · simp only [List.getElem_zipWith, List.getElem_replicate, Exact.add_zero]

theorem zipWith_add_zipWith (f : α → α) (sums part x : List α) :
    sums.zipWith (· + ·) (part.zipWith (fun s v => s + f v) x) =
      (sums.zipWith (· + ·) part).zipWith (fun s v => s + f v) x := by
  refine List.ext_getElem ?_ fun i hi hi' => ?_
  · simp only [List.length_zipWith]
    omega
  · simp only [List.getElem_zipWith, Exact.add_assoc]

/-- A sum with what a batch has added to zero is what the samples of the batch make of it. -/
theorem zipWith_added (f : α → α) (sums : List α) (xs : List (List α)) :
    sums.zipWith (· + ·) (added f (List.replicate sums.length 0) xs) = added f sums xs := by
  induction xs using List.reverseRecOn with
  | nil => exact zipWith_add_zeros sums
  | append_singleton xs x ih =>
    unfold added at ih ⊢
    rw [List.foldl_append, List.foldl_append, List.foldl_cons, List.foldl_cons, List.foldl_nil,
      List.foldl_nil, zipWith_add_zipWith, ih]

/-! ## Totals -/

variable {t : Totals α} {k : ℕ}

theorem withSamples_perm (t : Totals α) {xs ys : List (List α)} (h : xs.Perm ys) :
    t.withSamples xs = t.withSamples ys := by
  unfold Totals.withSamples
  rw [added_perm _ _ h, added_perm _ _ h, h.length_eq]

/-- To merge a batch is to add its samples. -/
theorem merge_withSamples {xs : List (List α)} (ht : t.Fits k) (hxs : ∀ x ∈ xs, x.length = k)
    (hn : t.samples.toNat + xs.length < UInt64.size) :
    t.merge ((zero k).withSamples xs) = .ok (some (t.withSamples xs)) := by
  have hfits : ((zero k).withSamples xs).sum.length = t.count ∧
      ((zero k).withSamples xs).sumSq.length = t.count := by
    rw [count, ht.1]
    exact (fits_zero k).withSamples hxs
  have hsamples : ((zero k : Totals α).withSamples xs).samples = .ofNat xs.length :=
    UInt64.zero_add _
  have hcount : addCounts t.samples (.ofNat xs.length) = .ok (t.samples + .ofNat xs.length) := by
    have hlen : (UInt64.ofNat xs.length).toNat = xs.length :=
      UInt64.toNat_ofNat_of_lt' (Nat.lt_of_le_of_lt (Nat.le_add_left _ _) hn)
    unfold addCounts
    rw [hlen, if_pos hn]
  -- what the batch has added to zero is added to the totals as it stands
  have hsum : t.sum.zipWith (· + ·) ((zero k).withSamples xs).sum = added id t.sum xs := by
    have hadds := zipWith_added id t.sum xs
    rw [ht.1] at hadds
    exact hadds
  have hsumSq : t.sumSq.zipWith (· + ·) ((zero k).withSamples xs).sumSq =
      added (fun v => v * v) t.sumSq xs := by
    have hadds := zipWith_added (fun v => v * v) t.sumSq xs
    rw [ht.2] at hadds
    exact hadds
  unfold merge
  rw [if_pos hfits, hsamples, hcount, hsum, hsumSq]
  rfl

/-- Whatever is added at once, its samples are added. -/
theorem add_eq_ok {a : Addition α} (ht : t.Fits k) (ha : ∀ x ∈ a.samples, x.length = k)
    (hn : t.samples.toNat + a.samples.length < UInt64.size) :
    t.add k a = .ok (some (t.withSamples a.samples)) := by
  cases a with
  | sample x =>
    have hx : x.length = t.count := (ha x List.mem_cons_self).trans ht.1.symm
    change (t.accumulate x).map some = _
    rw [accumulate_eq_withSamples hx hn]
    rfl
  | batch xs =>
    -- the batch is added up from zero first, which leaves more room than the totals have
    have hzero : (zero k : Totals α).samples.toNat + xs.length < UInt64.size :=
      Nat.lt_of_le_of_lt (Nat.add_le_add_right (Nat.zero_le _) _) hn
    have hbatch : xs.foldlM accumulate (zero k) = .ok ((zero k).withSamples xs) :=
      foldlM_accumulate (fits_zero k) ha hzero
    change xs.foldlM accumulate (zero k) >>= t.merge = _
    rw [hbatch]
    exact merge_withSamples ht ha hn

/-- Additions one after the other add all their samples. -/
theorem addAll_eq_ok {as : List (Addition α)} (ht : t.Fits k)
    (has : ∀ x ∈ as.flatMap Addition.samples, x.length = k)
    (hn : t.samples.toNat + (as.flatMap Addition.samples).length < UInt64.size) :
    t.addAll k as = .ok (some (t.withSamples (as.flatMap Addition.samples))) := by
  -- by induction on the additions; each of them finds the room that those before it have left
  induction as generalizing t with
  | nil =>
    rw [List.flatMap_nil, withSamples_nil]
    rfl
  | cons a as ih =>
    rw [List.flatMap_cons] at has hn ⊢
    rw [List.length_append] at hn
    have ha : ∀ x ∈ a.samples, x.length = k := fun x hx => has x (List.mem_append_left _ hx)
    have hfirst := add_eq_ok ht ha (by omega)
    have hsamples : (t.withSamples a.samples).samples.toNat = t.samples.toNat + a.samples.length :=
      samples_withSamples (by omega)
    have hrest := ih (ht.withSamples ha) (fun x hx => has x (List.mem_append_right _ hx))
      (by omega)
    rw [withSamples_append, addAll, hfirst]
    exact hrest

end

/-- Totals of samples do not depend on how the samples were split: where additions are exact,
batches that were each added up from zero, merged in any order and interleaved with single samples
in any way, make the same totals as the samples one by one in any order, and so the same estimate
and the same decision to stop. -/
theorem totals_of_any_split [Exact α] {t : Totals α} {k : ℕ} {as : List (Addition α)}
    {xs : List (List α)} (ht : t.Fits k) (hxs : ∀ x ∈ xs, x.length = k)
    (hsplit : (as.flatMap Addition.samples).Perm xs)
    (hn : t.samples.toNat + xs.length < UInt64.size) :
    ∃ t₁ t₂, t.addAll k as = .ok (some t₁) ∧ xs.foldlM accumulate t = .ok t₂ ∧
      t₁.sum = t₂.sum ∧ t₁.sumSq = t₂.sumSq ∧ t₁.samples = t₂.samples ∧
      t₂.samples.toNat = t.samples.toNat + xs.length ∧
      ∀ multiplier, t₁.estimate multiplier = t₂.estimate multiplier ∧
        ∀ (accuracy : α) (least : UInt64),
          (t₁.estimate multiplier).accuracy ≤ accuracy ∧ least ≤ t₁.samples ↔
            (t₂.estimate multiplier).accuracy ≤ accuracy ∧ least ≤ t₂.samples := by
  have hlen := hsplit.length_eq
  -- both sides are the totals with some samples, and these do not depend on their order
  have hadded := addAll_eq_ok ht (fun x hx => hxs x (hsplit.mem_iff.1 hx)) (by omega)
  have hone := foldlM_accumulate ht hxs hn
  rw [withSamples_perm t hsplit] at hadded
  exact ⟨_, _, hadded, hone, rfl, rfl, rfl, samples_withSamples hn,
    fun _ => ⟨rfl, fun _ _ => Iff.rfl⟩⟩

/-- A sample alone, a batch without samples and a batch of two, in another order than theirs. -/
theorem totals_of_three_samples :
    let _ := Scalar.rational Rat.sqrt 1000
    ∃ t₁ t₂ : Totals ℚ,
      (zero 1).addAll 1 [.sample [3], .batch [], .batch [[1], [2]]] = .ok (some t₁) ∧
      [[1], [2], [3]].foldlM accumulate (zero 1) = .ok t₂ ∧
      t₁.sum = t₂.sum ∧ t₁.sumSq = t₂.sumSq ∧ t₁.samples = t₂.samples := by
  let scalar := Scalar.rational Rat.sqrt 1000
  have := Exact.rational Rat.sqrt 1000
  have hsplit : ([.sample [3], .batch [], .batch [[1], [2]]] :
      List (Addition ℚ)).flatMap Addition.samples |>.Perm [[1], [2], [3]] :=
    @List.perm_append_comm _ [[3]] [[1], [2]]
  rcases totals_of_any_split (fits_zero 1) (by simp) hsplit (by decide) with
    ⟨t₁, t₂, hadded, hone, hsum, hsumSq, hsamples, -⟩
  exact ⟨t₁, t₂, hadded, hone, hsum, hsumSq, hsamples⟩

end Totals

end FleetEstimate
