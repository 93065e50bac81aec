import FleetEstimate.Experiment
import FleetEstimate.Proofs.Estimation.Totals
import FleetEstimate.Proofs.Real64.Sums

/-!
# The samples of an experiment

An experiment is a stream of samples of its dimension. Drawing some of them leaves the
experiment where the stream goes on, and adding them up leaves totals of the dimension that
count them. To totals that start from zero, a sample may as well be added as a batch of its
own.
-/

namespace FleetEstimate

namespace Experiment

variable {E : Type} [Experiment E]

/-- The next `n` samples. -/
def draws : (n : ℕ) → E → List (List Real64)
  | 0, _ => []
  | n + 1, e => (sample e).1 :: draws n (sample e).2

/-- The experiment behind its next `n` samples. -/
def skip : (n : ℕ) → E → E
  | 0, e => e
  | n + 1, e => skip n (sample e).2

theorem count_skip (n : ℕ) (e : E) : count (skip n e) = count e := by
  induction n generalizing e with
  | zero => rfl
  | succ n ih => rw [skip, ih, count_sample]

theorem skip_succ (n : ℕ) (e : E) : skip (n + 1) e = (sample (skip n e)).2 := by
  induction n generalizing e with
  | zero => rfl
  | succ n ih => rw [skip, ih, skip]

theorem draws_succ (n : ℕ) (e : E) : draws (n + 1) e = draws n e ++ [(sample (skip n e)).1] := by
  induction n generalizing e with
  | zero => rfl
  | succ n ih => rw [draws, ih, draws, skip, List.cons_append]

theorem length_draws (n : ℕ) (e : E) : (draws n e).length = n := by
  induction n generalizing e with
  | zero => rfl
  | succ n ih => rw [draws, List.length_cons, ih]

theorem length_of_mem_draws {n : ℕ} {e : E} {x : List Real64} (hx : x ∈ draws n e) :
    x.length = count e := by
  induction n generalizing e with
  | zero => cases hx
  | succ n ih =>
    rcases List.mem_cons.1 hx with rfl | hx
    · exact length_sample e
    · exact (ih hx).trans (count_sample e)

end Experiment

namespace Totals

open Experiment

theorem addCounts_one {n : UInt64} (h : n.toNat + 1 < UInt64.size) :
    ∃ m, addCounts n 1 = .ok m ∧ m.toNat = n.toNat + 1 := by
  have hone : (1 : UInt64).toNat = 1 := rfl
  refine ⟨n + 1, ?_, ?_⟩
  · unfold addCounts
    rw [hone, if_pos h]
  · rw [UInt64.toNat_add, hone, Nat.mod_eq_of_lt h]

variable {E : Type} [Experiment E] {e : E} {t : Totals Real64}

/-- A sample of the dimension is added, unless the count leaves 64 bits. -/
theorem accumulate_eq_ok {α : Type} [Scalar α] {t : Totals α} {x : List α} {k : ℕ}
    (ht : t.Fits k) (hx : x.length = k) (hcount : t.samples.toNat + 1 < UInt64.size) :
    ∃ t', t.accumulate x = .ok t' ∧ t'.Fits k ∧ t'.samples.toNat = t.samples.toNat + 1 := by
  rcases addCounts_one hcount with ⟨m, hm, hsamples⟩
  have hok := accumulate_of_length (hx.trans ht.1.symm)
  rw [hm] at hok
  exact ⟨_, hok, ht.accumulate hok, hsamples⟩

/-- A sample of the dimension is not added only if the count leaves 64 bits. -/
theorem fault_of_accumulate {α : Type} [Scalar α] {t : Totals α} {x : List α} {k : ℕ}
    {fault : TotalsFault} (ht : t.Fits k) (hx : x.length = k) (h : t.accumulate x = .error fault) :
    fault = .countOverflow := by
  -- the check of the dimension passes; what is left is the count
  rw [accumulate_of_length (hx.trans ht.1.symm)] at h
  cases hcount : addCounts t.samples 1 with
  | error f =>
    rw [hcount] at h
    cases h
    exact (addCounts_eq_error_iff.1 hcount).1
  | ok m =>
    rw [hcount] at h
    cases h

/-- Totals of the next `n` samples of an experiment, on top of `t`. -/
def accumulateAll (t : Totals Real64) (n : ℕ) (e : E) : Except TotalsFault (Totals Real64) :=
  (draws n e).foldlM Totals.accumulate t

theorem accumulateAll_succ (t : Totals Real64) (n : ℕ) (e : E) :
    t.accumulateAll (n + 1) e =
      t.accumulate (sample e).1 >>= fun t' => t'.accumulateAll n (sample e).2 := rfl

theorem Fits.accumulateAll {t' : Totals Real64} {n : ℕ} (ht : t.Fits (Experiment.count e))
    (h : t.accumulateAll n e = .ok t') : t'.Fits (Experiment.count e) := by
  induction n generalizing e t with
  | zero =>
    cases h
    exact ht
  | succ n ih =>
    rw [accumulateAll_succ] at h
    cases hfirst : t.accumulate (sample e).1 with
    | error f =>
      rw [hfirst] at h
      cases h
    | ok t₁ =>
      rw [hfirst] at h
      have ht₁ := ht.accumulate hfirst
      -- the next sample is of the experiment behind this one, which has the same dimension
      rw [← count_sample] at ht₁ ⊢
      exact ih ht₁ h

theorem accumulateAll_eq_ok {n : ℕ} (ht : t.Fits (Experiment.count e))
    (hn : t.samples.toNat + n < UInt64.size) :
    ∃ t', t.accumulateAll n e = .ok t' ∧ t'.Fits (Experiment.count e) ∧
      t'.samples.toNat = t.samples.toNat + n := by
  induction n generalizing e t with
  | zero => exact ⟨t, rfl, ht, rfl⟩
  | succ n ih =>
    -- there is room for this sample, and for the rest behind it
    rcases accumulate_eq_ok ht (length_sample e) (by omega) with ⟨t₁, hfirst, ht₁, hsamples₁⟩
    rw [← count_sample] at ht₁
    rcases ih ht₁ (by omega) with ⟨t', hrest, ht', hsamples'⟩
    rw [count_sample] at ht'
    refine ⟨t', ?_, ht', by omega⟩
    rw [accumulateAll_succ, hfirst]
    exact hrest

/-! ## Batches of one sample -/

/-- Totals of which no entry is the negative zero. -/
def FromZero (t : Totals Real64) : Prop := ∀ s ∈ t.sum ++ t.sumSq, s.parts ≠ .zero .negative

theorem fromZero_zero (k : ℕ) : (zero k : Totals Real64).FromZero := by
  intro s hs
  have hzero : s = 0 := by
    rcases List.mem_append.1 hs with hs | hs
    · exact List.eq_of_mem_replicate hs
    · exact List.eq_of_mem_replicate hs
  rw [hzero, Real64.parts_zero]
  simp

theorem samples_of_accumulate {t' : Totals Real64} {x : List Real64} (h : t.accumulate x = .ok t') :
    t'.samples.toNat = t.samples.toNat + 1 := by
  have hcount := (accumulate_inv h).2.1
  have hlt : t.samples.toNat + 1 < UInt64.size := by
    -- without room for one more there would be no totals to speak of
    by_contra hle
    have hfault := (addCounts_eq_error_iff (a := t.samples) (b := 1)).2 ⟨rfl, not_lt.1 hle⟩
    rw [hfault] at hcount
    cases hcount
  rcases addCounts_one hlt with ⟨m, hm, hsamples⟩
  rw [hm] at hcount
  cases hcount
  exact hsamples

/-- The count of totals tells how many samples were added to them. -/
theorem samples_of_accumulateAll {t' : Totals Real64} {n : ℕ} (h : t.accumulateAll n e = .ok t') :
    t'.samples.toNat = t.samples.toNat + n := by
  induction n generalizing e t with
  | zero =>
    cases h
    rfl
  | succ n ih =>
    rw [accumulateAll_succ] at h
    cases hfirst : t.accumulate (sample e).1 with
    | error f =>
      rw [hfirst] at h
      cases h
    | ok t₁ =>
      rw [hfirst] at h
      have hrest := ih h
      have hone := samples_of_accumulate hfirst
      omega

theorem fromZero_zipWith {ts xs : List Real64} (f : Real64 → Real64)
    (hts : ∀ s ∈ ts, s.parts ≠ .zero .negative) :
    ∀ s ∈ ts.zipWith (fun s v => s + f v) xs, s.parts ≠ .zero .negative := by
  intro s hs
  rw [← List.map_uncurry_zip_eq_zipWith, List.mem_map] at hs
  rcases hs with ⟨⟨t, x⟩, htx, rfl⟩
  exact Real64.parts_add_ne (hts t (List.of_mem_zip htx).1) _

theorem FromZero.accumulate {t' : Totals Real64} {x : List Real64} (ht : t.FromZero)
    (h : t.accumulate x = .ok t') : t'.FromZero := by
  rcases accumulate_inv h with ⟨-, -, hsum, hsumSq⟩
  intro s hs
  rw [hsum, hsumSq] at hs
  rcases List.mem_append.1 hs with hs | hs
  · exact fromZero_zipWith id (fun s hs => ht s (List.mem_append_left _ hs)) s hs
  · exact fromZero_zipWith (fun v => v * v) (fun s hs => ht s (List.mem_append_right _ hs)) s hs

/-- Entry by entry, what was added to zero first adds the same. -/
theorem zipWith_add_zero {ts xs : List Real64} (f : Real64 → Real64)
    (hts : ∀ s ∈ ts, s.parts ≠ .zero .negative) :
    ts.zipWith (· + ·) ((List.replicate ts.length 0).zipWith (fun s v => s + f v) xs) =
      ts.zipWith (fun s v => s + f v) xs := by
  induction ts generalizing xs with
  | nil => rfl
  | cons t ts ih =>
    cases xs with
    | nil => rw [List.zipWith_nil_right, List.zipWith_nil_right, List.zipWith_nil_right]
    | cons x xs =>
      -- to add zero first changes nothing but the sign of a zero, and the total is not the negative
      -- zero
      have hhead := Real64.add_zero_add (hts t List.mem_cons_self) (f x)
      have htail := @ih xs fun s hs => hts s (List.mem_cons_of_mem t hs)
      rw [List.length_cons, List.replicate_succ, List.zipWith_cons_cons, List.zipWith_cons_cons,
        List.zipWith_cons_cons, hhead, htail]

/-- Totals of `n` samples of dimension `k`, to which nothing but samples was added. -/
structure Holds (t : Totals Real64) (k n : ℕ) : Prop where
  fits : t.Fits k
  fromZero : t.FromZero
  samples : t.samples.toNat = n

theorem holds_zero (k : ℕ) : (zero k : Totals Real64).Holds k 0 :=
  ⟨fits_zero k, fromZero_zero k, rfl⟩

theorem Holds.accumulate {t' : Totals Real64} {x : List Real64} {k n : ℕ} (ht : t.Holds k n)
    (h : t.accumulate x = .ok t') : t'.Holds k (n + 1) :=
  ⟨ht.fits.accumulate h, ht.fromZero.accumulate h, by rw [samples_of_accumulate h, ht.samples]⟩

/-- A batch of one sample adds what the sample does. -/
theorem merge_of_one {b : Totals Real64} {x : List Real64} {k n : ℕ} (ht : t.Holds k n)
    (hone : (zero k).accumulate x = .ok b) :
    t.merge b = (t.accumulate x).map some := by
  rcases accumulate_inv hone with ⟨hlen, hcount, hsum, hsumSq⟩
  have hx : x.length = k := hlen.trans List.length_replicate
  have hxt : x.length = t.count := hx.trans ht.fits.1.symm
  -- the batch counts one sample, and its sums are zero plus the sample
  have hsamples : b.samples = 1 := by
    have hone : addCounts 0 1 = .ok 1 := rfl
    exact Except.ok.inj (hcount.symm.trans hone)
  have hfits : b.sum.length = t.count ∧ b.sumSq.length = t.count := by
    have hb := (fits_zero k).accumulate hone
    exact ⟨hb.1.trans ht.fits.1.symm, hb.2.trans ht.fits.1.symm⟩
  -- no total of the master is the negative zero, so the zero in between is not seen
  have hsum' : t.sum.zipWith (· + ·) b.sum = t.sum.zipWith (fun s v => s + v) x := by
    rw [hsum]
    change t.sum.zipWith _ ((List.replicate k 0).zipWith _ x) = _
    rw [← ht.fits.1]
    exact zipWith_add_zero id fun s hs => ht.fromZero s (List.mem_append_left _ hs)
  have hsumSq' : t.sumSq.zipWith (· + ·) b.sumSq =
      t.sumSq.zipWith (fun s v => s + v * v) x := by
    rw [hsumSq]
    change t.sumSq.zipWith _ ((List.replicate k 0).zipWith _ x) = _
    rw [← ht.fits.2]
    exact zipWith_add_zero (fun v => v * v) fun s hs => ht.fromZero s (List.mem_append_right _ hs)
  rw [accumulate_of_length hxt]
  unfold merge
  rw [if_pos hfits, hsamples, hsum', hsumSq']
  cases addCounts t.samples 1 <;> rfl

end Totals

end FleetEstimate
