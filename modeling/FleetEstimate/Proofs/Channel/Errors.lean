import FleetEstimate.Proofs.Channel.Histories
import FleetEstimate.Proofs.Estimation.Spread
import FleetEstimate.Proofs.Estimation.Stopping
import FleetEstimate.Proofs.Real64.Tallies

/-!
# The errors of a block

A block is sent bit by bit: the bit is drawn, then the noise, and the bit is wrong if the sign of
what is received tells the other one. The errors of the block are the places where this happens,
whatever the deviation of the noise is, for with a NaN it is decided too. Both entries of a sample
come from this one number, so that they agree, and over a run the indicators add up to the number
of blocks with an error.
-/

namespace FleetEstimate

namespace UncodedChannel

open Experiment
open Random.Generator (pastBit)
open Real64 (tally)
open Float.Model (UnpackedFloat)
open Float.Model.UnpackedFloat

variable {c : UncodedChannel} {i n : ℕ}

/-! ## Position by position -/

/-- The bit at a position of the next block. -/
def sent (c : UncodedChannel) (i : ℕ) : Bool := (pastBit^[i] c.generator).coin.1

/-- The noise at a position, which is drawn right behind the bit. -/
def noise (c : UncodedChannel) (i : ℕ) : Float := (pastBit^[i] c.generator).coin.2.normal.1

def received (c : UncodedChannel) (i : ℕ) : Float :=
  (if c.sent i then -1.0 else 1.0) + c.sigma * c.noise i

/-- The bit that is told from what is received. -/
def decided (c : UncodedChannel) (i : ℕ) : Bool := decide (c.received i < 0.0)

/-- The errors that are counted for the next block. -/
def errorCount (c : UncodedChannel) : ℕ :=
  (bitErrors c.sigma c.blockSize.toNat 0 c.generator).1

theorem bitErrors_fst (sigma : Float) (bits errors : ℕ) (g : Random.Generator) :
    (bitErrors sigma bits errors g).1 =
      errors + Nat.count (fun i => (bitError sigma (pastBit^[i] g)).1 = true) bits := by
  -- the loop takes the first position off, so the count is split there and not at its end
  induction bits generalizing errors g with
  | zero => rfl
  | succ bits ih =>
    have hrest : (bitErrors sigma (bits + 1) errors g).1 = (bitErrors sigma bits
        (if (bitError sigma g).1 then errors + 1 else errors) (bitError sigma g).2).1 := rfl
    rw [hrest, ih, bitError_snd, Nat.count_succ', Function.iterate_zero_apply]
    cases (bitError sigma g).1 with
    | true =>
      rw [if_pos rfl, if_pos rfl, Nat.add_assoc, Nat.add_comm 1]
      rfl
    | false =>
      rw [if_neg Bool.false_ne_true, if_neg Bool.false_ne_true]
      rfl

theorem bitError_fst (c : UncodedChannel) (i : ℕ) :
    (bitError c.sigma (pastBit^[i] c.generator)).1 = (c.decided i != c.sent i) := by
  unfold bitError decided received sent noise
  -- the draws are generalized, lest they be computed
  generalize pastBit^[i] c.generator = g
  rcases g.coin with ⟨bit, g⟩
  dsimp only

/-- The errors of a block are its positions where the decided bit is not the one sent. -/
theorem errorCount_eq (c : UncodedChannel) :
    c.errorCount = Nat.count (fun i => c.decided i ≠ c.sent i) c.blockSize.toNat := by
  unfold errorCount
  rw [bitErrors_fst, Nat.zero_add]
  simp only [bitError_fst, bne_iff_ne]

theorem errorCount_le (c : UncodedChannel) : c.errorCount ≤ c.blockSize.toNat := by
  rw [errorCount_eq]
  exact Nat.count_le _

/-! ## The sample -/

/-- The indicator of a block with so many errors. -/
def indicator (errors : ℕ) : Real64 := if 0 < errors then 1 else 0

theorem blockSize_pos (c : UncodedChannel) : 0 < c.blockSize.toNat :=
  Nat.pos_of_ne_zero fun h => c.blockSize_ne_zero (UInt64.toNat_inj.1 h)

theorem sample_fst (c : UncodedChannel) : (sample c).1 =
    [Scalar.ofCount (.ofNat c.errorCount) / Scalar.ofCount c.blockSize,
      indicator c.errorCount] := by
  have hsample : (sample c).1 = blockResult c.blockSize c.errorCount := rfl
  rw [hsample, blockResult, Real64.ofFloat_quotient (blockSize_pos c)]
  rfl

theorem toNat_errorCount (c : UncodedChannel) :
    (UInt64.ofNat c.errorCount).toNat = c.errorCount :=
  UInt64.toNat_ofNat_of_lt' (c.errorCount_le.trans_lt c.blockSize.toNat_lt)

/-- The two entries of a sample agree. -/
theorem sample_agrees (c : UncodedChannel) : ∃ rate flag, (sample c).1 = [rate, flag] ∧
    (c.errorCount = 0 → rate = 0 ∧ flag = 0) ∧
    (0 < c.errorCount → 0 < rate ∧ flag = 1) := by
  refine ⟨_, _, sample_fst c, fun hnone => ?_, fun hsome => ?_⟩
  · rw [hnone]
    exact ⟨Real64.zero_div_ofCount c.blockSize_pos, rfl⟩
  · refine ⟨Real64.quotient_pos ?_ c.blockSize_pos, if_pos hsome⟩
    rwa [toNat_errorCount]

/-! ## Blocks without noise -/

theorem unpack_of_eq_zero {x : Float} (hx : (x == 0.0) = true) :
    ∃ s, x.toModel.unpack = .zero s := by
  have hbeq : x.toModel.unpack.beq (0.0 : Float).toModel.unpack = true := hx
  rcases (Real64.unpacked_beq_iff _ _).1 hbeq with ⟨p, hp, hzero⟩
  rcases Real64.eq_or_zero_of_place hp hzero with hsame | ⟨hzero, -⟩
  · exact ⟨.positive, hsame⟩
  · exact hzero

theorem unpack_mul_of_silent {sigma x : Float} (hsigma : (sigma == 0.0) = true)
    (hx : x.isFinite = true) : ∃ s, (sigma * x).toModel.unpack = .zero s := by
  have hproduct : (sigma * x).toModel.unpack =
      Real64.repack (mul .binary64 sigma.toModel.unpack x.toModel.unpack) := rfl
  have hfinite : x.toModel.unpack.isFinite = true := hx
  rcases unpack_of_eq_zero hsigma with ⟨s, hs⟩
  rw [hproduct, hs]
  generalize x.toModel.unpack = u at hfinite
  -- zero times an infinity is a NaN, but what is drawn is finite
  rcases u with s' | _ | s' | ⟨s', m, e, h⟩
  · cases hfinite
  · cases hfinite
  · exact ⟨s * s', Real64.repack_zero _⟩
  · exact ⟨s * s', Real64.repack_zero _⟩

/-- What is sent without noise is received as it was sent. -/
theorem received_of_silent (hsigma : (c.sigma == 0.0) = true) (hnoise : (c.noise i).isFinite) :
    c.received i = if c.sent i then -1.0 else 1.0 := by
  rcases unpack_mul_of_silent hsigma hnoise with ⟨s, hs⟩
  have hsum : (c.received i).toModel.unpack = Real64.repack (add .binary64
      (if c.sent i then -1.0 else 1.0 : Float).toModel.unpack
      (c.sigma * c.noise i).toModel.unpack) := rfl
  refine Real64.float_ext ?_
  rw [hsum, hs]
  cases c.sent i <;> rfl

theorem decided_of_silent (hsigma : (c.sigma == 0.0) = true) (hnoise : (c.noise i).isFinite) :
    c.decided i = c.sent i := by
  unfold decided
  rw [received_of_silent hsigma hnoise]
  cases c.sent i <;> decide

theorem errorCount_of_silent (hsigma : (c.sigma == 0.0) = true)
    (hnoise : ∀ i < c.blockSize.toNat, (c.noise i).isFinite) : c.errorCount = 0 := by
  rw [errorCount_eq, Nat.count_iff_forall_not]
  intro i hi
  exact not_not_intro (decided_of_silent hsigma (hnoise i hi))

/-! ## Runs -/

theorem sigma_skip (n : ℕ) (c : UncodedChannel) : (skip n c).sigma = c.sigma := by
  induction n with
  | zero => rfl
  | succ n ih => rw [skip_succ, sample_snd, ih]

/-- A sample that says whether there was an error. -/
def Indicates (x : List Real64) : Prop := x[1]? = some 0 ∨ x[1]? = some 1

/-- How many of the samples say that there was one. -/
def frameErrors (xs : List (List Real64)) : ℕ := xs.countP fun x => decide (x[1]? = some 1)

theorem frameErrors_append (xs ys : List (List Real64)) :
    frameErrors (xs ++ ys) = frameErrors xs + frameErrors ys := List.countP_append

theorem getElem?_sample (c : UncodedChannel) :
    (sample c).1[1]? = some (indicator c.errorCount) := by
  rw [sample_fst]
  rfl

theorem indicates_sample (c : UncodedChannel) : Indicates (sample c).1 := by
  unfold Indicates
  rw [getElem?_sample, indicator]
  split
  · exact .inr rfl
  · exact .inl rfl

theorem says_error_iff (c : UncodedChannel) : (sample c).1[1]? = some 1 ↔ 0 < c.errorCount := by
  have hne : (0 : Real64) ≠ 1 := by decide
  rw [getElem?_sample, Option.some.injEq, indicator, ite_eq_left_iff]
  constructor
  · intro h
    by_contra hnone
    exact hne (h hnone)
  · intro hsome hnone
    exact absurd hsome hnone

/-- How many of the channels have an error in their next block. -/
def failing (cs : List UncodedChannel) : ℕ := cs.countP fun c => decide (0 < c.errorCount)

theorem frameErrors_samples (cs : List UncodedChannel) :
    frameErrors (cs.map fun c => (sample c).1) = failing cs := by
  unfold frameErrors failing
  rw [List.countP_map]
  refine List.countP_congr fun c _ => ?_
  simp only [Function.comp_apply, decide_eq_true_eq, says_error_iff]

theorem frameErrors_draws (n : ℕ) (c : UncodedChannel) :
    frameErrors (draws n c) = Nat.count (fun j => 0 < (skip j c).errorCount) n := by
  induction n with
  | zero => rfl
  | succ n ih =>
    have hone : frameErrors [(sample (skip n c)).1] = if 0 < (skip n c).errorCount then 1 else 0 := by
      unfold frameErrors
      rw [List.countP_singleton]
      simp only [decide_eq_true_eq, says_error_iff]
    rw [draws_succ, frameErrors_append, ih, hone, Nat.count_succ]

theorem indicates_of_mem_draws {x : List Real64} (hx : x ∈ draws n c) : Indicates x := by
  induction n generalizing c with
  | zero => cases hx
  | succ n ih =>
    rcases List.mem_cons.1 hx with rfl | hx
    · exact indicates_sample c
    · exact ih hx

/-- A sample adds to a tally what it says. -/
theorem getElem?_zipWith_tally {sums x : List Real64} (hsums : sums[1]? = some (tally n))
    (hx : Indicates x) :
    (sums.zipWith (fun s v => s + v) x)[1]? = some (tally (n + frameErrors [x])) := by
  unfold frameErrors
  rw [List.getElem?_zipWith, hsums, List.countP_singleton]
  rcases hx with hx | hx <;> rw [hx]
  · exact congrArg some (Real64.tally_add_zero n)
  · exact congrArg some (Real64.tally_add_one n)

theorem getElem?_added_tally {xs : List (List Real64)} {sums : List Real64}
    (hsums : sums[1]? = some (tally n)) (hxs : ∀ x ∈ xs, Indicates x) :
    (Totals.added id sums xs)[1]? = some (tally (n + frameErrors xs)) := by
  induction xs generalizing sums n with
  | nil => exact hsums
  | cons x xs ih =>
    have hfirst := getElem?_zipWith_tally hsums (hxs x List.mem_cons_self)
    have hcons : frameErrors (x :: xs) = frameErrors [x] + frameErrors xs :=
      frameErrors_append [x] xs
    rw [hcons, ← Nat.add_assoc]
    exact ih hfirst fun y hy => hxs y (List.mem_cons_of_mem x hy)

theorem tally_withSamples (c : UncodedChannel) (n : ℕ) :
    ((Totals.zero 2).withSamples (draws n c)).sum[1]? = some (tally
      (Nat.count (fun j => 0 < (skip j c).errorCount) n)) := by
  have hzero : (List.replicate 2 (0 : Real64))[1]? = some (tally 0) := rfl
  have hsum := getElem?_added_tally hzero fun x (hx : x ∈ draws n c) => indicates_of_mem_draws hx
  rw [Nat.zero_add, frameErrors_draws] at hsum
  exact hsum

/-- The samples that a channel gives next tally its blocks with an error. -/
theorem tally_accumulateAll (c : UncodedChannel) {n : ℕ} (hn : n < UInt64.size) :
    ∃ t, (Totals.zero 2).accumulateAll n c = .ok t ∧ t.sum[1]? = some (tally
      (Nat.count (fun j => 0 < (skip j c).errorCount) n)) := by
  have hlen : ∀ x ∈ draws n c, x.length = 2 := fun _ hx => length_of_mem_draws hx
  have hcount : (Totals.zero 2 : Totals Real64).samples.toNat + (draws n c).length <
      UInt64.size := by
    rw [length_draws]
    exact (Nat.zero_add n).trans_lt hn
  exact ⟨_, Totals.foldlM_accumulate (Totals.fits_zero 2) hlen hcount, tally_withSamples c n⟩

/-- So do those of a run in one process. -/
theorem tally_of_estimateLocal {ω : Type} [Watch ω] {s s' : Estimator UncodedChannel} {w w' : ω}
    {e : Estimate Real64} (h : s.estimateLocal w = (.ok (e, s'), w')) :
    s'.totals.sum[1]? = some (tally
      (Nat.count (fun j => 0 < (skip j (seed 0 s.experiment)).errorCount)
        s'.totals.samples.toNat)) := by
  have hcount : count s.experiment ≠ 0 := two_ne_zero
  -- a run that ends has stopped behind a number of samples from the start
  rcases Estimator.estimateLocal_cases hcount w with ⟨n, hn, -, hrun⟩ | ⟨-, hrun⟩
  · rw [hrun] at h
    cases h
    rw [Estimator.samples_behind hn]
    exact tally_withSamples (seed 0 s.experiment) n
  · rw [hrun] at h
    cases h

/-- However samples and batches have come to totals, they tally the errors, as long as their number
fits into a significand. -/
theorem tally_of_reached {t : Totals Real64} {xs : List (List Real64)} (h : t.Reached xs)
    (hxs : ∀ x ∈ xs, Indicates x) (ht : 1 < t.count) (hlt : frameErrors xs < 2 ^ 53) :
    t.sum[1]? = some (tally (frameErrors xs)) := by
  -- the bound passes to the parts, so that no merge on the way has rounded
  induction h with
  | zero k =>
    have hk : (Totals.zero k : Totals Real64).count = k := List.length_replicate
    rw [hk] at ht
    exact List.getElem?_replicate_of_lt ht
  | @sample t t' xs x _ h' ih =>
    rcases Totals.accumulate_inv h' with ⟨hlen, -, hsum, -⟩
    have hcount : t'.count = t.count := by
      unfold Totals.count at hlen ⊢
      rw [hsum, List.length_zipWith, hlen, Nat.min_self]
    rw [frameErrors_append] at hlt ⊢
    have hbefore := ih (fun y hy => hxs y (List.mem_append_left _ hy)) (by omega) (by omega)
    rw [hsum]
    exact getElem?_zipWith_tally hbefore (hxs x (List.mem_append_right _ List.mem_cons_self))
  | @batch t t' b xs ys _ _ h' ih ihb =>
    rcases Totals.merge_eq_some_iff.1 h' with ⟨hfits, -, rfl⟩
    rw [Totals.count_plus hfits] at ht
    rw [frameErrors_append] at hlt ⊢
    have hbefore := ih (fun y hy => hxs y (List.mem_append_left _ hy)) ht (by omega)
    have hcount : b.count = t.count := hfits.1
    have hbatch := ihb (fun y hy => hxs y (List.mem_append_right _ hy)) (by omega) (by omega)
    rw [Totals.plus, List.getElem?_zipWith, hbefore, hbatch]
    exact congrArg some (Real64.tally_add_tally hlt)

/-! ## Runs without rounding -/

theorem column_indicators (cs : List UncodedChannel) :
    (Totals.column (cs.map fun c => (sample c).1.map Real64.value) 1).sum = failing cs := by
  induction cs with
  | nil => exact Nat.cast_zero.symm
  | cons c cs ih =>
    -- the second entry of a sample is its indicator, exactly
    have hentry : ((sample c).1.map Real64.value).getD 1 0 =
        if 0 < c.errorCount then 1 else 0 := by
      rw [List.getD_eq_getElem?_getD, List.getElem?_map, getElem?_sample, indicator]
      split
      · exact Real64.value_one
      · exact Real64.value_zero
    have hcons : failing (c :: cs) = failing cs + if 0 < c.errorCount then 1 else 0 := by
      unfold failing
      simp only [List.countP_cons, decide_eq_true_eq]
    rw [List.map_cons, Totals.column, List.map_cons, List.sum_cons, hentry, ← Totals.column, ih,
      hcons, Nat.cast_add, Nat.cast_ite, Nat.cast_one, Nat.cast_zero, add_comm]

theorem sum_of_reached {t : Totals EReal} {cs : List UncodedChannel}
    (h : t.Reached (cs.map fun c => (sample c).1.map fun v => (v.value : EReal)))
    (ht : 1 < t.count) :
    t.sum[1]? = some ((failing cs : ℝ) : EReal) := by
  have hrows : (cs.map fun c => (sample c).1.map fun v => (v.value : EReal)) =
      (cs.map fun c => (sample c).1.map Real64.value).map (List.map Real.toEReal) := by
    simp only [List.map_map, Function.comp_def]
  rw [hrows] at h
  rw [(h.addsUp.sums ht).1, column_indicators]

/-- A block counts its errors: the positions whose decided bit is not the one sent, where the bit
and then the noise are drawn for one position after the other. There are at most as many as bits.
The sample is their number over the block size, and whether there are any; so both of its entries
are zero or neither is. Without noise there are none, as long as what is drawn for the noise is
finite. Over the samples that a channel gives next, as over a run in one process, the indicators
make the tally of the blocks with errors, which is their number up to `2 ^ 53`. So they do in
totals that are merged from batches, within that bound, and without rounding there is no bound. -/
theorem samples_tell_errors :
    (∀ c : UncodedChannel,
      c.errorCount = Nat.count (fun i => c.decided i ≠ c.sent i) c.blockSize.toNat ∧
      c.errorCount ≤ c.blockSize.toNat ∧
      (sample c).1 = [Scalar.ofCount (.ofNat c.errorCount) / Scalar.ofCount c.blockSize,
        if 0 < c.errorCount then 1 else 0] ∧
      (sample c).2 = { c with generator := pastBit^[c.blockSize.toNat] c.generator }) ∧
    (∀ c : UncodedChannel, ∃ rate flag, (sample c).1 = [rate, flag] ∧
      (c.errorCount = 0 → rate = 0 ∧ flag = 0) ∧
      (0 < c.errorCount → 0 < rate ∧ flag = 1)) ∧
    (∀ (c : UncodedChannel) n, (c.sigma == 0.0) = true →
      (∀ i < c.blockSize.toNat, ((skip n c).noise i).isFinite) → (skip n c).errorCount = 0) ∧
    (∀ (c : UncodedChannel), ∀ n < UInt64.size, ∃ t, (Totals.zero 2).accumulateAll n c = .ok t ∧
      t.sum[1]? = some (tally (Nat.count (fun j => 0 < (skip j c).errorCount) n))) ∧
    (∀ {ω : Type} [Watch ω] (s s' : Estimator UncodedChannel) (w w' : ω) e,
      s.estimateLocal w = (.ok (e, s'), w') →
      s'.totals.sum[1]? = some (tally
        (Nat.count (fun j => 0 < (skip j (seed 0 s.experiment)).errorCount)
          s'.totals.samples.toNat))) ∧
    (∀ n, (tally n).value = (min n (2 ^ 53) : ℕ)) ∧
    (∀ (t : Totals Real64) (cs : List UncodedChannel), t.Reached (cs.map fun c => (sample c).1) →
      1 < t.count → failing cs < 2 ^ 53 → t.sum[1]? = some (tally (failing cs))) ∧
    (∀ (t : Totals EReal) (cs : List UncodedChannel),
      t.Reached (cs.map fun c => (sample c).1.map fun v => (v.value : EReal)) → 1 < t.count →
      t.sum[1]? = some ((failing cs : ℝ) : EReal)) := by
  refine ⟨?block, sample_agrees, ?silent, fun c n hn => tally_accumulateAll c hn, ?run,
    Real64.value_tally, ?reached, ?exact⟩
  case block => exact fun c => ⟨errorCount_eq c, errorCount_le c, sample_fst c, sample_snd c⟩
  case silent =>
    intro c n hsigma hnoise
    -- samples change neither the noise nor the block size
    rw [← sigma_skip n c] at hsigma
    rw [← blockSize_skip n] at hnoise
    exact errorCount_of_silent hsigma hnoise
  case run =>
    intro ω _ s s' w w' e h
    exact tally_of_estimateLocal h
  case reached =>
    intro t cs h ht hlt
    -- up to the bound, adding indicators in any grouping rounds nothing off
    rw [← frameErrors_samples] at hlt ⊢
    refine tally_of_reached h ?_ ht hlt
    intro x hx
    rcases List.mem_map.1 hx with ⟨c, -, rfl⟩
    exact indicates_sample c
  case exact =>
    intro t cs h ht
    exact sum_of_reached h ht

-- this block is all ones, and each of them is told as a zero if the deviation is a NaN
example : (⟨2, by decide, 0, 0.0, .ofSeed 0⟩ : UncodedChannel).errorCount = 0 := by decide +kernel
example : (⟨2, by decide, 0, 0.0 / 0.0, .ofSeed 0⟩ : UncodedChannel).errorCount = 2 := by
  decide +kernel

end UncodedChannel

end FleetEstimate
