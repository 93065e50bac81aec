import FleetEstimate.Proofs.Estimation.Sweeps

/-!
# Variances that are not defined

The variance of a mean is clamped at zero, for the sake of rounding. The clamp takes a number
that is not defined for zero as well, and such a number need not come from a sample that is not
defined: if the mean of the squares and the square of the mean have both left the finite numbers,
their difference is a NaN. The tolerance around a positive mean is zero then, so that the
dimension passes for exactly known. A run converges as if the dimension were not there.
-/

namespace FleetEstimate.Real64

open Float.Model (UnpackedFloat Format)
open Float.Model.UnpackedFloat

variable {x y : Real64}

/-! ## The clamp -/

theorem sqrt_zero : Scalar.sqrt (0 : Real64) = 0 := by decide

/-- The clamp takes for zero what is at most zero, and what is not defined. -/
theorem larger_zero_beq_iff : (larger x 0 == 0) = true ↔ x.isNaN = true ∨ x ≤ 0 := by
  have hzero : ((0 : Real64) == 0) = true := by decide
  unfold larger
  by_cases hx : x.isNaN = true
  · rw [if_pos hx]
    exact iff_of_true hzero (.inl hx)
  · rw [if_neg hx]
    by_cases hlt : x < 0
    · rw [if_pos hlt]
      exact iff_of_true hzero (.inr (le_of_lt hlt))
    · -- what is not below zero is left as it is, so it is zero if it is at most zero
      rw [if_neg hlt, or_iff_right hx, beq_iff, le_iff]
      rw [lt_iff] at hlt
      constructor
      · rintro ⟨p, hp, hq⟩
        exact ⟨p, p, hp, hq, le_refl p⟩
      · rintro ⟨p, q, hp, hq, hpq⟩
        have heq : p = q := by
          by_contra hne
          exact hlt ⟨p, q, hp, hq, lt_of_le_of_ne hpq hne⟩
        exact ⟨p, hp, heq ▸ hq⟩

/-! ## What the largest of some numbers passes over -/

/-- Parts of a NaN or of a zero. -/
def IsVoid (u : UnpackedFloat) : Prop := u = .notANumber ∨ ∃ s, u = .zero s

theorem IsVoid.repack {u : UnpackedFloat} (h : IsVoid u) : IsVoid (repack u) := by
  rcases h with rfl | ⟨s, rfl⟩
  · exact .inl rfl
  · exact .inr ⟨s, repack_zero s⟩

theorem isVoid_mul_zero (x : Real64) : IsVoid (x * 0).parts := by
  rw [parts_mul, parts_zero]
  refine IsVoid.repack (IsVoid.repack ?_)
  rcases x.parts with s | _ | s | ⟨s, m, e, h⟩
  · exact .inl rfl
  · exact .inl rfl
  · exact .inr ⟨_, rfl⟩
  · exact .inr ⟨_, rfl⟩

theorem IsVoid.div (hx : IsVoid x.parts) (y : Real64) : IsVoid (x / y).parts := by
  rw [parts_div]
  refine IsVoid.repack (IsVoid.repack ?_)
  rcases hx with hx | ⟨s, hx⟩
  · rw [hx]
    exact .inl rfl
  · rw [hx]
    -- zero over zero and over a NaN is a NaN, and over the rest it is a zero
    rcases y.parts with s' | _ | s' | ⟨s', m, e, h⟩
    · exact .inr ⟨_, rfl⟩
    · exact .inl rfl
    · exact .inl rfl
    · exact .inr ⟨_, rfl⟩

theorem not_pos_of_isVoid (hy : IsVoid y.parts) : ¬ 0 < y := by
  intro h
  -- a NaN is above nothing, and a zero is not above itself
  rcases hy with hy | ⟨s, hy⟩
  · have hnum := (isNaN_of_lt h).2
    rw [isNaN_eq, hy] at hnum
    exact absurd hnum (by decide)
  · rcases lt_iff.1 h with ⟨p, q, hp, hq, hpq⟩
    rw [parts_zero, place] at hp
    rw [hy, place] at hq
    cases hp
    cases hq
    exact lt_irrefl _ hpq

theorem larger_of_isVoid (hx : 0 ≤ x) (hy : IsVoid y.parts) : larger x y = x := by
  have hnum : x.isNaN ≠ true := by
    rw [(isNaN_of_le hx).2]
    decide
  have hlt : ¬ x < y := fun h => not_pos_of_isVoid hy (lt_of_le_of_lt hx h)
  rw [larger, if_neg hnum, if_neg hlt]

theorem zero_le_larger (hx : 0 ≤ x) : 0 ≤ larger x y := by
  have hnum : x.isNaN ≠ true := by
    rw [(isNaN_of_le hx).2]
    decide
  rw [larger, if_neg hnum]
  split
  · rename_i hlt
    exact le_trans hx (le_of_lt hlt)
  · exact hx

/-- The largest of some numbers, of which the first is not negative, is the same without a NaN or
a zero among the others. -/
theorem foldl_larger_eraseIdx (ts : List Real64) {i : ℕ} {t : Real64} (hi : ts[i]? = some t)
    (ht : IsVoid t.parts) (hx : 0 ≤ x) :
    (ts.eraseIdx i).foldl larger x = ts.foldl larger x := by
  induction ts generalizing i x with
  | nil => cases hi
  | cons u us ih =>
    cases i with
    | zero =>
      -- what has been found so far is not negative, and so it is kept
      cases hi
      rw [List.eraseIdx_cons_zero, List.foldl_cons, larger_of_isVoid hx ht]
    | succ i =>
      rw [List.eraseIdx_cons_succ, List.foldl_cons, List.foldl_cons]
      exact ih hi (zero_le_larger hx)

/-! ## Zero half-widths -/

theorem parts_of_pos (hx : 0 < x) :
    (∃ m e h, x.parts = .finite .positive m e h) ∨ x.parts = .infinity .positive :=
  parts_of_not_le_zero (isNaN_of_lt hx).2 (not_le_of_lt hx)

theorem eq_zero_of_parts (h : x.parts = .zero .positive) : x = 0 := by
  have hnum : x.isNaN = false := by
    rw [isNaN_eq, h]
    rfl
  exact eq_of_parts hnum h

theorem zero_div_of_pos (hy : 0 < y) : 0 / y = 0 := by
  have hdiv : div .binary64 (.zero .positive) y.parts = .zero .positive := by
    rcases parts_of_pos hy with ⟨m, e, h, hp⟩ | hp
    · rw [hp]
      rfl
    · rw [hp]
      rfl
  refine eq_zero_of_parts ?_
  rw [parts_div, parts_zero, hdiv, repack_zero, repack_zero]

theorem mul_zero_of_pos (hfin : x.isFinite = true) (hx : 0 < x) : x * 0 = 0 := by
  have hmul : mul .binary64 x.parts (.zero .positive) = .zero .positive := by
    rcases parts_of_pos hx with ⟨m, e, h, hp⟩ | hp
    · rw [hp]
      rfl
    · rw [isFinite_eq, hp] at hfin
      exact absurd hfin (by decide)
  refine eq_zero_of_parts ?_
  rw [parts_mul, parts_zero, hmul, repack_zero, repack_zero]

/-! ## Differences that are not defined -/

theorem isNaN_normalize (k e : ℤ) :
    (UnpackedFloat.normalize .binary64 k e .positive).isNaN = false := by
  unfold UnpackedFloat.normalize
  split
  · exact isNaN_round _ _ _ _
  · rfl
  · exact isNaN_round _ _ _ _

/-- A difference is not defined if one of its numbers is not, or if they are infinities of one
sign. -/
theorem isNaN_sub_iff : (x - y).isNaN = true ↔
    x.isNaN = true ∨ y.isNaN = true ∨ ∃ s, x.parts = .infinity s ∧ y.parts = .infinity s := by
  rw [isNaN_eq, parts_sub, repack_isNaN, repack_isNaN, isNaN_eq, isNaN_eq]
  rcases x.parts with (_ | _) | _ | s | ⟨s, m, e, h⟩ <;>
    rcases y.parts with (_ | _) | _ | s' | ⟨s', m', e', h'⟩ <;>
    simp [sub, UnpackedFloat.isNaN]
  -- what simp leaves open are infinities of two signs, zeros, and finite numbers
  case infinity.negative.infinity.positive => rfl
  case infinity.positive.infinity.negative => rfl
  case zero.zero => cases s <;> cases s' <;> rfl
  case finite.finite => exact isNaN_normalize _ _

/-- The square of a number above zero is a number that is not negative. -/
theorem sign_mul_self (hx : 0 < x) : sign? (x * x).parts = some .positive := by
  rw [parts_mul, repack_sign?, repack_sign?]
  rcases parts_of_pos hx with ⟨m, e, h, hp⟩ | hp
  · rw [hp]
    exact sign_roundWithAccuracy _ _ _ _
  · rw [hp]
    rfl

theorem eq_infinity_iff : x = Scalar.infinity ↔ x.parts = .infinity .positive := by
  constructor
  · rintro rfl
    rfl
  · intro h
    have hnum : x.isNaN = false := by
      rw [isNaN_eq, h]
      rfl
    exact eq_of_parts hnum h

end FleetEstimate.Real64

namespace FleetEstimate

open Real64

/-! ## Tolerances -/

variable {sum sumSq multiplier : Real64} {n : UInt64}

/-- The mean of the squares less the square of the mean. -/
def centralMoment (sum sumSq : Real64) (n : UInt64) : Real64 :=
  sumSq / Scalar.ofCount n - sum / Scalar.ofCount n * (sum / Scalar.ofCount n)

theorem meanVariance_eq :
    meanVariance sum sumSq n = centralMoment sum sumSq n / (Scalar.ofCount n - 1) := rfl

/-- Around a mean above zero, it takes samples that are not defined, or squares that are infinite
both ways. -/
theorem isNaN_centralMoment_iff (hmean : 0 < sum / Scalar.ofCount n) :
    (centralMoment sum sumSq n).isNaN = true ↔ (sumSq / Scalar.ofCount n).isNaN = true ∨
      sumSq / Scalar.ofCount n = Scalar.infinity ∧
        sum / Scalar.ofCount n * (sum / Scalar.ofCount n) = Scalar.infinity := by
  have hsign := sign_mul_self hmean
  unfold centralMoment
  rw [isNaN_sub_iff, eq_infinity_iff, eq_infinity_iff]
  refine or_congr_right ?_
  -- the square of a mean above zero is positive: neither a NaN nor a negative infinity
  constructor
  · rintro (hnan | ⟨s, hsq, hmul⟩)
    · rw [isNaN_iff.1 hnan] at hsign
      cases hsign
    · rw [hmul] at hsign
      cases hsign
      exact ⟨hsq, hmul⟩
  · rintro ⟨hsq, hmul⟩
    exact .inr ⟨.positive, hsq, hmul⟩

theorem tolerance_of_undefined (hn : ¬ n < 2) (hmean : ¬ sum / Scalar.ofCount n ≤ 0)
    (hvar : (centralMoment sum sumSq n).isNaN = true) :
    tolerance sum sumSq n multiplier = multiplier * 0 / (sum / Scalar.ofCount n) := by
  have hnan : (meanVariance sum sumSq n).isNaN = true := by
    rw [meanVariance_eq]
    exact isNaN_div_left hvar
  have hclamped : larger (meanVariance sum sumSq n) 0 = 0 :=
    IsClamped.larger_zero (.inl (isNaN_iff.1 hnan))
  rw [tolerance_eq hn hmean, hclamped, sqrt_zero]

theorem tolerance_eq_zero_of_undefined (hn : ¬ n < 2) (hfin : multiplier.isFinite = true)
    (hpos : 0 < multiplier) (hmean : 0 < sum / Scalar.ofCount n)
    (hvar : (centralMoment sum sumSq n).isNaN = true) : tolerance sum sumSq n multiplier = 0 := by
  rw [tolerance_of_undefined hn (not_le_of_lt hmean) hvar, mul_zero_of_pos hfin hpos,
    zero_div_of_pos hmean]

namespace Estimator

/-! ## Runs -/

variable {E : Type}

theorem converged_iff (s : Estimator E) : s.evaluate.converged = true ↔
    s.evaluate.tolerance.foldl larger 0 ≤ s.target.accuracy ∧
      s.target.minSamples ≤ s.totals.samples := decide_eq_true_iff

/-- The stopping rule does not see a dimension whose variance is not defined. -/
theorem converged_iff_of_undefined {s : Estimator E} {i : ℕ} (hn : ¬ s.totals.samples < 2)
    (hmean : ¬ sum / Scalar.ofCount s.totals.samples ≤ 0)
    (hvar : (centralMoment sum sumSq s.totals.samples).isNaN = true)
    (hsum : s.totals.sum[i]? = some sum) (hsumSq : s.totals.sumSq[i]? = some sumSq) :
    s.evaluate.converged = true ↔
      (s.evaluate.tolerance.eraseIdx i).foldl larger 0 ≤ s.target.accuracy ∧
        s.target.minSamples ≤ s.totals.samples := by
  -- the clamp leaves zero over the mean, which the largest tolerance does not see
  have hvoid : IsVoid (tolerance sum sumSq s.totals.samples s.multiplier).parts := by
    rw [tolerance_of_undefined hn hmean hvar]
    exact (isVoid_mul_zero _).div _
  have htolerance : s.evaluate.tolerance[i]? = _ :=
    (Totals.getElem?_estimate hsum hsumSq s.multiplier).2
  rw [converged_iff, foldl_larger_eraseIdx _ htolerance hvoid (by decide)]

theorem not_converged_of_lt {s : Estimator E} (h : s.totals.samples < s.target.minSamples) :
    s.evaluate.converged = false := by
  rw [Bool.eq_false_iff, Ne, converged_iff]
  intro hmet
  exact absurd hmet.2 (UInt64.not_le.2 h)

/-- The clamp takes for zero not only a variance that is at most zero but one that is not defined
as well. Around a mean above zero a second moment is not defined if the mean of the squares is
not, or if it and the square of the mean are both infinite; the tolerance is zero then, and so it
is finite. Around a mean that is a NaN it is a NaN. In both cases a run stops exactly if it would
without the dimension. -/
theorem undefined_variance_is_lost (hn : 2 ≤ n) (hfin : multiplier.isFinite = true)
    (hpos : 0 < multiplier) :
    (∀ variance : Real64,
      (larger variance 0 == 0) = true ↔ variance.isNaN = true ∨ variance ≤ 0) ∧
    (0 < sum / Scalar.ofCount n →
      ((centralMoment sum sumSq n).isNaN = true ↔ (sumSq / Scalar.ofCount n).isNaN = true ∨
        sumSq / Scalar.ofCount n = Scalar.infinity ∧
          sum / Scalar.ofCount n * (sum / Scalar.ofCount n) = Scalar.infinity) ∧
      ((centralMoment sum sumSq n).isNaN = true →
        tolerance sum sumSq n multiplier = 0 ∧
          (tolerance sum sumSq n multiplier).isFinite = true)) ∧
    ((sum / Scalar.ofCount n).isNaN = true → (tolerance sum sumSq n multiplier).isNaN = true) ∧
    (0 < sum / Scalar.ofCount n ∨ (sum / Scalar.ofCount n).isNaN = true →
      (centralMoment sum sumSq n).isNaN = true →
      ∀ (E : Type) (s : Estimator E) (i : ℕ), s.totals.samples = n →
        s.totals.sum[i]? = some sum → s.totals.sumSq[i]? = some sumSq →
        (s.evaluate.converged = true ↔
          (s.evaluate.tolerance.eraseIdx i).foldl larger 0 ≤ s.target.accuracy ∧
            s.target.minSamples ≤ n)) := by
  have hmany : ¬ n < 2 := UInt64.not_lt.2 hn
  refine ⟨fun _ => larger_zero_beq_iff,
    fun hmean => ⟨isNaN_centralMoment_iff hmean, fun hvar => ?_⟩, isNaN_tolerance_of_mean hmany,
    fun hmean hvar E s i hsamples hsum hsumSq => ?_⟩
  · have hzero := tolerance_eq_zero_of_undefined hmany hfin hpos hmean hvar
    rw [hzero]
    exact ⟨rfl, by decide⟩
  · subst hsamples
    -- such a mean is not at most zero, so the tolerance is not the infinite one
    have hnot : ¬ sum / Scalar.ofCount s.totals.samples ≤ 0 := by
      rcases hmean with hmean | hmean
      · exact not_le_of_lt hmean
      · intro hle
        rw [(isNaN_of_le hle).1] at hmean
        exact absurd hmean (by decide)
    exact converged_iff_of_undefined hmany hnot hvar hsum hsumSq

/-! ## Vast samples

A replay of two samples that are finite, but whose squares are not. -/

/-- Two to the power of 700. -/
def vast : Real64 := ⟨0x6bb0000000000000⟩

/-- Two to the power of 710. -/
def vaster : Real64 := ⟨0x6c50000000000000⟩

/-- About the multiplier of 95 percent. -/
def aboutTwo : Real64 := ⟨0x3fff5c28f5c28f5c⟩

def vastReplay : Replay :=
  ⟨1, [⟨[vast], rfl⟩, ⟨[vaster], rfl⟩], [⟨[vast], rfl⟩, ⟨[vaster], rfl⟩], [], 0⟩

/-- An estimator of the replay that has not run. -/
def vastStart (multiplier : Real64) : Estimator Replay :=
  ⟨vastReplay, .standard, multiplier, .zero 1⟩

/-- The variance of both samples is lost. -/
theorem tolerance_of_vast :
    (2 : UInt64) ≤ 2 ∧ aboutTwo.isFinite = true ∧ 0 < aboutTwo ∧
      (centralMoment (vast + vaster) (vast * vast + vaster * vaster) 2).isNaN = true ∧
      tolerance (vast + vaster) (vast * vast + vaster * vaster) 2 aboutTwo = 0 := by
  have hfin : aboutTwo.isFinite = true := by decide
  have hpos : 0 < aboutTwo := by decide
  have hmean : 0 < (vast + vaster) / Scalar.ofCount 2 := by decide +kernel
  have hvar : (centralMoment (vast + vaster) (vast * vast + vaster * vaster) 2).isNaN = true := by
    decide +kernel
  rcases @undefined_variance_is_lost (vast + vaster) (vast * vast + vaster * vaster) aboutTwo 2
    (by decide) hfin hpos with ⟨-, hlost, -, -⟩
  exact ⟨by decide, hfin, hpos, hvar, ((hlost hmean).2 hvar).1⟩

/-- Behind 128 samples, mean square and square of the mean are both infinite. -/
theorem totals_of_vast (z : Real64) : ∃ sum,
    ((vastStart z).behind 128).totals = ⟨[sum], [Scalar.infinity], 128⟩ ∧
      0 < sum / Scalar.ofCount 128 ∧ (centralMoment sum Scalar.infinity 128).isNaN = true := by
  have htotals : (Totals.zero 1).withSamples (Experiment.draws 128 (Experiment.seed 0 vastReplay)) =
      ⟨[⟨0x6cb0040000000000⟩], [Scalar.infinity], 128⟩ := by decide +kernel
  exact ⟨_, htotals, by decide +kernel, by decide +kernel⟩

theorem converged_vast (z : Real64) : ((vastStart z).behind 128).evaluate.converged = true := by
  rcases totals_of_vast z with ⟨sum, htotals, hmean, hvar⟩
  have hsum : ((vastStart z).behind 128).totals.sum[0]? = some sum := by
    rw [htotals]
    rfl
  have hsumSq : ((vastStart z).behind 128).totals.sumSq[0]? = some Scalar.infinity := by
    rw [htotals]
    rfl
  have hsamples : ((vastStart z).behind 128).totals.samples = 128 := by rw [htotals]
  -- no other dimension is left
  have hnone : ((vastStart z).behind 128).evaluate.tolerance.eraseIdx 0 = [] := by
    unfold evaluate Totals.estimate
    rw [htotals]
    rfl
  have hmet : (0 : Real64) ≤ Target.standard.accuracy ∧ leastSamples ≤ 128 := by decide
  rw [← hsamples] at hmean hvar
  rw [converged_iff_of_undefined (by rw [hsamples]; decide) (not_le_of_lt hmean) hvar hsum hsumSq,
    hnone, hsamples]
  exact hmet

/-- A run over the replay ends at the least number of samples. -/
theorem estimateLocal_vast (z : Real64) : (vastStart z).estimateLocal Unwatched.mk =
    (.ok (((vastStart z).behind 128).evaluate, (vastStart z).behind 128), Unwatched.mk) := by
  have hleast : IsLeast ((vastStart z).stoppingPoints Unwatched.mk) 128 := by
    refine ⟨⟨by decide, stops_iff.2 (by rw [converged_vast]; rfl)⟩, fun n hn => ?_⟩
    -- with fewer samples than the target asks for it is not converged, and nothing interrupts it
    by_contra hlt
    have hn' : n < 128 := Nat.lt_of_not_le hlt
    have hfew : ((vastStart z).behind n).totals.samples < leastSamples := by
      rw [UInt64.lt_iff_toNat_lt, samples_behind (hn'.trans (by decide))]
      exact hn'
    have hnot : ((vastStart z).behind n).evaluate.converged = false := not_converged_of_lt hfew
    have hstops := stops_iff.1 hn.2
    rw [hnot] at hstops
    cases hstops
  exact estimateLocal_of_least Nat.one_ne_zero (by decide) hleast

/-- Two finite samples leave totals whose second moment is not defined, and the tolerance around
their positive mean is zero. A standard run over them converges with its least number of
samples. -/
theorem vast_taken_for_precise :
    vast.isFinite = true ∧ vaster.isFinite = true ∧
      (∃ sum sumSq, [[vast], [vaster]].foldlM Totals.accumulate (Totals.zero 1) =
          .ok ⟨[sum], [sumSq], 2⟩ ∧
        0 < sum / Scalar.ofCount 2 ∧ (centralMoment sum sumSq 2).isNaN = true ∧
        tolerance sum sumSq 2 aboutTwo = 0) ∧
      ∃ s e s', Estimator.new vastReplay .standard = .ok s ∧
        s.estimateLocal Unwatched.mk = (.ok (e, s'), Unwatched.mk) ∧ e.converged = true ∧
        e.samples = 128 := by
  refine ⟨by decide, by decide, ⟨⟨0x6c50040000000000⟩, Scalar.infinity, ?_, ?_, ?_, ?_⟩, ?_⟩
  · decide +kernel
  · decide +kernel
  · decide +kernel
  · decide +kernel
  · -- the run is not computed: it stops behind the least number of samples
    rcases multiplierOf_standard with ⟨z, hz⟩
    have hnew : Estimator.new vastReplay .standard = .ok (vastStart z) :=
      new_of_multiplier Nat.one_ne_zero hz
    rcases totals_of_vast z with ⟨sum, htotals, -, -⟩
    have hsamples : ((vastStart z).behind 128).totals.samples = 128 := by rw [htotals]
    exact ⟨_, _, _, hnew, estimateLocal_vast z, converged_vast z, hsamples⟩

end Estimator

end FleetEstimate
