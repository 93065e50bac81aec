import Mathlib
import FleetEstimate.Normal.Multiplier

/-!
# The search approaches its root from below

Without rounding, the secants of a convex function that decreases meet their goal before the
function does. So a search that starts below the root climbs towards it and never passes it, and
its two points are apart as long as it goes on, so that no secant is level.
-/

namespace FleetEstimate

/-- The real numbers, with any number for infinity. -/
noncomputable abbrev Scalar.real (top : ℝ) : Scalar ℝ where
  ofCount n := n.toNat
  sqrt := Real.sqrt
  abs x := |x|
  larger := max
  smaller := min
  infinity := top
  decidableLe := inferInstance

namespace Normal

/-! ## The iterations of a search -/

/-- What an iteration starts from: two points and their distances from the goal. -/
structure Head (α : Type) where
  x₀ : α
  f₀ : α
  x₁ : α
  f₁ : α

section

variable {α : Type} [Scalar α]

namespace Head

/-- What a search from two points starts from. -/
def start (f : α → α) (y x₀ x₁ : α) : Head α := ⟨x₀, f x₀ - y, x₁, f x₁ - y⟩

/-- The point that the iteration steps to. -/
def target (h : Head α) : α := chordRoot h.x₀ h.f₀ h.x₁ h.f₁

/-- What the next iteration starts from. -/
def next (f : α → α) (y : α) (h : Head α) : Head α := ⟨h.x₁, h.f₁, h.target, f h.target - y⟩

/-- The search ends with this iteration: its secant is level, or its step is a small one. -/
def Ends (eps : α) (h : Head α) : Prop :=
  (h.f₁ == h.f₀) = true ∨
    Scalar.abs (h.target - h.x₁) ≤ eps * Scalar.larger (Scalar.abs h.target) 1

instance (eps : α) (h : Head α) : Decidable (h.Ends eps) := inferInstanceAs (Decidable (_ ∨ _))

end Head

/-- What the iterations of a search start from, one after the other. -/
def heads (f : α → α) (y eps : α) : (fuel : ℕ) → Head α → List (Head α)
  | 0, _ => []
  | fuel + 1, h => h :: if h.Ends eps then [] else heads f y eps fuel (h.next f y)

/-- The points that a search from `h` comes to by these iterations. -/
def path (h : Head α) (hs : List (Head α)) : List α := h.x₀ :: h.x₁ :: hs.map Head.target

theorem length_heads_le (f : α → α) (y eps : α) (fuel : ℕ) (h : Head α) :
    (heads f y eps fuel h).length ≤ fuel := by
  induction fuel generalizing h with
  | zero => exact le_rfl
  | succ fuel ih =>
    rw [heads, List.length_cons]
    split
    · exact Nat.succ_le_succ (Nat.zero_le fuel)
    · exact Nat.succ_le_succ (ih _)

/-- A search whose first secant is not level ends where that leads, or goes on from there. -/
theorem secantFrom_succ {f : α → α} {y eps : α} {fuel : ℕ} {h : Head α}
    (hsteep : (h.f₁ == h.f₀) = false) :
    secantFrom f y eps (fuel + 1) h.x₀ h.f₀ h.x₁ h.f₁ =
      if h.Ends eps then h.target
      else secantFrom f y eps fuel (h.next f y).x₀ (h.next f y).f₀ (h.next f y).x₁
        (h.next f y).f₁ := by
  simp only [secantFrom, Head.Ends, hsteep, Bool.false_eq_true, if_false, false_or]
  rfl

end

/-! ## Below the root -/

/-- A convex function that decreases, and where it attains its goal. -/
structure Attains (f : ℝ → ℝ) (y root : ℝ) : Prop where
  anti : StrictAntiOn f (Set.Ici 0)
  convex : ConvexOn ℝ (Set.Ici 0) f
  nonneg : 0 ≤ root
  eq : f root = y

/-- The points of an iteration are apart and not above the root, and their distances from the goal
are what they should be. -/
structure Head.Below (f : ℝ → ℝ) (y root : ℝ) (h : Head ℝ) : Prop where
  dist₀ : h.f₀ = f h.x₀ - y
  dist₁ : h.f₁ = f h.x₁ - y
  nonneg : 0 ≤ h.x₀
  lt : h.x₀ < h.x₁
  le_root : h.x₁ ≤ root

variable {f : ℝ → ℝ} {y eps root top x : ℝ} {h : Head ℝ}

/-- The step of a secant is the distance from the goal over the slope. -/
theorem Head.target_eq (h : Head ℝ) :
    @target ℝ (.real top) h = h.x₁ + h.f₁ * (h.x₁ - h.x₀) / (h.f₀ - h.f₁) := by
  have hflip : h.f₀ - h.f₁ = -(h.f₁ - h.f₀) := (neg_sub h.f₁ h.f₀).symm
  rw [hflip, div_neg, ← sub_eq_add_neg]
  rfl

namespace Attains

variable (hf : Attains f y root)

include hf

theorem le (hx : 0 ≤ x) (hle : x ≤ root) : y ≤ f x := by
  rw [← hf.eq]
  exact hf.anti.antitoneOn hx hf.nonneg hle

theorem eq_root (hx : 0 ≤ x) (heq : f x = y) : x = root :=
  hf.anti.injOn hx hf.nonneg (heq.trans hf.eq.symm)

end Attains

namespace Head.Below

variable (hf : Attains f y root) (hh : h.Below f y root)

include hh

theorem pos : 0 < h.x₁ := hh.nonneg.trans_lt hh.lt

include hf

theorem f₁_nonneg : 0 ≤ h.f₁ := by
  rw [hh.dist₁]
  exact sub_nonneg.mpr (hf.le hh.pos.le hh.le_root)

theorem f₁_lt_f₀ : h.f₁ < h.f₀ := by
  rw [hh.dist₀, hh.dist₁]
  exact sub_lt_sub_right (hf.anti hh.nonneg hh.pos.le hh.lt) y

theorem le_target : h.x₁ ≤ @target ℝ (.real top) h := by
  rw [target_eq, le_add_iff_nonneg_right]
  exact div_nonneg (mul_nonneg (hh.f₁_nonneg hf) (sub_pos.mpr hh.lt).le)
    (sub_pos.mpr (hh.f₁_lt_f₀ hf)).le

/-- The search stands still only at the root. -/
theorem eq_target_iff : h.x₁ = @target ℝ (.real top) h ↔ f h.x₁ = y := by
  have hslope := (sub_pos.mpr (hh.f₁_lt_f₀ hf)).ne'
  have hwidth := (sub_pos.mpr hh.lt).ne'
  rw [target_eq, eq_comm, add_eq_left, div_eq_zero_iff, or_iff_left hslope, mul_eq_zero,
    or_iff_left hwidth, hh.dist₁, sub_eq_zero]

/-- The secant meets the goal before the function does, as the function is convex. -/
theorem target_le_root : @target ℝ (.real top) h ≤ root := by
  rw [target_eq]
  obtain heq | hlt := hh.le_root.eq_or_lt
  · -- at the root there is nothing left to go
    have hzero : h.f₁ = 0 := by rw [hh.dist₁, heq, hf.eq, sub_self]
    rw [hzero, zero_mul, zero_div, add_zero, heq]
  · have hslopes := hf.convex.slope_mono_adjacent (Set.mem_Ici.mpr hh.nonneg) hf.nonneg hh.lt hlt
    have hleft : f h.x₁ - f h.x₀ = -(h.f₀ - h.f₁) := by
      rw [hh.dist₀, hh.dist₁]
      ring
    have hright : f root - f h.x₁ = -h.f₁ := by
      rw [hf.eq, hh.dist₁, neg_sub]
    have hwidth := sub_pos.mpr hh.lt
    have hrest := sub_pos.mpr hlt
    rw [hleft, hright, neg_div, neg_div, neg_le_neg_iff, div_le_div_iff₀ hrest hwidth] at hslopes
    rw [← le_sub_iff_add_le', div_le_iff₀ (sub_pos.mpr (hh.f₁_lt_f₀ hf)),
      mul_comm (root - h.x₁)]
    exact hslopes

/-- A search that goes on does so from points below the root. -/
theorem next (heps : 0 ≤ eps) (hgoes : ¬ @Ends ℝ (.real top) eps h) :
    (@Head.next ℝ (.real top) f y h).Below f y root := by
  refine ⟨hh.dist₁, rfl, hh.pos.le, ?lt, hh.target_le_root hf⟩
  case lt =>
    refine (hh.le_target hf).lt_of_ne fun hstill => hgoes (.inr ?_)
    change |@target ℝ (.real top) h - h.x₁| ≤ eps * max |@target ℝ (.real top) h| 1
    rw [← hstill, sub_self, abs_zero]
    positivity

end Head.Below

/-! ## The whole search -/

/-- A search from `h` that makes these iterations and ends at `z` stays below the root, moves on
from every point but the root, and ends at the last point it comes to. -/
structure Climbs (f : ℝ → ℝ) (y root top : ℝ) (h : Head ℝ) (hs : List (Head ℝ)) (z : ℝ) :
    Prop where
  below : ∀ k ∈ hs, k.Below f y root
  chain : (h.x₁ :: hs.map (@Head.target ℝ (.real top))).IsChain
    fun a b => a ≤ b ∧ (a = b ↔ f a = y)
  last : (h.x₁ :: hs.map (@Head.target ℝ (.real top))).getLast? = some z

/-- Each iteration but the last leaves points below the root for the next. -/
theorem climbs (hf : Attains f y root) (heps : 0 ≤ eps) (fuel : ℕ) (hh : h.Below f y root) :
    Climbs f y root top h (@heads ℝ (.real top) f y eps fuel h)
      (@secantFrom ℝ (.real top) f y eps fuel h.x₀ h.f₀ h.x₁ h.f₁) := by
  let _ := Scalar.real top
  induction fuel generalizing h with
  | zero => exact ⟨by simp [heads], by simp [heads], rfl⟩
  | succ fuel ih =>
    -- below the root the function falls strictly, so the secant is not level
    have hsteep : (h.f₁ == h.f₀) = false := beq_eq_false_iff_ne.mpr (hh.f₁_lt_f₀ hf).ne
    have hstep : h.x₁ ≤ h.target ∧ (h.x₁ = h.target ↔ f h.x₁ = y) :=
      ⟨hh.le_target hf, hh.eq_target_iff hf⟩
    rw [secantFrom_succ hsteep, heads]
    by_cases hends : h.Ends eps
    · rw [if_pos hends, if_pos hends]
      exact ⟨by simpa using hh, by simpa using hstep, rfl⟩
    · rw [if_neg hends, if_neg hends]
      -- it goes on from points that are below the root again
      obtain ⟨hbelow, hchain, hlast⟩ := ih (hh.next hf heps hends)
      refine ⟨List.forall_mem_cons.mpr ⟨hh, hbelow⟩, ?_, ?_⟩
      · exact List.isChain_cons_cons.mpr ⟨hstep, hchain⟩
      · exact hlast

theorem below_start (top : ℝ) (hf : Attains f y root) (hone : y ≤ f 1) :
    (@Head.start ℝ (.real top) f y 0 1).Below f y root := by
  refine ⟨rfl, rfl, le_rfl, zero_lt_one, ?_⟩
  by_contra hgt
  have hlt := hf.anti hf.nonneg (Set.mem_Ici.mpr zero_le_one) (not_le.mp hgt)
  rw [hf.eq] at hlt
  exact absurd hone (not_le.mpr hlt)

namespace Climbs

variable {hs : List (Head ℝ)} {z : ℝ} (hf : Attains f y root) (hh : h.Below f y root)
  (hclimbs : Climbs f y root top h hs z)

include hclimbs

theorem last_path : (@path ℝ (.real top) h hs).getLast? = some z := by
  unfold path
  rw [List.getLast?_cons_cons]
  exact hclimbs.last

theorem end_mem : z ∈ @path ℝ (.real top) h hs := List.mem_of_getLast? hclimbs.last_path

include hf hh

/-- Also from its first point the search moves on, as that is not the root. -/
theorem chain_path : (@path ℝ (.real top) h hs).IsChain fun a b => a ≤ b ∧ (a = b ↔ f a = y) := by
  refine List.isChain_cons_cons.mpr ⟨⟨hh.lt.le, ?_⟩, hclimbs.chain⟩
  refine iff_of_false hh.lt.ne fun heq => ?_
  have hroot := hf.eq_root hh.nonneg heq
  exact absurd (hh.lt.trans_le hh.le_root) (not_lt.mpr hroot.ge)

theorem pairwise_path : (@path ℝ (.real top) h hs).Pairwise (· ≤ ·) :=
  List.isChain_iff_pairwise.mp ((hclimbs.chain_path hf hh).imp fun _ _ hab => hab.1)

theorem mem_path (hx : x ∈ @path ℝ (.real top) h hs) : 0 ≤ x ∧ x ≤ root := by
  -- the points ascend from the first one to the last target
  have hsorted := hclimbs.pairwise_path hf hh
  constructor
  · obtain rfl | htail := List.mem_cons.mp hx
    · exact hh.nonneg
    · exact hh.nonneg.trans (List.rel_of_pairwise_cons hsorted htail)
  · obtain rfl | htail := List.mem_cons.mp hx
    · exact hh.lt.le.trans hh.le_root
    · obtain rfl | hmem := List.mem_cons.mp htail
      · exact hh.le_root
      · obtain ⟨k, hk, rfl⟩ := List.mem_map.mp hmem
        exact (hclimbs.below k hk).target_le_root hf

/-- The search ends at the highest of its points. -/
theorem le_end (hx : x ∈ @path ℝ (.real top) h hs) : x ≤ z := by
  obtain ⟨front, hfront⟩ := List.getLast?_eq_some_iff.mp hclimbs.last_path
  have hsorted := hclimbs.pairwise_path hf hh
  rw [hfront] at hx hsorted
  obtain hmem | hmem := List.mem_append.mp hx
  · exact (List.pairwise_append.mp hsorted).2.2 x hmem z List.mem_cons_self
  · exact (List.mem_singleton.mp hmem).le

end Climbs

/-! ## The search without rounding -/

/-- What the iterations of the search start from. -/
noncomputable def iterations (top : ℝ) (f : ℝ → ℝ) (y eps : ℝ) : List (Head ℝ) :=
  @heads ℝ (.real top) f y eps 1000 (@Head.start ℝ (.real top) f y 0 1)

/-- The points that the search comes to. -/
noncomputable def points (top : ℝ) (f : ℝ → ℝ) (y eps : ℝ) : List ℝ :=
  @path ℝ (.real top) (@Head.start ℝ (.real top) f y 0 1) (iterations top f y eps)

/-- Where the search ends. -/
noncomputable def found (top : ℝ) (f : ℝ → ℝ) (y eps : ℝ) : ℝ := @secant ℝ (.real top) f y eps 0 1

theorem climbs_to_found (top : ℝ) (hf : Attains f y root) (hone : y ≤ f 1) (heps : 0 ≤ eps) :
    Climbs f y root top (@Head.start ℝ (.real top) f y 0 1) (iterations top f y eps)
      (found top f y eps) := climbs hf heps 1000 (below_start top hf hone)

/-- Without rounding, the search for the root of a convex function that decreases starts from 0 and
1, if the function is not below its goal there, and comes to at most a thousand points more. None
of its secants is level, and each of them goes through the graph of the function. The points
ascend, unless the root was reached; none of them is above the root. So the search ends between 1
and the root, and at the root if it comes to it at all. -/
theorem search_stays_below_root (top : ℝ) (hanti : StrictAntiOn f (Set.Ici 0))
    (hconvex : ConvexOn ℝ (Set.Ici 0) f) (hroot : 0 ≤ root) (hy : f root = y) (hone : y ≤ f 1)
    (heps : 0 ≤ eps) :
    (∀ k ∈ iterations top f y eps,
      k.f₁ - k.f₀ ≠ 0 ∧ k.f₀ = f k.x₀ - y ∧ k.f₁ = f k.x₁ - y) ∧
    (points top f y eps).IsChain (fun a b => a ≤ b ∧ (a = b ↔ f a = y)) ∧
    (∀ x ∈ points top f y eps, 0 ≤ x ∧ x ≤ root ∧ y ≤ f x) ∧
    (iterations top f y eps).length ≤ 1000 ∧
    (points top f y eps).getLast? = some (found top f y eps) ∧
    1 ≤ found top f y eps ∧ found top f y eps ≤ root ∧
    ∀ x ∈ points top f y eps, f x = y → found top f y eps = root := by
  have hf : Attains f y root := ⟨hanti, hconvex, hroot, hy⟩
  have hh := below_start top hf hone
  -- one invariant for all iterations: both points are below the root and in order
  have hclimbs := climbs_to_found top hf hone heps
  have hmem := hclimbs.mem_path hf hh hclimbs.end_mem
  have hlength := @length_heads_le ℝ (.real top) f y eps 1000 (@Head.start ℝ (.real top) f y 0 1)
  refine ⟨?heads, hclimbs.chain_path hf hh, ?points, hlength, hclimbs.last_path, ?above, hmem.2,
    ?hit⟩
  case heads =>
    intro k hk
    have hbelow := hclimbs.below k hk
    exact ⟨sub_ne_zero.mpr (hbelow.f₁_lt_f₀ hf).ne, hbelow.dist₀, hbelow.dist₁⟩
  case points =>
    intro x hx
    obtain ⟨hpos, hle⟩ := hclimbs.mem_path hf hh hx
    exact ⟨hpos, hle, hf.le hpos hle⟩
  case above => exact hclimbs.le_end hf hh (List.mem_cons_of_mem _ List.mem_cons_self)
  case hit =>
    intro x hx heq
    -- the root is the one point where the function has come down to its goal, and the end is not
    -- below a point on the way
    have hxroot := hf.eq_root (hclimbs.mem_path hf hh hx).1 heq
    exact hmem.2.antisymm (hxroot.ge.trans (hclimbs.le_end hf hh hx))

/-- The search for the 2 at which `exp (-x)` comes down to `exp (-2)`. -/
theorem search_of_exponential :
    StrictAntiOn (fun x : ℝ => Real.exp (-x)) (Set.Ici 0) ∧
      ConvexOn ℝ (Set.Ici 0) (fun x : ℝ => Real.exp (-x)) ∧ (0 : ℝ) ≤ 2 ∧
      Real.exp (-2) ≤ Real.exp (-1) ∧ (0 : ℝ) ≤ 1e-12 ∧
      1 ≤ found 0 (fun x => Real.exp (-x)) (Real.exp (-2)) 1e-12 ∧
      found 0 (fun x => Real.exp (-x)) (Real.exp (-2)) 1e-12 ≤ 2 := by
  have hanti : StrictAntiOn (fun x : ℝ => Real.exp (-x)) (Set.Ici 0) :=
    fun a _ b _ hab => Real.exp_lt_exp.mpr (neg_lt_neg hab)
  have hconvex : ConvexOn ℝ (Set.Ici 0) (fun x : ℝ => Real.exp (-x)) :=
    (convexOn_exp.comp_linearMap (-LinearMap.id)).subset (Set.subset_univ _) (convex_Ici 0)
  have hone : Real.exp (-2) ≤ Real.exp (-1) := Real.exp_le_exp.mpr (by norm_num)
  have heps : (0 : ℝ) ≤ 1e-12 := by norm_num
  obtain ⟨-, -, -, -, -, hlow, hhigh, -⟩ :=
    search_stays_below_root 0 hanti hconvex zero_le_two rfl hone heps
  exact ⟨hanti, hconvex, zero_le_two, hone, heps, hlow, hhigh⟩

end Normal

end FleetEstimate
