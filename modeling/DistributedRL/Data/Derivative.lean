import DistributedRL.Data.Batches
import Mathlib.Analysis.Calculus.FDeriv.Add

/-!
# Derivatives of clipped functions and of means

Derivatives of what a program computes with `min`, `max` and the mean of a list.
-/

namespace DistributedRL

variable {E F ι : Type*} [NormedAddCommGroup E] [NormedSpace ℝ E] [NormedAddCommGroup F]
  [NormedSpace ℝ F] {f : E → ℝ} {f' : E →L[ℝ] ℝ} {x : E} {c : ℝ}

/-- A function that is cut off from above, away from the bound. -/
lemma hasFDerivAt_min_const (h : HasFDerivAt f f' x) (hne : f x ≠ c) :
    HasFDerivAt (fun y => min (f y) c) (if f x < c then f' else 0) x := by
  rcases lt_or_gt_of_ne hne with hlt | hgt
  · rw [if_pos hlt]
    refine h.congr_of_eventuallyEq ?_
    filter_upwards [h.continuousAt.eventually_lt_const hlt] with y hy
    exact min_eq_left hy.le
  · rw [if_neg hgt.not_gt]
    refine (hasFDerivAt_const c x).congr_of_eventuallyEq ?_
    filter_upwards [h.continuousAt.eventually_const_lt hgt] with y hy
    exact min_eq_right hy.le

/-- A function that is cut off from below, away from the bound. -/
lemma hasFDerivAt_max_const (h : HasFDerivAt f f' x) (hne : f x ≠ c) :
    HasFDerivAt (fun y => max (f y) c) (if c < f x then f' else 0) x := by
  rcases lt_or_gt_of_ne hne with hlt | hgt
  · rw [if_neg hlt.not_gt]
    refine (hasFDerivAt_const c x).congr_of_eventuallyEq ?_
    filter_upwards [h.continuousAt.eventually_lt_const hlt] with y hy
    exact max_eq_right hy.le
  · rw [if_pos hgt]
    refine h.congr_of_eventuallyEq ?_
    filter_upwards [h.continuousAt.eventually_const_lt hgt] with y hy
    exact max_eq_left hy.le

/-- A sum over a list, by induction on it. -/
lemma hasFDerivAt_list_sum {g : ι → E → F} {g' : ι → E →L[ℝ] F} {l : List ι}
    (h : ∀ i ∈ l, HasFDerivAt (g i) (g' i) x) :
    HasFDerivAt (fun y => (l.map fun i => g i y).sum) (l.map g').sum x := by
  induction l with
  | nil => exact hasFDerivAt_const 0 x
  | cons i l ih =>
    simp only [List.map_cons, List.sum_cons]
    exact (h i List.mem_cons_self).add (ih fun j hj => h j (List.mem_cons_of_mem _ hj))

/-- The mean of a list of functions. -/
lemma hasFDerivAt_mean {g : ι → E → ℝ} {g' : ι → E →L[ℝ] ℝ} {l : List ι}
    (h : ∀ i ∈ l, HasFDerivAt (g i) (g' i) x) :
    HasFDerivAt (fun y => mean (l.map fun i => g i y)) ((l.length : ℝ)⁻¹ • (l.map g').sum) x := by
  simp only [mean, List.length_map, div_eq_inv_mul]
  exact (hasFDerivAt_list_sum h).const_smul (l.length : ℝ)⁻¹

end DistributedRL
