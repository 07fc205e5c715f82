import Mathlib.Algebra.BigOperators.Intervals
import Mathlib.Algebra.BigOperators.Ring.Finset
import Mathlib.Tactic.Ring

/-!
# Gradient descent with momentum

`v (k + 1) = m * v k + g k` and `w (k + 1) = w k - lr * v (k + 1)`, started at rest: the velocity is
a discounted sum of the gradients, and the position has moved by the velocities.
-/

namespace DistributedRL

variable {R : Type*} [CommRing R] {g v w : ℕ → R} {m lr : R} {K : ℕ}

/-- One step of the discounted sum. -/
lemma discounted_succ (m : R) (g : ℕ → R) (k : ℕ) :
    ∑ i ∈ Finset.range (k + 1), m ^ (k - i) * g i =
      m * ∑ i ∈ Finset.range k, m ^ (k - 1 - i) * g i + g k := by
  rw [Finset.sum_range_succ, Nat.sub_self, pow_zero, one_mul, Finset.mul_sum]
  congr 1
  refine Finset.sum_congr rfl ?_
  intro i hi
  have hlt := Finset.mem_range.mp hi
  rw [show k - i = k - 1 - i + 1 by omega, pow_succ']
  ring

theorem velocity_eq (h0 : v 0 = 0) (hv : ∀ k < K, v (k + 1) = m * v k + g k) :
    ∀ k ≤ K, v k = ∑ i ∈ Finset.range k, m ^ (k - 1 - i) * g i := by
  intro k
  induction k with
  | zero =>
    intro _
    rw [h0, Finset.sum_range_zero]
  | succ k ih =>
    intro hk
    rw [hv k hk, ih (Nat.le_of_succ_le hk), Nat.add_sub_cancel, discounted_succ]

theorem position_eq (h0 : v 0 = 0) (hv : ∀ k < K, v (k + 1) = m * v k + g k)
    (hw : ∀ k < K, w (k + 1) = w k - lr * v (k + 1)) :
    ∀ k ≤ K, w k = w 0 - lr * ∑ j ∈ Finset.range k, ∑ i ∈ Finset.range (j + 1),
      m ^ (j - i) * g i := by
  intro k
  induction k with
  | zero =>
    intro _
    rw [Finset.sum_range_zero, mul_zero, sub_zero]
  | succ k ih =>
    intro hk
    rw [hw k hk, ih (Nat.le_of_succ_le hk), velocity_eq h0 hv (k + 1) hk, Nat.add_sub_cancel,
      Finset.sum_range_succ (fun j => ∑ i ∈ Finset.range (j + 1), m ^ (j - i) * g i) k, mul_add,
      sub_sub]

end DistributedRL
