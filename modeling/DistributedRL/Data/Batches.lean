import Mathlib.Algebra.Order.BigOperators.Group.List
import Mathlib.Algebra.Order.Field.Basic
import Mathlib.Data.List.Perm.Basic
import Mathlib.Data.List.ProdSigma
import Mathlib.Tactic.FieldSimp
import Mathlib.Tactic.Positivity
import Mathlib.Tactic.Ring

/-!
# Rows, slices and batches

A grid of rows read in row-major order, fancy indexing, consecutive slices of an index list, and the
normalization of a sample to mean zero.
-/

namespace DistributedRL

variable {β γ 𝕂 : Type*}

/-! ### Slices -/

/-- `range(0, n, step)`, which raises where the step is zero. -/
def rangeStep (n : ℕ) (step : ℤ) : Option (List ℕ) :=
  if step = 0 then none
  else if step < 0 then some []
  else some ((List.range ((n + step.toNat - 1) / step.toNat)).map (· * step.toNat))

/-- `x[start : start + size]` -/
def slice (x : List β) (start size : ℕ) : List β := (x.drop start).take size

lemma rangeStep_of_pos (n : ℕ) {k : ℕ} (hk : 0 < k) :
    rangeStep n k = some ((List.range ((n + k - 1) / k)).map (· * k)) := by
  rw [rangeStep, if_neg (by omega), if_neg (by omega), Int.toNat_natCast]

lemma length_slice (x : List β) (start size : ℕ) :
    (slice x start size).length = min size (x.length - start) := by
  rw [slice, List.length_take, List.length_drop]

/-- The first slices are a prefix, by induction on their number. -/
lemma flatten_map_slice (x : List β) (k m : ℕ) :
    ((List.range m).map fun i => slice x (i * k) k).flatten = x.take (m * k) := by
  induction m with
  | zero => simp
  | succ m ih =>
    rw [List.range_succ, List.map_append, List.flatten_append, ih, Nat.succ_mul, List.take_add]
    simp [slice]

lemma le_ceilDiv_mul (n : ℕ) {k : ℕ} (hk : 0 < k) : n ≤ (n + k - 1) / k * k := by
  have hdiv := Nat.div_add_mod (n + k - 1) k
  have hmod := Nat.mod_lt (n + k - 1) hk
  rw [Nat.mul_comm] at hdiv
  omega

lemma mul_lt_of_lt_ceilDiv {n k i : ℕ} (hi : i < (n + k - 1) / k) : i * k < n := by
  have hle := Nat.mul_le_of_le_div k (i + 1) (n + k - 1) hi
  rw [Nat.add_one_mul] at hle
  have hk : k ≠ 0 := by
    rintro rfl
    simp at hi
  omega

/-- The parts have `k` elements each; the last one may have fewer. -/
structure Chunked (k : ℕ) (parts : List (List β)) : Prop where
  full : ∀ part ∈ parts.dropLast, part.length = k
  last : ∀ part ∈ parts.getLast?, 1 ≤ part.length ∧ part.length ≤ k

/-- The consecutive slices of `k` elements. -/
def slices (x : List β) (k : ℕ) : List (List β) :=
  (List.range ((x.length + k - 1) / k)).map fun i => slice x (i * k) k

lemma flatten_slices (x : List β) {k : ℕ} (hk : 0 < k) : (slices x k).flatten = x := by
  rw [slices, flatten_map_slice, List.take_of_length_le (le_ceilDiv_mul x.length hk)]

lemma chunked_slices (x : List β) (k : ℕ) : Chunked k (slices x k) := by
  cases hm : (x.length + k - 1) / k with
  | zero =>
    rw [slices, hm]
    exact ⟨by simp, by simp⟩
  | succ m =>
    have hlt : ∀ i ≤ m, i * k < x.length := fun i hi => mul_lt_of_lt_ceilDiv (by omega)
    rw [slices, hm, List.range_succ, List.map_append, List.map_singleton]
    constructor
    · intro part hpart
      rw [List.dropLast_concat, List.mem_map] at hpart
      obtain ⟨i, hi, rfl⟩ := hpart
      have hnext := hlt (i + 1) (List.mem_range.mp hi)
      rw [Nat.add_one_mul] at hnext
      rw [length_slice, Nat.min_eq_left (by omega)]
    · intro part hpart
      rw [List.getLast?_concat, Option.mem_def, Option.some.injEq] at hpart
      obtain rfl := hpart
      have hlast := hlt m le_rfl
      have hk : k ≠ 0 := by
        rintro rfl
        simp at hm
      rw [length_slice]
      omega

/-! ### Fancy indexing -/

/-- `x[idx]`, which raises where an index is out of range. -/
def pick (x : List β) (idx : List ℕ) : Option (List β) := idx.mapM (x[·]?)

/-- `c` stands at position `i`. -/
abbrev At (x : List β) (i : ℕ) (c : β) : Prop := x[i]? = some c

/-- Indexing an array whose elements are computed from those of `x`. -/
lemma pick_map {x : List β} {idx : List ℕ} {cells : List β} (h : List.Forall₂ (At x) idx cells)
    (f : β → γ) : pick (x.map f) idx = some (cells.map f) := by
  induction h with
  | nil => rfl
  | cons hc _ ih =>
    rw [pick] at ih ⊢
    rw [List.mapM_cons, ih, List.getElem?_map, hc]
    rfl

lemma forall₂_range (x : List β) : List.Forall₂ (At x) (List.range x.length) x := by
  rw [List.forall₂_iff_get]
  refine ⟨by simp, ?_⟩
  intro i h₁ h₂
  simp [At]

/-- Indexing by a permutation of the positions permutes the elements. -/
lemma exists_cells {x : List β} {idx : List ℕ} (h : idx.Perm (List.range x.length)) :
    ∃ cells, List.Forall₂ (At x) idx cells ∧ cells.Perm x :=
  List.perm_comp_forall₂ h (forall₂_range x)

/-! ### Normalization -/

/-- `x.mean()` -/
def mean [Field 𝕂] (x : List 𝕂) : 𝕂 := x.sum / x.length

/-- `x.std()` -/
def std [Field 𝕂] (sqrt : 𝕂 → 𝕂) (x : List 𝕂) : 𝕂 :=
  sqrt (mean (x.map fun a => (a - mean x) ^ 2))

/-- The deviations from the mean sum to zero, and so do their multiples. -/
lemma sum_deviations [Field 𝕂] [CharZero 𝕂] (x : List 𝕂) (d : 𝕂) :
    (x.map fun a => (a - mean x) / d).sum = 0 := by
  have hsum : ∀ y : List 𝕂, (y.map fun a => (a - mean x) / d).sum =
      (y.sum - y.length * mean x) / d := by
    intro y
    induction y with
    | nil => simp
    | cons a y ih =>
      rw [List.map_cons, List.sum_cons, ih, List.sum_cons, List.length_cons]
      push_cast
      ring
  rw [hsum, mean]
  rcases Nat.eq_zero_or_pos x.length with h | h
  · rw [List.length_eq_zero_iff.mp h]
    simp
  · have hne : (x.length : 𝕂) ≠ 0 := Nat.cast_ne_zero.mpr h.ne'
    rw [mul_div_cancel₀ _ hne, sub_self, zero_div]

end DistributedRL
