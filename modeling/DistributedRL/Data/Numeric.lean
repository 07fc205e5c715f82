import Mathlib.Algebra.Order.Floor.Ring
import Mathlib.Algebra.Order.Ring.Abs
import Mathlib.Data.Fin.Tuple.Basic
import Mathlib.Tactic.Linarith
import Mathlib.Tactic.Ring

/-!
# Exact arithmetic

Python's floats and numpy over an ordered field: division, clipping, the remainder, the circle
functions and draws from an interval. Of the circle functions only bounds are given.
-/

namespace DistributedRL

variable {ρ 𝕂 : Type*} [Field 𝕂] [LinearOrder 𝕂]

/-! ### Numerals

The conditions under which `Fin n` and a field have their numerals, under names of their own. -/

instance neZeroOne : NeZero 1 := ⟨by decide⟩

instance neZeroTwo : NeZero 2 := ⟨by decide⟩

instance neZeroFour : NeZero 4 := ⟨by decide⟩

instance atLeastTwoTwo : Nat.AtLeastTwo 2 := ⟨le_rfl⟩

/-! ### Division -/

/-- `x / y`, where it is defined. -/
def div? (x y : 𝕂) : Option 𝕂 := if y = 0 then none else some (x / y)

lemma div?_of_pos {y : 𝕂} (h : 0 < y) (x : 𝕂) : div? x y = some (x / y) := if_neg h.ne'

/-! ### Clipping -/

/-- `np.clip(x, low, high)` -/
def clip (x low high : 𝕂) : 𝕂 := min (max x low) high

section

variable {x low high c : 𝕂}

omit [Field 𝕂] in
lemma clip_mem (x : 𝕂) (h : low ≤ high) : low ≤ clip x low high ∧ clip x low high ≤ high :=
  ⟨le_min (le_max_right x low) h, min_le_right _ _⟩

omit [Field 𝕂] in
lemma clip_of_mem (hl : low ≤ x) (hh : x ≤ high) : clip x low high = x := by
  rw [clip, max_eq_left hl, min_eq_left hh]

lemma abs_clip_le [IsStrictOrderedRing 𝕂] (x : 𝕂) (hc : 0 ≤ c) : |clip x (-c) c| ≤ c :=
  abs_le.mpr (clip_mem x (neg_le_self hc))

end

/-! ### Angles -/

/-- `x % y` on floats. -/
def floatMod [FloorRing 𝕂] (x y : 𝕂) : 𝕂 := x - y * ⌊x / y⌋

/-- `np.sin`, `np.cos` and `np.pi`. -/
structure Circle (𝕂 : Type*) [Field 𝕂] [LinearOrder 𝕂] where
  sin : 𝕂 → 𝕂
  cos : 𝕂 → 𝕂
  pi : 𝕂
  abs_sin_le : ∀ x, |sin x| ≤ 1
  abs_cos_le : ∀ x, |cos x| ≤ 1
  three_lt_pi : 3 < pi

/-- `(x + np.pi) % (2 * np.pi) - np.pi` -/
def Circle.wrap [FloorRing 𝕂] (T : Circle 𝕂) (x : 𝕂) : 𝕂 := floatMod (x + T.pi) (2 * T.pi) - T.pi

/-- Two angles that differ by a multiple of `2 * π`. -/
def Circle.SameDirection (T : Circle 𝕂) (x y : 𝕂) : Prop := ∃ k : ℤ, y = x + k * (2 * T.pi)

section

variable [IsStrictOrderedRing 𝕂] [FloorRing 𝕂] (T : Circle 𝕂) {x y : 𝕂}

lemma floatMod_mem (x : 𝕂) (hy : 0 < y) : 0 ≤ floatMod x y ∧ floatMod x y < y := by
  have hfract : floatMod x y = y * Int.fract (x / y) := by
    rw [floatMod, Int.fract, mul_sub, mul_div_cancel₀ x hy.ne']
  rw [hfract]
  exact ⟨mul_nonneg hy.le (Int.fract_nonneg _), mul_lt_of_lt_one_right hy (Int.fract_lt_one _)⟩

omit [FloorRing 𝕂] in
lemma Circle.pi_pos : 0 < T.pi := zero_lt_three.trans T.three_lt_pi

lemma Circle.wrap_mem (x : 𝕂) : -T.pi ≤ T.wrap x ∧ T.wrap x < T.pi := by
  obtain ⟨hl, hr⟩ := floatMod_mem (x + T.pi) (mul_pos two_pos T.pi_pos)
  rw [wrap]
  constructor
  · linarith
  · linarith

omit [IsStrictOrderedRing 𝕂] in
/-- Wrapping changes an angle by a multiple of `2 * π`. -/
lemma Circle.sameDirection_wrap (x : 𝕂) : T.SameDirection x (T.wrap x) := by
  refine ⟨-⌊(x + T.pi) / (2 * T.pi)⌋, ?_⟩
  rw [wrap, floatMod, Int.cast_neg]
  ring

/-- An angle that is in range is left as it is. -/
lemma Circle.wrap_of_mem (hl : -T.pi ≤ x) (hr : x < T.pi) : T.wrap x = x := by
  have hpos : 0 < 2 * T.pi := mul_pos two_pos T.pi_pos
  have hfloor : ⌊(x + T.pi) / (2 * T.pi)⌋ = 0 := by
    rw [Int.floor_eq_zero_iff, Set.mem_Ico, div_lt_one hpos]
    exact ⟨div_nonneg (by linarith) hpos.le, by linarith⟩
  rw [wrap, floatMod, hfloor, Int.cast_zero, mul_zero, sub_zero, add_sub_cancel_right]

/-- At `π` itself the angle is wrapped to `-π`. -/
lemma Circle.abs_wrap (h : |x| ≤ T.pi) : |T.wrap x| = |x| := by
  obtain ⟨hl, hr⟩ := abs_le.mp h
  rcases hr.lt_or_eq with hlt | rfl
  · rw [T.wrap_of_mem hl hlt]
  · have hpos : 0 < 2 * T.pi := mul_pos two_pos T.pi_pos
    have hwrap : T.wrap T.pi = -T.pi := by
      rw [wrap, floatMod, ← two_mul, div_self hpos.ne', Int.floor_one, Int.cast_one, mul_one,
        sub_self, zero_sub]
    rw [hwrap, abs_neg]

end

/-! ### Random draws -/

/-- A random generator: `uniform(low, high)` draws from the half-open interval. -/
structure Generator (ρ 𝕂 : Type*) [LinearOrder 𝕂] where
  uniform : ρ → 𝕂 → 𝕂 → 𝕂 × ρ
  uniform_mem : ∀ r low high, low < high →
    low ≤ (uniform r low high).1 ∧ (uniform r low high).1 < high

/-- `uniform(low, high, size=n)`, one draw after the other. -/
def Generator.uniforms (G : Generator ρ 𝕂) (low high : 𝕂) :
    (n : ℕ) → ρ → (Fin n → 𝕂) × ρ
  | 0, r => (Fin.elim0, r)
  | n + 1, r =>
    let (u, r) := G.uniform r low high
    let (us, r) := uniforms G low high n r
    (Fin.cons u us, r)

omit [Field 𝕂] in
lemma Generator.uniforms_mem (G : Generator ρ 𝕂) {low high : 𝕂} (h : low < high) (n : ℕ) (r : ρ)
    (i : Fin n) : low ≤ (G.uniforms low high n r).1 i ∧ (G.uniforms low high n r).1 i < high := by
  induction n generalizing r with
  | zero => exact i.elim0
  | succ n ih =>
    refine Fin.cases ?_ ?_ i
    · exact G.uniform_mem r low high h
    · intro i
      exact ih _ i

/-- `low + (high - low) * random()`, from a stream of numbers in `[0, 1)`. -/
def Generator.ofStream [IsStrictOrderedRing 𝕂] : Generator (ℕ → Set.Ico (0 : 𝕂) 1) 𝕂 where
  uniform r low high := (low + (high - low) * r 0, fun n => r (n + 1))
  uniform_mem r low high h := by
    have hpos : 0 < high - low := sub_pos.mpr h
    obtain ⟨u, hl, hr⟩ := r 0
    have hle : 0 ≤ (high - low) * u := mul_nonneg hpos.le hl
    have hlt : (high - low) * u < high - low := mul_lt_of_lt_one_right hpos hr
    exact ⟨le_add_of_nonneg_right hle, by linarith⟩

end DistributedRL
