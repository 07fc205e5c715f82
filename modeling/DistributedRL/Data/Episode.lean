import Mathlib.Algebra.BigOperators.Intervals
import Mathlib.Algebra.Field.GeomSum
import Mathlib.Tactic.LinearCombination
import Mathlib.Tactic.Ring

/-!
# Sums over an episode

A sequence of steps, some of them terminal, is cut after the first terminal one. Backward
recurrences that multiply by `1 - d t`, where `d t` is one at terminal steps and zero elsewhere, are
sums over the steps up to the cut: discounted sums, and mixtures of `n`-step returns. A sum that is
started afresh after terminal steps is over the steps since the last one. A counter that is started
afresh after terminal steps, and that makes a step terminal when it has reached a bound, cuts the
sequence into episodes of bounded length.
-/

namespace DistributedRL

/-! ### The horizon -/

/-- The number of steps from `t` to the first terminal one, inclusive, among the `n` steps from
`t`; all `n` of them if none is terminal. -/
def horizon (terminal : ℕ → Prop) [DecidablePred terminal] : ℕ → ℕ → ℕ
  | _, 0 => 0
  | t, n + 1 => if terminal t then 1 else horizon terminal (t + 1) n + 1

section

variable {terminal terminal' : ℕ → Prop} [DecidablePred terminal] [DecidablePred terminal']

lemma horizon_of_terminal {t : ℕ} (h : terminal t) (n : ℕ) :
    horizon terminal t (n + 1) = 1 := by
  rw [horizon, if_pos h]

lemma horizon_of_not_terminal {t : ℕ} (h : ¬ terminal t) (n : ℕ) :
    horizon terminal t (n + 1) = horizon terminal (t + 1) n + 1 := by
  rw [horizon, if_neg h]

lemma horizon_le (t n : ℕ) : horizon terminal t n ≤ n := by
  induction n generalizing t with
  | zero => exact le_rfl
  | succ n ih =>
    rw [horizon]
    split_ifs
    · exact Nat.le_add_left 1 n
    · exact Nat.succ_le_succ (ih (t + 1))

lemma horizon_pos (t n : ℕ) : 0 < horizon terminal t (n + 1) := by
  rw [horizon]
  split_ifs
  · exact Nat.one_pos
  · exact Nat.succ_pos _

/-- The last step is terminal, or it is the last one of all. -/
lemma terminal_or_horizon_eq (t n : ℕ) :
    terminal (t + horizon terminal t (n + 1) - 1) ∨ horizon terminal t (n + 1) = n + 1 := by
  induction n generalizing t with
  | zero =>
    right
    rw [horizon]
    split_ifs <;> rfl
  | succ n ih =>
    by_cases ht : terminal t
    · left
      rw [horizon_of_terminal ht]
      exact ht
    · rw [horizon_of_not_terminal ht]
      rcases ih (t + 1) with h | h
      · left
        rwa [show t + (horizon terminal (t + 1) (n + 1) + 1) - 1 =
          t + 1 + horizon terminal (t + 1) (n + 1) - 1 by omega]
      · right
        rw [h]

/-- The horizon depends on the steps up to it only. -/
lemma horizon_congr {t n : ℕ}
    (h : ∀ l < horizon terminal t n, terminal' (t + l) ↔ terminal (t + l)) :
    horizon terminal' t n = horizon terminal t n := by
  induction n generalizing t with
  | zero => rfl
  | succ n ih =>
    have h₀ := h 0 (horizon_pos t n)
    rw [Nat.add_zero] at h₀
    by_cases ht : terminal t
    · rw [horizon_of_terminal ht, horizon_of_terminal (h₀.mpr ht)]
    · rw [horizon_of_not_terminal ht] at h ⊢
      rw [horizon_of_not_terminal (h₀.not.mpr ht)]
      refine congrArg (· + 1) (ih ?_)
      intro l hl
      have := h (l + 1) (Nat.succ_lt_succ hl)
      rwa [show t + (l + 1) = t + 1 + l by omega] at this

/-- A step before the last one is not terminal. -/
lemma not_terminal_of_lt_horizon {t n k : ℕ} (hk : k + 1 < horizon terminal t n) :
    ¬ terminal (t + k) := by
  induction n generalizing t k with
  | zero => exact absurd hk (Nat.not_lt_zero _)
  | succ n ih =>
    by_cases ht : terminal t
    · rw [horizon_of_terminal ht] at hk
      exact absurd hk (Nat.not_lt.mpr (Nat.le_add_left 1 k))
    · cases k with
      | zero => exact ht
      | succ k =>
        rw [horizon_of_not_terminal ht] at hk
        rw [show t + (k + 1) = t + 1 + k from Nat.add_right_comm t k 1]
        exact ih (Nat.lt_of_succ_lt_succ hk)

end

/-! ### Running sums -/

/-- The first step of the episode that step `n` is in: the one after the last terminal step before
`n`, or step zero. -/
def episodeStart (terminal : ℕ → Prop) [DecidablePred terminal] : ℕ → ℕ
  | 0 => 0
  | n + 1 => if terminal n then n + 1 else episodeStart terminal n

section

variable {terminal : ℕ → Prop} [DecidablePred terminal]

lemma episodeStart_succ_of_terminal {n : ℕ} (h : terminal n) :
    episodeStart terminal (n + 1) = n + 1 := by
  rw [episodeStart, if_pos h]

lemma episodeStart_succ_of_not_terminal {n : ℕ} (h : ¬ terminal n) :
    episodeStart terminal (n + 1) = episodeStart terminal n := by
  rw [episodeStart, if_neg h]

lemma episodeStart_le (n : ℕ) : episodeStart terminal n ≤ n := by
  induction n with
  | zero => exact le_rfl
  | succ n ih =>
    by_cases h : terminal n
    · rw [episodeStart_succ_of_terminal h]
    · rw [episodeStart_succ_of_not_terminal h]
      exact Nat.le_succ_of_le ih

/-- A terminal step comes right before the episode, or nothing does, and no step of it before `n` is
terminal. -/
lemma episodeStart_spec (n : ℕ) :
    (episodeStart terminal n = 0 ∨ terminal (episodeStart terminal n - 1)) ∧
      ∀ i, episodeStart terminal n ≤ i → i < n → ¬ terminal i := by
  induction n with
  | zero => exact ⟨Or.inl rfl, fun i _ hi => absurd hi (Nat.not_lt_zero i)⟩
  | succ n ih =>
    by_cases h : terminal n
    · rw [episodeStart_succ_of_terminal h]
      refine ⟨Or.inr h, ?_⟩
      intro i hle hlt
      exact absurd hlt (Nat.not_lt.mpr hle)
    · rw [episodeStart_succ_of_not_terminal h]
      refine ⟨ih.1, ?_⟩
      intro i hle hlt
      rcases Nat.lt_succ_iff_lt_or_eq.mp hlt with hlt | rfl
      · exact ih.2 i hle hlt
      · exact h

variable {M : Type*} [AddCommMonoid M] (x : ℕ → M)

/-- The sum over the steps before `n` since the last terminal one. -/
def sumSince (terminal : ℕ → Prop) [DecidablePred terminal] (x : ℕ → M) (n : ℕ) : M :=
  ∑ i ∈ Finset.Ico (episodeStart terminal n) n, x i

/-- The sum over the episode of step `n`, up to and including that step. -/
def sumThrough (terminal : ℕ → Prop) [DecidablePred terminal] (x : ℕ → M) (n : ℕ) : M :=
  ∑ i ∈ Finset.Ico (episodeStart terminal n) (n + 1), x i

lemma sumThrough_eq (n : ℕ) : sumThrough terminal x n = sumSince terminal x n + x n :=
  Finset.sum_Ico_succ_top (episodeStart_le n) x

lemma sumSince_zero : sumSince terminal x 0 = 0 := by
  rw [sumSince, Finset.Ico_eq_empty_of_le (Nat.zero_le _), Finset.sum_empty]

/-- A terminal step ends the sum, and any other goes on with it. -/
lemma sumSince_succ (n : ℕ) :
    sumSince terminal x (n + 1) = if terminal n then 0 else sumThrough terminal x n := by
  split_ifs with h
  · rw [sumSince, episodeStart_succ_of_terminal h, Finset.Ico_self, Finset.sum_empty]
  · rw [sumSince, episodeStart_succ_of_not_terminal h, sumThrough]

end

/-! ### Counted episodes -/

/-- `count` is the number of steps since the last terminal one, and a step with which it would reach
`maxSteps` is terminal. -/
structure Counts (terminal : ℕ → Prop) (count : ℕ → ℕ) (maxSteps : ℕ) : Prop where
  zero : count 0 = 0
  reset : ∀ n, terminal n → count (n + 1) = 0
  next : ∀ n, ¬ terminal n → count (n + 1) = count n + 1
  stops : ∀ n, maxSteps ≤ count n + 1 → terminal n

/-- The steps from `i` to `i + L - 1` are an episode: the counter starts at zero, the last one of
them is terminal, no other is, and the counter starts again after it. -/
structure IsEpisode (terminal : ℕ → Prop) (count : ℕ → ℕ) (i L : ℕ) : Prop where
  pos : 1 ≤ L
  counts : ∀ k < L, count (i + k) = k
  last : ∀ k < L, (terminal (i + k) ↔ k + 1 = L)
  next : count (i + L) = 0

namespace Counts

variable {terminal : ℕ → Prop} {count : ℕ → ℕ} {maxSteps : ℕ}

lemma lt (h : Counts terminal count maxSteps) (hpos : 0 < maxSteps) (n : ℕ) :
    count n < maxSteps := by
  induction n with
  | zero =>
    rw [h.zero]
    exact hpos
  | succ n ih =>
    by_cases ht : terminal n
    · rw [h.reset n ht]
      exact hpos
    · rw [h.next n ht]
      exact Nat.lt_of_not_le fun hle => ht (h.stops n hle)

/-- The counter counts from the step after the last terminal one. -/
lemma since (h : Counts terminal count maxSteps) (n : ℕ) :
    ∃ i, i + count n = n ∧ ∀ k ≤ count n, count (i + k) = k := by
  induction n with
  | zero =>
    rw [h.zero]
    refine ⟨0, rfl, ?_⟩
    intro k hk
    rw [Nat.le_zero.mp hk]
    exact h.zero
  | succ n ih =>
    by_cases ht : terminal n
    · have hzero := h.reset n ht
      rw [hzero]
      refine ⟨n + 1, rfl, ?_⟩
      intro k hk
      rw [Nat.le_zero.mp hk]
      exact hzero
    · obtain ⟨i, hi, hcount⟩ := ih
      have hsucc := h.next n ht
      rw [hsucc]
      refine ⟨i, by rw [← Nat.add_assoc, hi], ?_⟩
      intro k hk
      rcases Nat.le_succ_iff.mp hk with hk | rfl
      · exact hcount k hk
      · rw [Nat.add_succ, hi, hsucc]

variable [DecidablePred terminal]

/-- Up to the horizon the counter goes on. -/
lemma of_lt_horizon (h : Counts terminal count maxSteps) {i m k : ℕ} (hi : count i = 0)
    (hk : k < horizon terminal i m) : count (i + k) = k := by
  induction k with
  | zero => exact hi
  | succ k ih =>
    rw [← Nat.add_assoc, h.next _ (not_terminal_of_lt_horizon hk), ih (Nat.lt_of_succ_lt hk)]

/-- The step at the horizon is terminal. -/
lemma terminal_horizon (h : Counts terminal count maxSteps) (hpos : 0 < maxSteps) {i : ℕ}
    (hi : count i = 0) : terminal (i + horizon terminal i maxSteps - 1) := by
  obtain ⟨m, rfl⟩ := Nat.exists_eq_add_one_of_ne_zero hpos.ne'
  have hend : terminal (i + horizon terminal i (m + 1) - 1) ∨ horizon terminal i (m + 1) = m + 1 :=
    terminal_or_horizon_eq i m
  rcases hend with ht | heq
  · exact ht
  · have hlt : m < horizon terminal i (m + 1) := by
      rw [heq]
      exact Nat.lt_succ_self m
    rw [heq]
    exact h.stops (i + m) (by rw [h.of_lt_horizon hi hlt])

/-- Every step is one of an episode of at most `maxSteps` steps. -/
theorem exists_episode (h : Counts terminal count maxSteps) (hpos : 0 < maxSteps) (n : ℕ) :
    ∃ i L, i ≤ n ∧ n < i + L ∧ L ≤ maxSteps ∧ IsEpisode terminal count i L := by
  obtain ⟨i, hi, hsince⟩ := h.since n
  have hzero : count i = 0 := hsince 0 (Nat.zero_le _)
  have hlast := h.terminal_horizon hpos hzero
  set L := horizon terminal i maxSteps with hL
  have hLpos : 0 < L := by
    obtain ⟨m, rfl⟩ := Nat.exists_eq_add_one_of_ne_zero hpos.ne'
    exact horizon_pos i m
  have hnext : count (i + L) = 0 := by
    have hreset := h.reset _ hlast
    rwa [Nat.sub_add_cancel (Nat.le_trans hLpos (Nat.le_add_left L i))] at hreset
  refine ⟨i, L, Nat.le.intro hi, ?_, horizon_le i maxSteps, hLpos, ?_, ?_, hnext⟩
  · -- otherwise the counter would have started again before `n`
    by_contra hle
    have hle : L ≤ count n := by omega
    rw [hsince L hle] at hnext
    exact hLpos.ne' hnext
  · intro k hk
    exact h.of_lt_horizon hzero hk
  · intro k hk
    constructor
    · intro ht
      by_contra hne
      exact not_terminal_of_lt_horizon (lt_of_le_of_ne hk hne) ht
    · intro heq
      rwa [← heq, ← Nat.add_assoc, Nat.add_sub_cancel] at hlast

end Counts

/-! ### Recurrences -/

section

variable {𝕂 : Type*} [Field 𝕂] [DecidableEq 𝕂] {A R V d r x : ℕ → 𝕂} {P : ℕ}

/-- A backward recurrence that is cut at terminal steps is a discounted sum. The induction is on the
number of steps left. -/
theorem discounted_sum {c : 𝕂} (hd : ∀ t < P, d t = 0 ∨ d t = 1)
    (hA : ∀ t < P, A t = x t + c * (1 - d t) * A (t + 1)) (hP : A P = 0) :
    ∀ n t, t + n = P → A t = ∑ l ∈ Finset.range (horizon (d · = 1) t n), c ^ l * x (t + l) := by
  intro n
  induction n with
  | zero =>
    rintro t rfl
    rw [horizon, Finset.range_zero, Finset.sum_empty]
    exact hP
  | succ n ih =>
    intro t ht
    have hlt : t < P := by omega
    rw [hA t hlt]
    rcases hd t hlt with h | h
    · have hne : ¬ d t = 1 := by rw [h]; exact zero_ne_one
      rw [horizon_of_not_terminal hne, Finset.sum_range_succ', ih (t + 1) (by omega),
        Finset.mul_sum, h]
      have hterm : ∀ l ∈ Finset.range (horizon (d · = 1) (t + 1) n),
          c * (1 - 0) * (c ^ l * x (t + 1 + l)) = c ^ (l + 1) * x (t + (l + 1)) := by
        intro l _
        rw [show t + (l + 1) = t + 1 + l by omega]
        ring
      rw [Finset.sum_congr rfl hterm, pow_zero, one_mul, add_zero, add_comm]
    · rw [horizon_of_terminal h, h, Finset.sum_range_one, add_zero]
      ring

/-- What an `n`-step return bootstraps from: nothing after a terminal step. -/
def bootstrap (d V : ℕ → 𝕂) (t n : ℕ) : 𝕂 := if d (t + n - 1) = 1 then 0 else V (t + n)

/-- The `n`-step return from `t`. -/
def nStepReturn (γ : 𝕂) (r d V : ℕ → 𝕂) (t n : ℕ) : 𝕂 :=
  ∑ k ∈ Finset.range n, γ ^ k * r (t + k) + γ ^ n * bootstrap d V t n

lemma nStepReturn_one (γ : 𝕂) (t : ℕ) :
    nStepReturn γ r d V t 1 = r t + γ * if d t = 1 then 0 else V (t + 1) := by
  simp [nStepReturn, bootstrap]

lemma nStepReturn_succ (γ : 𝕂) (t : ℕ) {n : ℕ} (hn : 0 < n) :
    nStepReturn γ r d V t (n + 1) = r t + γ * nStepReturn γ r d V (t + 1) n := by
  have hboot : bootstrap d V t (n + 1) = bootstrap d V (t + 1) n := by
    rw [bootstrap, bootstrap, show t + (n + 1) - 1 = t + 1 + n - 1 by omega,
      show t + (n + 1) = t + 1 + n by omega]
  have hsum : ∑ k ∈ Finset.range n, γ ^ (k + 1) * r (t + (k + 1)) =
      γ * ∑ k ∈ Finset.range n, γ ^ k * r (t + 1 + k) := by
    rw [Finset.mul_sum]
    refine Finset.sum_congr rfl ?_
    intro k _
    rw [show t + (k + 1) = t + 1 + k by omega]
    ring
  rw [nStepReturn, nStepReturn, hboot, Finset.sum_range_succ', hsum, pow_zero, one_mul,
    add_zero, pow_succ']
  generalize ∑ k ∈ Finset.range n, γ ^ k * r (t + 1 + k) = S
  ring

/-- The mixture of the `n`-step returns up to `H`. -/
def lambdaReturn (γ lam : 𝕂) (r d V : ℕ → 𝕂) (t H : ℕ) : 𝕂 :=
  (1 - lam) * ∑ n ∈ Finset.Ico 1 H, lam ^ (n - 1) * nStepReturn γ r d V t n +
    lam ^ (H - 1) * nStepReturn γ r d V t H

omit [DecidableEq 𝕂] in
/-- The weights of the mixture sum to one. -/
lemma lambda_weights (lam : 𝕂) (n : ℕ) :
    (1 - lam) * ∑ k ∈ Finset.range n, lam ^ k + lam ^ n = 1 := by
  linear_combination -(mul_geom_sum lam n)

/-- One more step in front shifts every return but the first. -/
lemma lambdaReturn_succ (γ lam : 𝕂) (t : ℕ) {H : ℕ} (hH : 0 < H) :
    lambdaReturn γ lam r d V t (H + 1) =
      (1 - lam) * nStepReturn γ r d V t 1 +
        lam * (r t + γ * lambdaReturn γ lam r d V (t + 1) H) := by
  obtain ⟨m, rfl⟩ := Nat.exists_eq_succ_of_ne_zero hH.ne'
  have hsum : ∀ t m, ∑ n ∈ Finset.Ico 1 (m + 1), lam ^ (n - 1) * nStepReturn γ r d V t n =
      ∑ k ∈ Finset.range m, lam ^ k * nStepReturn γ r d V t (k + 1) := by
    intro t m
    rw [Finset.sum_Ico_eq_sum_range, Nat.add_sub_cancel]
    refine Finset.sum_congr rfl ?_
    intro k _
    rw [Nat.add_sub_cancel_left, Nat.add_comm 1 k]
  have hterm : ∀ k ∈ Finset.range m, lam ^ (k + 1) * nStepReturn γ r d V t (k + 1 + 1) =
      lam * r t * lam ^ k + lam * γ * (lam ^ k * nStepReturn γ r d V (t + 1) (k + 1)) := by
    intro k _
    rw [nStepReturn_succ γ t (Nat.succ_pos k)]
    ring
  simp only [lambdaReturn, Nat.succ_eq_add_one, hsum, Nat.add_sub_cancel]
  rw [Finset.sum_range_succ', Finset.sum_congr rfl hterm, Finset.sum_add_distrib,
    ← Finset.mul_sum, ← Finset.mul_sum, nStepReturn_succ γ t (Nat.succ_pos m), pow_zero, one_mul]
  linear_combination (lam * r t) * lambda_weights lam m

/-- The backward recurrence that mixes the value of the next step with its return gives the mixture
of the `n`-step returns. The induction is on the number of steps left. -/
theorem lambda_return {γ lam : 𝕂} (hd : ∀ t < P, d t = 0 ∨ d t = 1)
    (hR : ∀ t < P, R t = r t + γ * (1 - d t) * ((1 - lam) * V (t + 1) + lam * R (t + 1)))
    (hP : R P = V P) :
    ∀ n t, t + (n + 1) = P →
      R t = lambdaReturn γ lam r d V t (horizon (d · = 1) t (n + 1)) := by
  intro n
  induction n with
  | zero =>
    intro t ht
    have hH : horizon (d · = 1) t (0 + 1) = 1 := by
      rw [horizon]
      split_ifs <;> rfl
    have hlt : t < P := by omega
    rw [hH, hR t hlt, show t + 1 = P by omega, hP]
    simp only [lambdaReturn, Finset.Ico_self, Finset.sum_empty, nStepReturn_one]
    rw [show t + 1 = P by omega]
    rcases hd t hlt with h | h
    · rw [if_neg (by rw [h]; exact zero_ne_one), h]
      ring
    · rw [if_pos h, h]
      ring
  | succ n ih =>
    intro t ht
    have hlt : t < P := by omega
    rw [hR t hlt]
    rcases hd t hlt with h | h
    · have hne : ¬ d t = 1 := by rw [h]; exact zero_ne_one
      rw [horizon_of_not_terminal hne, lambdaReturn_succ γ lam t (horizon_pos (t + 1) n),
        ← ih (t + 1) (by omega), nStepReturn_one, if_neg hne, h]
      ring
    · rw [horizon_of_terminal h]
      simp only [lambdaReturn, Finset.Ico_self, Finset.sum_empty, nStepReturn_one]
      rw [if_pos h, h]
      ring

end

end DistributedRL
