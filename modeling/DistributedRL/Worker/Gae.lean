import DistributedRL.Data.Episode
import DistributedRL.Data.Numeric
import DistributedRL.Worker.RolloutBuffer

/-!
# Advantages and returns

In exact arithmetic the backward recurrence of `compute_gae` is a discounted sum of temporal
differences up to the end of the episode, for each environment by itself, and the targets of the
critic are the mixtures of the `n`-step returns.
-/

namespace DistributedRL

namespace RolloutBuffer

variable {Obs Act 𝕂 : Type*} [Field 𝕂] [DecidableEq 𝕂] {numSteps numEnvs : ℕ}
  {b c : RolloutBuffer Obs Act 𝕂 numSteps numEnvs} {lastValues : Fin numEnvs → 𝕂} {gamma lam : 𝕂}

/-- The stored dones are zeros and ones. -/
def BinaryDones (b : RolloutBuffer Obs Act 𝕂 numSteps numEnvs) : Prop :=
  ∀ t < b.ptr, ∀ e, b.dones t e = 0 ∨ b.dones t e = 1

/-- The number of steps of `e` from `t` up to and including its first done, or up to the last stored
step. -/
def stepsLeft (b : RolloutBuffer Obs Act 𝕂 numSteps numEnvs) (t : ℕ) (e : Fin numEnvs) : ℕ :=
  horizon (b.dones · e = 1) t (b.ptr - t)

/-- The values of `e` in the rollout and after its last step. -/
def extendedValues (b : RolloutBuffer Obs Act 𝕂 numSteps numEnvs) (lastValues : Fin numEnvs → 𝕂)
    (e : Fin numEnvs) (t : ℕ) : 𝕂 :=
  if t < b.ptr then b.values t e else lastValues e

lemma stepsLeft_le (t : ℕ) (e : Fin numEnvs) : b.stepsLeft t e ≤ b.ptr - t := horizon_le _ _

/-- The last of the steps left is done, or it is the last one stored. -/
lemma done_or_stepsLeft_eq {t : ℕ} (ht : t < b.ptr) (e : Fin numEnvs) :
    b.dones (t + b.stepsLeft t e - 1) e = 1 ∨ b.stepsLeft t e = b.ptr - t := by
  have h := @terminal_or_horizon_eq (b.dones · e = 1) _ t (b.ptr - t - 1)
  rwa [show b.ptr - t - 1 + 1 = b.ptr - t by omega] at h

omit [Field 𝕂] [DecidableEq 𝕂] in
lemma nextValues_eq {t : ℕ} (ht : t < b.ptr) (e : Fin numEnvs) :
    b.nextValues lastValues t e = b.extendedValues lastValues e (t + 1) := by
  rw [nextValues, extendedValues]
  by_cases h : t + 1 < b.ptr
  · rw [if_neg (by omega), if_pos h]
  · rw [if_pos (by omega), if_neg h]

lemma advantages_eq_sum (hd : b.BinaryDones) {t : ℕ} (ht : t < b.ptr) (e : Fin numEnvs) :
    (b.computeGae lastValues gamma lam).advantages t e =
      ∑ l ∈ Finset.range (b.stepsLeft t e),
        (gamma * lam) ^ l * b.delta lastValues gamma (t + l) e := by
  -- after the last stored step the running advantage is zero
  set A : ℕ → 𝕂 := fun t =>
    if t < b.ptr then (b.computeGae lastValues gamma lam).advantages t e else 0 with hA
  have hrow : ∀ t < b.ptr, A t = b.delta lastValues gamma t e +
      gamma * lam * (1 - b.dones t e) * A (t + 1) := by
    intro t ht
    simp only [hA]
    rw [if_pos ht, advantages_computeGae ht]
    by_cases hlast : t + 1 = b.ptr
    · rw [if_pos hlast, if_neg (by omega)]
    · rw [if_neg hlast, if_pos (by omega)]
  have hsum := discounted_sum (fun t ht => hd t ht e) hrow (by simp [hA]) (b.ptr - t) t (by omega)
  rw [← show A t = (b.computeGae lastValues gamma lam).advantages t e from if_pos ht]
  exact hsum

omit [DecidableEq 𝕂] in
/-- Along the rollout, a return is the reward and the discounted mixture of the next value and the
next return. -/
lemma returns_recurrence {t : ℕ} (ht : t < b.ptr) (e : Fin numEnvs) :
    (b.computeGae lastValues gamma lam).returns t e = b.rewards t e + gamma * (1 - b.dones t e) *
      ((1 - lam) * b.extendedValues lastValues e (t + 1) + lam *
        if t + 1 = b.ptr then lastValues e
        else (b.computeGae lastValues gamma lam).returns (t + 1) e) := by
  rw [returns_computeGae ht, advantages_computeGae ht, delta, nextValues_eq ht]
  by_cases hlast : t + 1 = b.ptr
  · rw [if_pos hlast, if_pos hlast, extendedValues, if_neg (by omega)]
    ring
  · rw [if_neg hlast, if_neg hlast, returns_computeGae (by omega), extendedValues,
      if_pos (by omega)]
    ring

lemma returns_eq_lambdaReturn (hd : b.BinaryDones) {t : ℕ} (ht : t < b.ptr) (e : Fin numEnvs) :
    (b.computeGae lastValues gamma lam).returns t e =
      lambdaReturn gamma lam (b.rewards · e) (b.dones · e) (b.extendedValues lastValues e) t
        (b.stepsLeft t e) := by
  -- the return after the last stored step is the value the rollout is bootstrapped from
  set R : ℕ → 𝕂 := fun t =>
    if t < b.ptr then (b.computeGae lastValues gamma lam).returns t e else lastValues e with hR
  have hrow : ∀ t < b.ptr, R t = b.rewards t e + gamma * (1 - b.dones t e) *
      ((1 - lam) * b.extendedValues lastValues e (t + 1) + lam * R (t + 1)) := by
    intro t ht
    simp only [hR]
    rw [if_pos ht, returns_recurrence ht]
    by_cases hlast : t + 1 = b.ptr
    · rw [if_pos hlast, if_neg (by omega)]
    · rw [if_neg hlast, if_pos (by omega)]
  have hsum := lambda_return (V := b.extendedValues lastValues e) (fun t ht => hd t ht e) hrow
    (by simp [hR, extendedValues]) (b.ptr - t - 1) t (by omega)
  rw [show b.ptr - t - 1 + 1 = b.ptr - t by omega] at hsum
  rw [← show R t = (b.computeGae lastValues gamma lam).returns t e from if_pos ht]
  exact hsum

/-! ### What an advantage depends on -/

/-- The two rollouts agree on the steps of `e` from `t` to the end of the episode, and on the value
they are bootstrapped from if the episode goes on after the rollout. -/
structure SameEpisode (b c : RolloutBuffer Obs Act 𝕂 numSteps numEnvs)
    (lastValues lastValues' : Fin numEnvs → 𝕂) (t : ℕ) (e : Fin numEnvs) : Prop where
  ptr : c.ptr = b.ptr
  rewards : ∀ l < b.stepsLeft t e, c.rewards (t + l) e = b.rewards (t + l) e
  values : ∀ l < b.stepsLeft t e, c.values (t + l) e = b.values (t + l) e
  dones : ∀ l < b.stepsLeft t e, c.dones (t + l) e = b.dones (t + l) e
  last : b.dones (t + b.stepsLeft t e - 1) e ≠ 1 → lastValues' e = lastValues e

variable {lastValues' : Fin numEnvs → 𝕂} {t : ℕ} {e : Fin numEnvs}

lemma SameEpisode.stepsLeft (h : SameEpisode b c lastValues lastValues' t e) :
    c.stepsLeft t e = b.stepsLeft t e := by
  rw [RolloutBuffer.stepsLeft, RolloutBuffer.stepsLeft, h.ptr]
  exact horizon_congr fun l hl => by rw [h.dones l hl]

lemma SameEpisode.delta (h : SameEpisode b c lastValues lastValues' t e) (ht : t < b.ptr)
    {l : ℕ} (hl : l < b.stepsLeft t e) :
    c.delta lastValues' gamma (t + l) e = b.delta lastValues gamma (t + l) e := by
  have hle := b.stepsLeft_le t e
  have hnext : b.dones (t + l) e ≠ 1 →
      c.nextValues lastValues' (t + l) e = b.nextValues lastValues (t + l) e := by
    intro hnot
    rw [nextValues, nextValues, h.ptr]
    by_cases hlast : t + l = b.ptr - 1
    · rw [if_pos hlast, if_pos hlast]
      refine h.last ?_
      rwa [show t + b.stepsLeft t e - 1 = t + l by omega]
    · rw [if_neg hlast, if_neg hlast]
      refine h.values (l + 1) ?_
      -- the episode goes on, and so does the rollout
      rcases Nat.lt_or_ge (l + 1) (b.stepsLeft t e) with hlt | hge
      · exact hlt
      · exfalso
        have hH : b.stepsLeft t e = l + 1 := Nat.le_antisymm hge hl
        rcases done_or_stepsLeft_eq ht e with hdone | hall
        · rw [hH] at hdone
          exact hnot hdone
        · omega
  rw [RolloutBuffer.delta, RolloutBuffer.delta, h.rewards l hl, h.values l hl, h.dones l hl]
  by_cases hdone : b.dones (t + l) e = 1
  · rw [hdone, sub_self, mul_zero, mul_zero]
  · rw [hnext hdone]

end RolloutBuffer

/-! ### Closed forms -/

section

variable {Obs Act 𝕂 : Type*} [Field 𝕂] [DecidableEq 𝕂] {numSteps numEnvs : ℕ}

/-- Each advantage is the discounted sum of the temporal differences of its environment up to the
first done or the end of the rollout. It depends on nothing else, and rows that are not filled stay
as they were. -/
theorem gae_closed_form (b : RolloutBuffer Obs Act 𝕂 numSteps numEnvs)
    (lastValues : Fin numEnvs → 𝕂) (gamma lam : 𝕂) (hd : b.BinaryDones) :
    (∀ t < b.ptr, ∀ e, (b.computeGae lastValues gamma lam).advantages t e =
      ∑ l ∈ Finset.range (b.stepsLeft t e),
        (gamma * lam) ^ l * b.delta lastValues gamma (t + l) e) ∧
    (∀ c lastValues' t e, t < b.ptr → c.BinaryDones → b.SameEpisode c lastValues lastValues' t e →
      (c.computeGae lastValues' gamma lam).advantages t e =
        (b.computeGae lastValues gamma lam).advantages t e) ∧
    ∀ t ≥ b.ptr, ∀ e, (b.computeGae lastValues gamma lam).advantages t e = b.advantages t e ∧
      (b.computeGae lastValues gamma lam).returns t e = b.returns t e := by
  refine ⟨fun t ht e => RolloutBuffer.advantages_eq_sum hd ht e, ?_, fun t ht e =>
    RolloutBuffer.computeGae_of_le ht e⟩
  intro c lastValues' t e ht hdc h
  rw [RolloutBuffer.advantages_eq_sum hd ht e,
    RolloutBuffer.advantages_eq_sum hdc (h.ptr ▸ ht) e, h.stepsLeft]
  refine Finset.sum_congr rfl ?_
  intro l hl
  rw [h.delta ht (Finset.mem_range.mp hl)]

open Scenario

private lemma binaryDones_twoRows : twoRows.BinaryDones := by
  intro t _ e
  by_cases h : t = 1
  · exact Or.inr (if_pos h)
  · exact Or.inl (if_neg h)

/-- The second step bootstraps from nothing: its temporal difference is the reward minus the value,
and neither advantage depends on the last value. -/
theorem gae_closed_form_twoRows :
    (twoRows.computeGae (fun _ => 7) (1 / 2) (1 / 2)).advantages 0 0 = -4 + 1 / 4 * -9 := by
  obtain ⟨hsum, hsame, -⟩ := gae_closed_form twoRows (fun _ => 0) (1 / 2) (1 / 2)
    binaryDones_twoRows
  have hepisode : twoRows.SameEpisode twoRows (fun _ => 0) (fun _ => 7) 0 0 := by
    refine ⟨rfl, fun _ _ => rfl, fun _ _ => rfl, fun _ _ => rfl, fun h => absurd ?_ h⟩
    decide +kernel
  rw [hsame twoRows _ 0 0 (by decide) binaryDones_twoRows hepisode, hsum 0 (by decide) 0]
  decide +kernel

/-- Each return is the mixture of the `n`-step returns of its environment up to the first done or
the end of the rollout. With `lam = 1` it is the discounted sum of the rewards, bootstrapped from
the last value if the episode goes on. -/
theorem returns_lambda (b : RolloutBuffer Obs Act 𝕂 numSteps numEnvs)
    (lastValues : Fin numEnvs → 𝕂) (gamma lam : 𝕂) (hd : b.BinaryDones) :
    (∀ t < b.ptr, ∀ e,
      let H := b.stepsLeft t e
      let G n := ∑ k ∈ Finset.range n, gamma ^ k * b.rewards (t + k) e + gamma ^ n *
        if b.dones (t + n - 1) e = 1 then 0 else b.extendedValues lastValues e (t + n)
      (b.computeGae lastValues gamma lam).returns t e =
        (1 - lam) * ∑ n ∈ Finset.Ico 1 H, lam ^ (n - 1) * G n + lam ^ (H - 1) * G H) ∧
    ∀ t < b.ptr, ∀ e,
      let H := b.stepsLeft t e
      (b.computeGae lastValues gamma 1).returns t e =
        ∑ k ∈ Finset.range H, gamma ^ k * b.rewards (t + k) e + gamma ^ H *
          if b.dones (t + H - 1) e = 1 then 0 else lastValues e := by
  refine ⟨fun t ht e => RolloutBuffer.returns_eq_lambdaReturn hd ht e, ?_⟩
  intro t ht e H
  have hboot : bootstrap (b.dones · e) (b.extendedValues lastValues e) t H =
      if b.dones (t + H - 1) e = 1 then 0 else lastValues e := by
    simp only [bootstrap]
    rcases RolloutBuffer.done_or_stepsLeft_eq ht e with hdone | hall
    · rw [if_pos hdone, if_pos hdone]
    · have hlast : ¬ t + H < b.ptr := by
        have : H = b.ptr - t := hall
        omega
      rw [RolloutBuffer.extendedValues, if_neg hlast]
  rw [RolloutBuffer.returns_eq_lambdaReturn hd ht e]
  simp only [lambdaReturn, sub_self, zero_mul, one_pow, one_mul, zero_add, nStepReturn]
  rw [← hboot]

/-- With `lam = 1` the return of the first step is the discounted sum of both rewards. -/
theorem returns_lambda_twoRows :
    (twoRows.computeGae (fun _ => 7) (1 / 2) 1).returns 0 0 = 1 + 1 / 2 := by
  have h := (returns_lambda twoRows (fun _ => 7) (1 / 2) 1 binaryDones_twoRows).2 0
    (by decide) 0
  rw [h]
  decide +kernel

end

end DistributedRL
