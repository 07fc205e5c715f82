import Mathlib.Algebra.Field.Rat
import Mathlib.Logic.Function.Basic
import Mathlib.Tactic.Set

/-!
# The rollout buffer

`worker/rollout_buffer.py`: one row for each time step, one column for each environment. An array of
shape `(num_steps, num_envs, ...)` is a function of the row and the column, of which the code reads
and writes the rows below `num_steps`.
-/

namespace DistributedRL

/-- `RolloutBuffer`, with observations in `Obs` and stored actions in `Act`. -/
structure RolloutBuffer (Obs Act 𝕂 : Type*) (numSteps numEnvs : ℕ) where
  states : ℕ → Fin numEnvs → Obs
  actions : ℕ → Fin numEnvs → Act
  rewards : ℕ → Fin numEnvs → 𝕂
  values : ℕ → Fin numEnvs → 𝕂
  logProbs : ℕ → Fin numEnvs → 𝕂
  dones : ℕ → Fin numEnvs → 𝕂
  advantages : ℕ → Fin numEnvs → 𝕂
  returns : ℕ → Fin numEnvs → 𝕂
  ptr : ℕ
  ptr_le : ptr ≤ numSteps

namespace RolloutBuffer

variable {Obs Act 𝕂 : Type*} {numSteps numEnvs : ℕ}

/-- `RolloutBuffer.reset` -/
def empty (Obs Act 𝕂 : Type*) [Zero Obs] [Zero Act] [Zero 𝕂] (numSteps numEnvs : ℕ) :
    RolloutBuffer Obs Act 𝕂 numSteps numEnvs where
  states _ _ := 0
  actions _ _ := 0
  rewards _ _ := 0
  values _ _ := 0
  logProbs _ _ := 0
  dones _ _ := 0
  advantages _ _ := 0
  returns _ _ := 0
  ptr := 0
  ptr_le := Nat.zero_le _

/-- `RolloutBuffer.add`, which raises once all rows are filled. -/
def add (b : RolloutBuffer Obs Act 𝕂 numSteps numEnvs) (states : Fin numEnvs → Obs)
    (actions : Fin numEnvs → Act) (rewards values logProbs dones : Fin numEnvs → 𝕂) :
    Option (RolloutBuffer Obs Act 𝕂 numSteps numEnvs) :=
  if h : b.ptr < numSteps then
    some { b with
      states := Function.update b.states b.ptr states
      actions := Function.update b.actions b.ptr actions
      rewards := Function.update b.rewards b.ptr rewards
      values := Function.update b.values b.ptr values
      logProbs := Function.update b.logProbs b.ptr logProbs
      dones := Function.update b.dones b.ptr dones
      ptr := b.ptr + 1
      ptr_le := h }
  else none

variable [Field 𝕂] (b : RolloutBuffer Obs Act 𝕂 numSteps numEnvs) (lastValues : Fin numEnvs → 𝕂)
  (gamma lam : 𝕂)

/-- `next_values` in `compute_gae` -/
def nextValues (t : ℕ) : Fin numEnvs → 𝕂 :=
  if t = b.ptr - 1 then lastValues else b.values (t + 1)

/-- `delta` in `compute_gae` -/
def delta (t : ℕ) (e : Fin numEnvs) : 𝕂 :=
  b.rewards t e + gamma * b.nextValues lastValues t e * (1 - b.dones t e) - b.values t e

/-- The assignment to `adv` in row `t`. -/
def gaeStep (t : ℕ) (adv : Fin numEnvs → 𝕂) (e : Fin numEnvs) : 𝕂 :=
  b.delta lastValues gamma t e + gamma * lam * (1 - b.dones t e) * adv e

/-- The loop of `compute_gae` over the first rows, the last one first. -/
def gaeLoop : ℕ → (Fin numEnvs → 𝕂) → (ℕ → Fin numEnvs → 𝕂) → ℕ → Fin numEnvs → 𝕂
  | 0, _, advantages => advantages
  | t + 1, adv, advantages =>
    gaeLoop t (b.gaeStep lastValues gamma lam t adv)
      (Function.update advantages t (b.gaeStep lastValues gamma lam t adv))

/-- `RolloutBuffer.compute_gae` -/
def computeGae : RolloutBuffer Obs Act 𝕂 numSteps numEnvs :=
  let advantages := b.gaeLoop lastValues gamma lam b.ptr (fun _ => 0) b.advantages
  { b with
    advantages := advantages
    returns := fun t e => if t < b.ptr then advantages t e + b.values t e else b.returns t e }

/-! ### The recurrence -/

/-- The loop over `n` rows, started with `adv`, is the recurrence that ends in `adv`. -/
lemma gaeLoop_spec (n : ℕ) (adv : Fin numEnvs → 𝕂) (advantages : ℕ → Fin numEnvs → 𝕂)
    (e : Fin numEnvs) :
    (∀ t, n ≤ t → b.gaeLoop lastValues gamma lam n adv advantages t e = advantages t e) ∧
      ∀ t < n, b.gaeLoop lastValues gamma lam n adv advantages t e =
        b.delta lastValues gamma t e + gamma * lam * (1 - b.dones t e) *
          if t + 1 = n then adv e
          else b.gaeLoop lastValues gamma lam n adv advantages (t + 1) e := by
  induction n generalizing adv advantages with
  | zero => exact ⟨fun _ _ => rfl, fun t ht => absurd ht (Nat.not_lt_zero t)⟩
  | succ n ih =>
    obtain ⟨habove, hrow⟩ := ih (b.gaeStep lastValues gamma lam n adv)
      (Function.update advantages n (b.gaeStep lastValues gamma lam n adv))
    have hn := habove n le_rfl
    rw [Function.update_self] at hn
    rw [gaeLoop]
    constructor
    · intro t ht
      rw [habove t (Nat.le_of_succ_le ht), Function.update_of_ne (by omega)]
    · intro t ht
      rcases Nat.lt_succ_iff_lt_or_eq.mp ht with ht | rfl
      · rw [hrow t ht]
        by_cases hlast : t + 1 = n
        · rw [if_pos hlast, if_neg (by omega), hlast, hn]
        · rw [if_neg hlast, if_neg (by omega)]
      · rw [hn, if_pos rfl, gaeStep]

variable {b lastValues gamma lam}

/-- Rows that have not been filled are left as they were. -/
lemma computeGae_of_le {t : ℕ} (ht : b.ptr ≤ t) (e : Fin numEnvs) :
    (b.computeGae lastValues gamma lam).advantages t e = b.advantages t e ∧
      (b.computeGae lastValues gamma lam).returns t e = b.returns t e :=
  ⟨(b.gaeLoop_spec lastValues gamma lam b.ptr _ _ e).1 t ht, if_neg (Nat.not_lt.mpr ht)⟩

lemma advantages_computeGae {t : ℕ} (ht : t < b.ptr) (e : Fin numEnvs) :
    (b.computeGae lastValues gamma lam).advantages t e =
      b.delta lastValues gamma t e + gamma * lam * (1 - b.dones t e) *
        if t + 1 = b.ptr then 0 else (b.computeGae lastValues gamma lam).advantages (t + 1) e :=
  (b.gaeLoop_spec lastValues gamma lam b.ptr _ _ e).2 t ht

lemma returns_computeGae {t : ℕ} (ht : t < b.ptr) (e : Fin numEnvs) :
    (b.computeGae lastValues gamma lam).returns t e =
      (b.computeGae lastValues gamma lam).advantages t e + b.values t e :=
  if_pos ht

end RolloutBuffer

namespace Scenario

/-- Two steps of one environment, the second of which ends its episode. -/
def twoRows : RolloutBuffer Unit Unit ℚ 2 1 where
  states _ _ := ()
  actions _ _ := ()
  rewards _ _ := 1
  values _ _ := 10
  logProbs _ _ := 0
  dones t _ := if t = 1 then 1 else 0
  advantages _ _ := 0
  returns _ _ := 0
  ptr := 2
  ptr_le := le_rfl

/-- Two steps of two environments. -/
def square : RolloutBuffer ℕ ℕ ℚ 2 2 where
  states t e := 2 * t + e
  actions t e := 2 * t + e
  rewards _ _ := 0
  values _ _ := 0
  logProbs _ _ := 0
  dones _ _ := 0
  advantages _ e := 2 * (e : ℕ)
  returns _ e := 2 * (e : ℕ)
  ptr := 2
  ptr_le := le_rfl

end Scenario

end DistributedRL
