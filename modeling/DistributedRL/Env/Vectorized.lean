import Mathlib.Algebra.Field.Basic
import Mathlib.Data.Int.Cast.Defs

/-!
# Environments

`env/base.py` and `env/vectorized.py`: an environment is a state machine with its own state, and
the vectorized one steps `N` of them with a batch of actions, resetting those that are done. Arrays
over the environments are functions of the index; the `info` dicts are left out.
-/

namespace DistributedRL

/-- `BaseEnv.action_type`, by what the environments are stepped with and what the rollout buffer
stores of it. -/
structure ActionType (Act Stored : Type*) where
  stored : Act → Stored

namespace ActionType

/-- The action is a vector, and stored as it is. -/
def continuous (𝕂 : Type*) (actionDim : ℕ) : ActionType (Fin actionDim → 𝕂) (Fin actionDim → 𝕂) :=
  ⟨id⟩

/-- The action is an index, and stored as a column of length one. -/
def discrete (𝕂 : Type*) [IntCast 𝕂] : ActionType ℤ (Fin 1 → 𝕂) := ⟨fun action _ => action⟩

end ActionType

/-- A subclass of `BaseEnv`: `reset` and `step` change the state of the instance, whatever it is. -/
structure Env (σ Act Obs 𝕂 : Type*) where
  reset : σ → σ × Obs
  step : σ → Act → σ × Obs × 𝕂 × Bool

namespace Env

variable {σ Act Obs 𝕂 : Type*} {numEnvs : ℕ} (env : Env σ Act Obs 𝕂)

/-- The body of the loop in `VectorizedEnv.step`: the observation of an episode that is done is
replaced by that of the reset environment. -/
def autoStep (s : σ) (action : Act) : σ × Obs × 𝕂 × Bool :=
  match env.step s action with
  | (s', obs, reward, false) => (s', obs, reward, false)
  | (s', _, reward, true) => ((env.reset s').1, (env.reset s').2, reward, true)

/-- What `VectorizedEnv.step` returns, and the states of the environments after it. -/
structure VecStep (σ Obs 𝕂 : Type*) (numEnvs : ℕ) where
  envs : Fin numEnvs → σ
  observations : Fin numEnvs → Obs
  rewards : Fin numEnvs → 𝕂
  dones : Fin numEnvs → 𝕂

/-- `VectorizedEnv.reset` -/
def vecReset (envs : Fin numEnvs → σ) : (Fin numEnvs → σ) × (Fin numEnvs → Obs) :=
  (fun e => (env.reset (envs e)).1, fun e => (env.reset (envs e)).2)

/-- `VectorizedEnv.step` -/
def vecStep [Zero 𝕂] [One 𝕂] (envs : Fin numEnvs → σ) (actions : Fin numEnvs → Act) :
    VecStep σ Obs 𝕂 numEnvs where
  envs e := (env.autoStep (envs e) (actions e)).1
  observations e := (env.autoStep (envs e) (actions e)).2.1
  rewards e := (env.autoStep (envs e) (actions e)).2.2.1
  dones e := if (env.autoStep (envs e) (actions e)).2.2.2 then 1 else 0

/-- The reward and the flag are those of the step, also where the environment is reset. -/
lemma autoStep_outcome (s : σ) (action : Act) :
    (env.autoStep s action).2.2 = (env.step s action).2.2 := by
  rw [autoStep]
  split
  · next h => rw [h]
  · next h => rw [h]

lemma autoStep_state (s : σ) (action : Act) :
    ((env.autoStep s action).1, (env.autoStep s action).2.1) =
      if (env.step s action).2.2.2 then env.reset (env.step s action).1
      else ((env.step s action).1, (env.step s action).2.1) := by
  rw [autoStep]
  split
  · next h => simp [h]
  · next h => simp [h]

end Env

end DistributedRL
