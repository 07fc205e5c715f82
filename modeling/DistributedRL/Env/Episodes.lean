import DistributedRL.Data.Episode
import DistributedRL.Env.Vectorized

/-!
# Runs of the vectorized environment

What every reset establishes and every step that is not done keeps, holds of each environment after
any number of calls of `VectorizedEnv.step`, since those that are done are reset. An environment that
counts its steps and is done when it has made `max_steps` of them goes through one episode after the
other, none of them longer than that.
-/

namespace DistributedRL

namespace Env

variable {σ Act Obs 𝕂 : Type*} {numEnvs : ℕ} [Field 𝕂]

/-- The environments after `VectorizedEnv.reset` and `n` calls of `VectorizedEnv.step`. -/
def vecRun (env : Env σ Act Obs 𝕂) (envs : Fin numEnvs → σ) (actions : ℕ → Fin numEnvs → Act) :
    ℕ → Fin numEnvs → σ
  | 0 => (env.vecReset envs).1
  | n + 1 => (env.vecStep (vecRun env envs actions n) (actions n)).envs

/-- Call `n` of `VectorizedEnv.step` returns `done` for the environment `e`. -/
def VecDone (env : Env σ Act Obs 𝕂) (envs : Fin numEnvs → σ) (actions : ℕ → Fin numEnvs → Act)
    (e : Fin numEnvs) (n : ℕ) : Prop :=
  (env.vecStep (env.vecRun envs actions n) (actions n)).dones e = 1

/-- An environment that counts its steps, is done after `maxSteps` of them at the latest, and keeps
`Inv` until it is done. -/
structure Counted (env : Env σ Act Obs 𝕂) (stepCount : σ → ℕ) (maxSteps : ℕ) (Inv : σ → Prop) :
    Prop where
  reset_count : ∀ s, stepCount (env.reset s).1 = 0
  step_count : ∀ s a, stepCount (env.step s a).1 = stepCount s + 1
  stops : ∀ s a, maxSteps ≤ stepCount s + 1 → (env.step s a).2.2.2 = true
  reset_inv : ∀ s, Inv (env.reset s).1
  step_inv : ∀ s a, Inv s → (env.step s a).2.2.2 = false → Inv (env.step s a).1

/-- After any number of calls of `step`, each environment keeps `Inv` and is in the middle of an
episode of at most `maxSteps` steps. -/
structure Along (env : Env σ Act Obs 𝕂) (stepCount : σ → ℕ) (maxSteps : ℕ) (Inv : σ → Prop)
    (envs : Fin numEnvs → σ) (actions : ℕ → Fin numEnvs → Act) : Prop where
  inv : ∀ n e, Inv (env.vecRun envs actions n e)
  count_lt : ∀ n e, stepCount (env.vecRun envs actions n e) < maxSteps
  episode : ∀ n e, ∃ i L, i ≤ n ∧ n < i + L ∧ L ≤ maxSteps ∧
    IsEpisode (env.VecDone envs actions e) (fun k => stepCount (env.vecRun envs actions k e)) i L

variable {env : Env σ Act Obs 𝕂} {stepCount : σ → ℕ} {maxSteps : ℕ} {Inv : σ → Prop}
  {envs : Fin numEnvs → σ} {actions : ℕ → Fin numEnvs → Act}

lemma vecDone_iff {e : Fin numEnvs} {n : ℕ} :
    env.VecDone envs actions e n ↔
      (env.step (env.vecRun envs actions n e) (actions n e)).2.2.2 = true := by
  have hout := env.autoStep_outcome (env.vecRun envs actions n e) (actions n e)
  simp [VecDone, vecStep, hout]

lemma vecRun_succ_of_done {e : Fin numEnvs} {n : ℕ} (h : env.VecDone envs actions e n) :
    env.vecRun envs actions (n + 1) e =
      (env.reset (env.step (env.vecRun envs actions n e) (actions n e)).1).1 := by
  have hstate := env.autoStep_state (env.vecRun envs actions n e) (actions n e)
  rw [if_pos (vecDone_iff.mp h)] at hstate
  exact congrArg Prod.fst hstate

lemma vecRun_succ_of_not_done {e : Fin numEnvs} {n : ℕ} (h : ¬ env.VecDone envs actions e n) :
    env.vecRun envs actions (n + 1) e =
      (env.step (env.vecRun envs actions n e) (actions n e)).1 := by
  have hstate := env.autoStep_state (env.vecRun envs actions n e) (actions n e)
  rw [if_neg (mt vecDone_iff.mpr h)] at hstate
  exact (Prod.mk.inj hstate).1

namespace Counted

/-- By induction on the number of calls. -/
lemma inv_vecRun (h : env.Counted stepCount maxSteps Inv) (n : ℕ) (e : Fin numEnvs) :
    Inv (env.vecRun envs actions n e) := by
  induction n with
  | zero => exact h.reset_inv (envs e)
  | succ n ih =>
    by_cases hdone : env.VecDone envs actions e n
    · rw [vecRun_succ_of_done hdone]
      exact h.reset_inv _
    · rw [vecRun_succ_of_not_done hdone]
      exact h.step_inv _ _ ih (Bool.eq_false_of_not_eq_true (mt vecDone_iff.mpr hdone))

lemma counts (h : env.Counted stepCount maxSteps Inv) (e : Fin numEnvs) :
    Counts (env.VecDone envs actions e) (fun n => stepCount (env.vecRun envs actions n e))
      maxSteps where
  zero := h.reset_count (envs e)
  reset n hdone := by
    rw [vecRun_succ_of_done hdone]
    exact h.reset_count _
  next n hdone := by
    rw [vecRun_succ_of_not_done hdone]
    exact h.step_count _ _
  stops n hle := vecDone_iff.mpr (h.stops _ _ hle)

theorem along [DecidableEq 𝕂] (h : env.Counted stepCount maxSteps Inv) (hpos : 0 < maxSteps)
    (envs : Fin numEnvs → σ) (actions : ℕ → Fin numEnvs → Act) :
    env.Along stepCount maxSteps Inv envs actions where
  inv := h.inv_vecRun
  count_lt n e := (h.counts e).lt hpos n
  episode n e := by
    have : DecidablePred (env.VecDone envs actions e) := fun _ => inferInstanceAs (Decidable (_ = _))
    exact (h.counts e).exists_episode hpos n

end Counted

end Env

end DistributedRL
