import DistributedRL.Env.Acrobot
import DistributedRL.Env.CartPole
import DistributedRL.Env.MountainCar
import DistributedRL.Env.SwingBot
import Mathlib.Analysis.SpecialFunctions.Trigonometric.Bounds
import Mathlib.Analysis.Real.Pi.Bounds

/-!
# The environments stay in range

Under `VectorizedEnv`, with any actions, each environment stays within its bounds and goes through
episodes of at most `max_steps` steps.
-/

namespace DistributedRL

variable {ρ 𝕂 : Type*} [Field 𝕂] [LinearOrder 𝕂] [IsStrictOrderedRing 𝕂] [FloorRing 𝕂]
  (T : Circle 𝕂)

omit [IsStrictOrderedRing 𝕂] in
lemma SwingBot.sameDirection_step (s : SwingBot ρ 𝕂) (action : Fin 1 → 𝕂) :
    T.SameDirection (s.theta + (step T s action).1.thetaDot * dt) (step T s action).1.theta :=
  T.sameDirection_wrap _

omit [IsStrictOrderedRing 𝕂] in
lemma Acrobot.sameDirection_step (s : Acrobot ρ 𝕂) (action : Fin 3) :
    T.SameDirection (rk4 T s.state (availTorque action) 0) ((step T s action).1.state 0) ∧
      T.SameDirection (rk4 T s.state (availTorque action) 1) ((step T s action).1.state 1) :=
  ⟨T.sameDirection_wrap _, T.sameDirection_wrap _⟩

/-- After every call of `VectorizedEnv.step`, each environment is in range and in an episode of at
most `max_steps` steps of which the last one is done, and wrapped angles are the integrated ones up
to multiples of `2 * π`. -/
theorem environments_in_range (G : Generator ρ 𝕂) (numEnvs : ℕ) :
    (∀ (envs : Fin numEnvs → SwingBot ρ 𝕂) actions,
      (SwingBot.env T G).Along SwingBot.stepCount SwingBot.maxSteps (SwingBot.InRange T)
        envs actions) ∧
    (∀ (envs : Fin numEnvs → MountainCarContinuous ρ 𝕂) actions,
      (MountainCarContinuous.env T G).Along MountainCarContinuous.stepCount
        MountainCarContinuous.maxSteps MountainCarContinuous.InRange envs actions) ∧
    (∀ (envs : Fin numEnvs → Acrobot ρ 𝕂) actions,
      (Acrobot.env T G).Along Acrobot.stepCount Acrobot.maxSteps (Acrobot.InRange T)
        envs actions) ∧
    (∀ (envs : Fin numEnvs → CartPole ρ 𝕂) actions,
      (CartPole.env T G).Along CartPole.stepCount CartPole.maxSteps (CartPole.InRange T)
        envs actions) ∧
    (∀ (s : SwingBot ρ 𝕂) action,
      T.SameDirection (s.theta + (SwingBot.step T s action).1.thetaDot * SwingBot.dt)
        (SwingBot.step T s action).1.theta) ∧
    ∀ (s : Acrobot ρ 𝕂) action,
      T.SameDirection (Acrobot.rk4 T s.state (Acrobot.availTorque action) 0)
        ((Acrobot.step T s action).1.state 0) ∧
      T.SameDirection (Acrobot.rk4 T s.state (Acrobot.availTorque action) 1)
        ((Acrobot.step T s action).1.state 1) := by
  refine ⟨?_, ?_, ?_, ?_, SwingBot.sameDirection_step T, Acrobot.sameDirection_step T⟩
  · exact (SwingBot.counted T G).along (by decide)
  · exact (MountainCarContinuous.counted T G).along (by decide)
  · exact (Acrobot.counted T G).along (by decide)
  · exact (CartPole.counted T G).along (by decide)

/-- The real circle functions. -/
noncomputable def realCircle : Circle ℝ where
  sin := Real.sin
  cos := Real.cos
  pi := Real.pi
  abs_sin_le := Real.abs_sin_le_one
  abs_cos_le := Real.abs_cos_le_one
  three_lt_pi := Real.pi_gt_three

namespace Scenario

/-- Two rods before their first reset, with streams of zeros. -/
noncomputable def twoRods : Fin 2 → SwingBot (ℕ → Set.Ico (0 : ℝ) 1) ℝ :=
  fun _ => ⟨fun _ => ⟨0, by norm_num⟩, 0, 0, 0, 0⟩

end Scenario

open Scenario

/-- Two rods that are pushed beyond the range of the actions. -/
theorem environments_in_range_twoRods :
    (SwingBot.env realCircle .ofStream).Along SwingBot.stepCount 200 (SwingBot.InRange realCircle)
      twoRods fun _ _ _ => 5 :=
  (environments_in_range realCircle .ofStream 2).1 twoRods fun _ _ _ => 5

end DistributedRL
