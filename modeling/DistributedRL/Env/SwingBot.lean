import DistributedRL.Data.Numeric
import DistributedRL.Env.Episodes
import Mathlib.Data.Fin.VecNotation
import Mathlib.Tactic.NormNum.OfScientific

/-!
# SwingBot

`env/swingbot.py`: a rod that is pinned at its base, with the angle measured from upright.
-/

namespace DistributedRL

/-- The attributes of a `SwingBot`. -/
structure SwingBot (ρ 𝕂 : Type*) where
  rng : ρ
  theta : 𝕂
  thetaDot : 𝕂
  actionPrev : 𝕂
  stepCount : ℕ

namespace SwingBot

section

variable {𝕂 : Type*} [Field 𝕂]

/-! ### Physics parameters -/

def maxTorque : 𝕂 := 2.0
def gravity : 𝕂 := 9.8
def mass : 𝕂 := 1.0
def length : 𝕂 := 1.0
def dt : 𝕂 := 0.05
def maxSteps : ℕ := 200

end

variable {ρ 𝕂 : Type*} [Field 𝕂] [LinearOrder 𝕂] [FloorRing 𝕂] (T : Circle 𝕂) (G : Generator ρ 𝕂)

/-- `SwingBot._obs` -/
def obs (s : SwingBot ρ 𝕂) : Fin 4 → 𝕂 :=
  ![T.cos s.theta, T.sin s.theta, s.thetaDot, s.actionPrev]

/-- `SwingBot.reset` -/
def reset (s : SwingBot ρ 𝕂) : SwingBot ρ 𝕂 × (Fin 4 → 𝕂) :=
  let (theta, rng) := G.uniform s.rng (-T.pi) T.pi
  let (thetaDot, rng) := G.uniform rng (-1.0) 1.0
  let s' : SwingBot ρ 𝕂 := ⟨rng, theta, thetaDot, 0, 0⟩
  (s', s'.obs T)

/-- `SwingBot.step` -/
def step (s : SwingBot ρ 𝕂) (action : Fin 1 → 𝕂) : SwingBot ρ 𝕂 × (Fin 4 → 𝕂) × 𝕂 × Bool :=
  let a := clip (action 0) (-1.0) 1.0
  let torque := a * maxTorque
  let thetaDdot := (torque - gravity * mass * length * T.sin s.theta) / (mass * length ^ 2)
  let thetaDot := s.thetaDot + thetaDdot * dt
  let theta := T.wrap (s.theta + thetaDot * dt)
  let reward := T.cos theta - 0.1 * thetaDot ^ 2 - 0.001 * a ^ 2
  let s' : SwingBot ρ 𝕂 := ⟨s.rng, theta, thetaDot, a, s.stepCount + 1⟩
  (s', s'.obs T, reward, decide (maxSteps ≤ s'.stepCount))

/-- `SwingBot` as an environment. -/
def env : Env (SwingBot ρ 𝕂) (Fin 1 → 𝕂) (Fin 4 → 𝕂) 𝕂 := ⟨reset T G, step T⟩

/-- The angle is in `[-π, π)`. -/
def InRange (s : SwingBot ρ 𝕂) : Prop := -T.pi ≤ s.theta ∧ s.theta < T.pi

variable [IsStrictOrderedRing 𝕂]

lemma counted : (env T G).Counted stepCount maxSteps (InRange T) where
  reset_count _ := rfl
  step_count _ _ := rfl
  stops _ _ h := decide_eq_true h
  reset_inv s := G.uniform_mem s.rng (-T.pi) T.pi (neg_lt_self T.pi_pos)
  step_inv _ _ _ _ := T.wrap_mem _

end SwingBot

end DistributedRL
