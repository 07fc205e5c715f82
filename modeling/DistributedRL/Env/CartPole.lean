import DistributedRL.Data.Numeric
import DistributedRL.Env.Episodes
import Mathlib.Data.Fin.VecNotation
import Mathlib.Tactic.NormNum.OfScientific

/-!
# CartPole

`env/cartpole.py`: a pole on a cart that is pushed left or right.
-/

namespace DistributedRL

/-- The attributes of a `CartPole`; the state is the position and the velocity of the cart, and the
angle and the angular velocity of the pole. -/
structure CartPole (ρ 𝕂 : Type*) where
  rng : ρ
  state : Fin 4 → 𝕂
  stepCount : ℕ

namespace CartPole

section

variable {𝕂 : Type*} [Field 𝕂]

def gravity : 𝕂 := 9.8
def massCart : 𝕂 := 1.0
def massPole : 𝕂 := 0.1
def length : 𝕂 := 0.5
def forceMag : 𝕂 := 10.0
def dt : 𝕂 := 0.02
def maxSteps : ℕ := 500
def xThreshold : 𝕂 := 2.4

end

variable {ρ 𝕂 : Type*} [Field 𝕂] [LinearOrder 𝕂] (T : Circle 𝕂) (G : Generator ρ 𝕂)

def thetaThreshold : 𝕂 := 12 * T.pi / 180

/-- `CartPole.reset` -/
def reset (s : CartPole ρ 𝕂) : CartPole ρ 𝕂 × (Fin 4 → 𝕂) :=
  let (state, rng) := G.uniforms (-0.05) 0.05 4 s.rng
  (⟨rng, state, 0⟩, state)

/-- `theta_acc` and `x_acc` -/
def accelerations (state : Fin 4 → 𝕂) (force : 𝕂) : 𝕂 × 𝕂 :=
  let theta := state 2
  let thetaDot := state 3
  let totalMass := massCart + massPole
  let poleMl := massPole * length
  let cosT := T.cos theta
  let sinT := T.sin theta
  let temp := (force + poleMl * thetaDot ^ 2 * sinT) / totalMass
  let thetaAcc := (gravity * sinT - cosT * temp) /
    (length * (4.0 / 3.0 - massPole * cosT ^ 2 / totalMass))
  let xAcc := temp - poleMl * thetaAcc * cosT / totalMass
  (thetaAcc, xAcc)

/-- `CartPole.step` -/
def step (s : CartPole ρ 𝕂) (action : Fin 2) : CartPole ρ 𝕂 × (Fin 4 → 𝕂) × 𝕂 × Bool :=
  let force := if action = 1 then forceMag else -forceMag
  let (thetaAcc, xAcc) := accelerations T s.state force
  let x := s.state 0 + dt * s.state 1
  let xDot := s.state 1 + dt * xAcc
  let theta := s.state 2 + dt * s.state 3
  let thetaDot := s.state 3 + dt * thetaAcc
  let s' : CartPole ρ 𝕂 := ⟨s.rng, ![x, xDot, theta, thetaDot], s.stepCount + 1⟩
  let failed := xThreshold < |x| ∨ thetaThreshold T < |theta|
  (s', s'.state, 1.0, decide (failed ∨ maxSteps ≤ s'.stepCount))

/-- `CartPole` as an environment. -/
def env : Env (CartPole ρ 𝕂) (Fin 2) (Fin 4 → 𝕂) 𝕂 := ⟨reset G, step T⟩

/-- The cart is on the track, and the pole is within 12 degrees. -/
structure InRange (s : CartPole ρ 𝕂) : Prop where
  abs_x_le : |s.state 0| ≤ 2.4
  abs_theta_le : |s.state 2| ≤ 12 * T.pi / 180

variable [IsStrictOrderedRing 𝕂]

lemma inRange_reset (s : CartPole ρ 𝕂) : InRange T (reset G s).1 := by
  have hlt : (-0.05 : 𝕂) < 0.05 := by norm_num
  have hmem : ∀ i, |(reset G s).1.state i| ≤ 0.05 := by
    intro i
    obtain ⟨hl, hr⟩ := G.uniforms_mem hlt 4 s.rng i
    exact abs_le.mpr ⟨hl, hr.le⟩
  constructor
  · exact (hmem 0).trans (by norm_num)
  · have hpi := T.three_lt_pi
    exact (hmem 2).trans (by linarith)

omit [IsStrictOrderedRing 𝕂] in
lemma inRange_step {s : CartPole ρ 𝕂} {action : Fin 2} (h : (step T s action).2.2.2 = false) :
    InRange T (step T s action).1 := by
  obtain ⟨hfailed, -⟩ := not_or.mp (of_decide_eq_false h)
  obtain ⟨hx, htheta⟩ := not_or.mp hfailed
  exact ⟨le_of_not_gt hx, le_of_not_gt htheta⟩

lemma counted : (env T G).Counted stepCount maxSteps (InRange T) where
  reset_count _ := rfl
  step_count _ _ := rfl
  stops _ _ h := decide_eq_true (Or.inr h)
  reset_inv := inRange_reset T G
  step_inv _ _ _ hdone := inRange_step T hdone

end CartPole

end DistributedRL
