import DistributedRL.Env.Bounds

/-!
# The divisors in the equations of motion

`Acrobot` and `CartPole` divide by expressions in the cosine of an angle. Whatever the state, these
are bounded below by positive constants. This covers the states in the middle of an RK4 step, which
have not been wrapped or clipped.
-/

namespace DistributedRL

variable {ρ 𝕂 : Type*} [Field 𝕂] [LinearOrder 𝕂] (T : Circle 𝕂)

/-! ### Acrobot -/

namespace Acrobot

/-- The divisor of `ddt2`. -/
def ddt2Divisor (t2 : 𝕂) : 𝕂 :=
  linkMass2 * linkCom2 ^ 2 + linkMoi - d2 T t2 ^ 2 / d1 T t2

/-- `Acrobot._dsdt`, where its divisions are defined. -/
def dsdt? (s : Fin 4 → 𝕂) (torque : 𝕂) : Option (Fin 4 → 𝕂) := do
  let d1 := d1 T (s 1)
  let d2 := d2 T (s 1)
  let phi2 := phi2 T s
  let phi1 := phi1 T s
  let coupling ← div? d2 d1
  let correction ← div? (d2 ^ 2) d1
  let ddt2 ← div? (torque + coupling * phi1 -
      linkMass2 * linkLength1 * linkCom2 * s 2 ^ 2 * T.sin (s 1) - phi2)
    (linkMass2 * linkCom2 ^ 2 + linkMoi - correction)
  let ddt1 ← div? (-(d2 * ddt2 + phi1)) d1
  return ![s 2, s 3, ddt1, ddt2]

/-- The state after one `dt` of RK4, where the divisions on the way are defined. -/
def rk4? (s : Fin 4 → 𝕂) (torque : 𝕂) : Option (Fin 4 → 𝕂) := do
  let k1 ← dsdt? T s torque
  let k2 ← dsdt? T (s + (0.5 * dt : 𝕂) • k1) torque
  let k3 ← dsdt? T (s + (0.5 * dt : 𝕂) • k2) torque
  let k4 ← dsdt? T (s + (dt : 𝕂) • k3) torque
  return s + (dt / 6.0 : 𝕂) • (k1 + (2 : 𝕂) • k2 + (2 : 𝕂) • k3 + k4)

/-- The states at which RK4 evaluates `_dsdt`. -/
def stages (s : Fin 4 → 𝕂) (torque : 𝕂) : Fin 4 → Fin 4 → 𝕂 :=
  let k1 := dsdt T s torque
  let k2 := dsdt T (s + (0.5 * dt : 𝕂) • k1) torque
  let k3 := dsdt T (s + (0.5 * dt : 𝕂) • k2) torque
  ![s, s + (0.5 * dt : 𝕂) • k1, s + (0.5 * dt : 𝕂) • k2, s + (dt : 𝕂) • k3]

/-- `Acrobot.step`, where its divisions are defined. -/
def step? [FloorRing 𝕂] (s : Acrobot ρ 𝕂) (action : Fin 3) :
    Option (Acrobot ρ 𝕂 × (Fin 6 → 𝕂) × 𝕂 × Bool) :=
  let torque := availTorque action
  (rk4? T s.state torque).map fun state =>
    let state : Fin 4 → 𝕂 :=
      ![T.wrap (state 0), T.wrap (state 1), clip (state 2) (-maxVel1 T) (maxVel1 T),
        clip (state 3) (-maxVel2 T) (maxVel2 T)]
    let s' : Acrobot ρ 𝕂 := ⟨s.rng, state, s.stepCount + 1⟩
    let raised := 1.0 < -T.cos (state 0) - T.cos (state 0 + state 1)
    let reward := if raised then 0.0 else -1.0
    (s', s'.obs T, reward, decide (raised ∨ maxSteps ≤ s'.stepCount))

/-- RK4 combines the slopes at its four stages. -/
lemma rk4_eq_stages (s : Fin 4 → 𝕂) (torque : 𝕂) :
    rk4 T s torque = s + (dt / 6.0 : 𝕂) • (dsdt T (stages T s torque 0) torque +
      (2 : 𝕂) • dsdt T (stages T s torque 1) torque +
      (2 : 𝕂) • dsdt T (stages T s torque 2) torque + dsdt T (stages T s torque 3) torque) :=
  rfl

section

variable [IsStrictOrderedRing 𝕂]

lemma d1_eq (t2 : 𝕂) : d1 T t2 = 7 / 2 + T.cos t2 := by
  norm_num [d1, linkMass1, linkMass2, linkCom1, linkCom2, linkLength1, linkMoi]
  ring

lemma d2_eq (t2 : 𝕂) : d2 T t2 = 5 / 4 + T.cos t2 / 2 := by
  norm_num [d2, linkMass2, linkCom2, linkLength1, linkMoi]
  ring

lemma le_d1 (t2 : 𝕂) : 5 / 2 ≤ d1 T t2 := by
  have hcos := (abs_le.mp (T.abs_cos_le t2)).1
  rw [d1_eq]
  linarith

lemma d1_pos (t2 : 𝕂) : 0 < d1 T t2 := lt_of_lt_of_le (by norm_num) (le_d1 T t2)

/-- The subtrahend is a quotient of two expressions in the cosine, and at most `3 / 4`. -/
lemma le_ddt2Divisor (t2 : 𝕂) : 1 / 2 ≤ ddt2Divisor T t2 := by
  obtain ⟨hl, hr⟩ := abs_le.mp (T.abs_cos_le t2)
  have hsq : T.cos t2 ^ 2 ≤ 1 := (sq_le_one_iff_abs_le_one _).mpr (T.abs_cos_le t2)
  have hquot : d2 T t2 ^ 2 / d1 T t2 ≤ 3 / 4 := by
    rw [div_le_iff₀ (d1_pos T t2), d1_eq, d2_eq]
    calc (5 / 4 + T.cos t2 / 2) ^ 2
        = 25 / 16 + 5 / 4 * T.cos t2 + T.cos t2 ^ 2 / 4 := by ring
      _ ≤ 3 / 4 * (7 / 2 + T.cos t2) := by linarith
  have hconst : (linkMass2 * linkCom2 ^ 2 + linkMoi : 𝕂) = 5 / 4 := by
    norm_num [linkMass2, linkCom2, linkMoi]
  rw [ddt2Divisor, hconst]
  linarith

lemma dsdt?_eq (s : Fin 4 → 𝕂) (torque : 𝕂) : dsdt? T s torque = some (dsdt T s torque) := by
  have hd1 := d1_pos T (s 1)
  have hdiv : 0 < linkMass2 * linkCom2 ^ 2 + linkMoi - d2 T (s 1) ^ 2 / d1 T (s 1) :=
    lt_of_lt_of_le one_half_pos (le_ddt2Divisor T (s 1))
  simp only [dsdt?, div?_of_pos hd1, Option.bind_eq_bind, Option.bind_some, div?_of_pos hdiv]
  rfl

lemma rk4?_eq (s : Fin 4 → 𝕂) (torque : 𝕂) : rk4? T s torque = some (rk4 T s torque) := by
  simp only [rk4?, dsdt?_eq, Option.bind_eq_bind, Option.bind_some]
  rfl

lemma step?_eq [FloorRing 𝕂] (s : Acrobot ρ 𝕂) (action : Fin 3) :
    step? T s action = some (step T s action) := by
  simp only [step?, rk4?_eq, Option.map_some]
  rfl

end

end Acrobot

/-! ### CartPole -/

namespace CartPole

/-- The divisor of `theta_acc`. -/
def thetaAccDivisor (theta : 𝕂) : 𝕂 :=
  length * (4.0 / 3.0 - massPole * T.cos theta ^ 2 / (massCart + massPole))

/-- `theta_acc` and `x_acc`, where their divisions are defined. -/
def accelerations? (state : Fin 4 → 𝕂) (force : 𝕂) : Option (𝕂 × 𝕂) := do
  let theta := state 2
  let thetaDot := state 3
  let totalMass := massCart + massPole
  let poleMl := massPole * length
  let cosT := T.cos theta
  let sinT := T.sin theta
  let temp ← div? (force + poleMl * thetaDot ^ 2 * sinT) totalMass
  let correction ← div? (massPole * cosT ^ 2) totalMass
  let thetaAcc ← div? (gravity * sinT - cosT * temp) (length * (4.0 / 3.0 - correction))
  let reaction ← div? (poleMl * thetaAcc * cosT) totalMass
  return (thetaAcc, temp - reaction)

/-- `CartPole.step`, where its divisions are defined. -/
def step? (s : CartPole ρ 𝕂) (action : Fin 2) :
    Option (CartPole ρ 𝕂 × (Fin 4 → 𝕂) × 𝕂 × Bool) :=
  let force := if action = 1 then forceMag else -forceMag
  (accelerations? T s.state force).map fun (thetaAcc, xAcc) =>
    let x := s.state 0 + dt * s.state 1
    let xDot := s.state 1 + dt * xAcc
    let theta := s.state 2 + dt * s.state 3
    let thetaDot := s.state 3 + dt * thetaAcc
    let s' : CartPole ρ 𝕂 := ⟨s.rng, ![x, xDot, theta, thetaDot], s.stepCount + 1⟩
    let failed := xThreshold < |x| ∨ thetaThreshold T < |theta|
    (s', s'.state, 1.0, decide (failed ∨ maxSteps ≤ s'.stepCount))

section

variable [IsStrictOrderedRing 𝕂]

lemma totalMass_pos : (0 : 𝕂) < massCart + massPole := by
  norm_num [massCart, massPole]

lemma le_thetaAccDivisor (theta : 𝕂) : 1 / 2 ≤ thetaAccDivisor T theta := by
  have hsq : T.cos theta ^ 2 ≤ 1 := (sq_le_one_iff_abs_le_one _).mpr (T.abs_cos_le theta)
  have heq : thetaAccDivisor T theta = 2 / 3 - T.cos theta ^ 2 / 22 := by
    norm_num [thetaAccDivisor, length, massPole, massCart]
    ring
  rw [heq]
  linarith

lemma accelerations?_eq (state : Fin 4 → 𝕂) (force : 𝕂) :
    accelerations? T state force = some (accelerations T state force) := by
  have hdiv : 0 < length * (4.0 / 3.0 - massPole * T.cos (state 2) ^ 2 / (massCart + massPole)) :=
    lt_of_lt_of_le one_half_pos (le_thetaAccDivisor T (state 2))
  simp only [accelerations?, div?_of_pos totalMass_pos, Option.bind_eq_bind, Option.bind_some,
    div?_of_pos hdiv]
  rfl

lemma step?_eq (s : CartPole ρ 𝕂) (action : Fin 2) : step? T s action = some (step T s action) := by
  simp only [step?, accelerations?_eq, Option.map_some]
  rfl

end

end CartPole

/-! ### Every step is defined -/

/-- In every state and for every action the divisors are bounded below by positive constants, at
each of the four stages of RK4 in `Acrobot.step`, so the next state is defined. -/
theorem divisors_bounded_below [IsStrictOrderedRing 𝕂] [FloorRing 𝕂] :
    (∀ (s : Acrobot ρ 𝕂) (action : Fin 3),
      let torque := Acrobot.availTorque action
      let stage := Acrobot.stages T s.state torque
      (∀ i, 5 / 2 ≤ Acrobot.d1 T (stage i 1) ∧ 1 / 2 ≤ Acrobot.ddt2Divisor T (stage i 1)) ∧
      Acrobot.rk4 T s.state torque = s.state + (Acrobot.dt / 6.0 : 𝕂) •
        (Acrobot.dsdt T (stage 0) torque + (2 : 𝕂) • Acrobot.dsdt T (stage 1) torque +
          (2 : 𝕂) • Acrobot.dsdt T (stage 2) torque + Acrobot.dsdt T (stage 3) torque) ∧
      Acrobot.step? T s action = some (Acrobot.step T s action)) ∧
    ∀ (s : CartPole ρ 𝕂) (action : Fin 2),
      1 / 2 ≤ CartPole.thetaAccDivisor T (s.state 2) ∧
      CartPole.step? T s action = some (CartPole.step T s action) := by
  constructor
  · intro s action
    refine ⟨?_, Acrobot.rk4_eq_stages T _ _, Acrobot.step?_eq T s action⟩
    intro i
    exact ⟨Acrobot.le_d1 T _, Acrobot.le_ddt2Divisor T _⟩
  · intro s action
    exact ⟨CartPole.le_thetaAccDivisor T _, CartPole.step?_eq T s action⟩

namespace Scenario

/-- An arm that is far out of range, with velocities beyond their bounds. -/
noncomputable def wildArm : Acrobot ℕ ℝ := ⟨0, ![1000, -1000, 500, 700], 0⟩

end Scenario

open Scenario

theorem divisors_bounded_below_wildArm :
    Acrobot.step? realCircle wildArm 2 = some (Acrobot.step realCircle wildArm 2) :=
  ((divisors_bounded_below realCircle).1 wildArm 2).2.2

end DistributedRL
