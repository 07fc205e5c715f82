import DistributedRL.Data.Numeric
import DistributedRL.Env.Episodes
import Mathlib.Algebra.Group.Action.Pi
import Mathlib.Data.Fin.VecNotation
import Mathlib.Tactic.NormNum.OfScientific

/-!
# Acrobot

`env/acrobot.py`: two links with a torque at the second joint, integrated with RK4.
-/

namespace DistributedRL

/-- The attributes of an `Acrobot`; the state is `t1, t2, dt1, dt2`. -/
structure Acrobot (ρ 𝕂 : Type*) where
  rng : ρ
  state : Fin 4 → 𝕂
  stepCount : ℕ

namespace Acrobot

section

variable {𝕂 : Type*} [Field 𝕂]

def dt : 𝕂 := 0.2
def linkLength1 : 𝕂 := 1.0
def linkMass1 : 𝕂 := 1.0
def linkMass2 : 𝕂 := 1.0
def linkCom1 : 𝕂 := 0.5
def linkCom2 : 𝕂 := 0.5
def linkMoi : 𝕂 := 1.0
def g : 𝕂 := 9.8
def maxSteps : ℕ := 500
def availTorque : Fin 3 → 𝕂 := ![-1.0, 0.0, 1.0]

end

variable {ρ 𝕂 : Type*} [Field 𝕂] [LinearOrder 𝕂] [FloorRing 𝕂] (T : Circle 𝕂) (G : Generator ρ 𝕂)

def maxVel1 : 𝕂 := 4 * T.pi
def maxVel2 : 𝕂 := 9 * T.pi

/-- `Acrobot._obs` -/
def obs (s : Acrobot ρ 𝕂) : Fin 6 → 𝕂 :=
  ![T.cos (s.state 0), T.sin (s.state 0), T.cos (s.state 1), T.sin (s.state 1), s.state 2,
    s.state 3]

/-- `Acrobot.reset` -/
def reset (s : Acrobot ρ 𝕂) : Acrobot ρ 𝕂 × (Fin 6 → 𝕂) :=
  let (state, rng) := G.uniforms (-0.1) 0.1 4 s.rng
  let s' : Acrobot ρ 𝕂 := ⟨rng, state, 0⟩
  (s', s'.obs T)

/-! ### The equations of motion -/

/-- `d1` -/
def d1 (t2 : 𝕂) : 𝕂 :=
  linkMass1 * linkCom1 ^ 2 +
    linkMass2 * (linkLength1 ^ 2 + linkCom2 ^ 2 + 2 * linkLength1 * linkCom2 * T.cos t2) +
    linkMoi + linkMoi

/-- `d2` -/
def d2 (t2 : 𝕂) : 𝕂 :=
  linkMass2 * (linkCom2 ^ 2 + linkLength1 * linkCom2 * T.cos t2) + linkMoi

/-- `phi2` -/
def phi2 (s : Fin 4 → 𝕂) : 𝕂 := linkMass2 * linkCom2 * g * T.cos (s 0 + s 1 - T.pi / 2.0)

/-- `phi1` -/
def phi1 (s : Fin 4 → 𝕂) : 𝕂 :=
  -linkMass2 * linkLength1 * linkCom2 * s 3 ^ 2 * T.sin (s 1) -
    2 * linkMass2 * linkLength1 * linkCom2 * s 3 * s 2 * T.sin (s 1) +
    (linkMass1 * linkCom1 + linkMass2 * linkLength1) * g * T.cos (s 0 - T.pi / 2.0) +
    phi2 T s

/-- `Acrobot._dsdt` -/
def dsdt (s : Fin 4 → 𝕂) (torque : 𝕂) : Fin 4 → 𝕂 :=
  let d1 := d1 T (s 1)
  let d2 := d2 T (s 1)
  let phi2 := phi2 T s
  let phi1 := phi1 T s
  let ddt2 := (torque + d2 / d1 * phi1 -
      linkMass2 * linkLength1 * linkCom2 * s 2 ^ 2 * T.sin (s 1) - phi2) /
    (linkMass2 * linkCom2 ^ 2 + linkMoi - d2 ^ 2 / d1)
  let ddt1 := -(d2 * ddt2 + phi1) / d1
  ![s 2, s 3, ddt1, ddt2]

/-- The state after one `dt` of RK4. -/
def rk4 (s : Fin 4 → 𝕂) (torque : 𝕂) : Fin 4 → 𝕂 :=
  let k1 := dsdt T s torque
  let k2 := dsdt T (s + (0.5 * dt : 𝕂) • k1) torque
  let k3 := dsdt T (s + (0.5 * dt : 𝕂) • k2) torque
  let k4 := dsdt T (s + (dt : 𝕂) • k3) torque
  s + (dt / 6.0 : 𝕂) • (k1 + (2 : 𝕂) • k2 + (2 : 𝕂) • k3 + k4)

/-- `Acrobot.step` -/
def step (s : Acrobot ρ 𝕂) (action : Fin 3) : Acrobot ρ 𝕂 × (Fin 6 → 𝕂) × 𝕂 × Bool :=
  let torque := availTorque action
  let state := rk4 T s.state torque
  let state : Fin 4 → 𝕂 :=
    ![T.wrap (state 0), T.wrap (state 1), clip (state 2) (-maxVel1 T) (maxVel1 T),
      clip (state 3) (-maxVel2 T) (maxVel2 T)]
  let s' : Acrobot ρ 𝕂 := ⟨s.rng, state, s.stepCount + 1⟩
  let raised := 1.0 < -T.cos (state 0) - T.cos (state 0 + state 1)
  let reward := if raised then 0.0 else -1.0
  (s', s'.obs T, reward, decide (raised ∨ maxSteps ≤ s'.stepCount))

/-- `Acrobot` as an environment. -/
def env : Env (Acrobot ρ 𝕂) (Fin 3) (Fin 6 → 𝕂) 𝕂 := ⟨reset T G, step T⟩

/-- The tip is raised. -/
def Raised (s : Acrobot ρ 𝕂) : Prop := 1.0 < -T.cos (s.state 0) - T.cos (s.state 0 + s.state 1)

instance (s : Acrobot ρ 𝕂) : Decidable (s.Raised T) := inferInstanceAs (Decidable (_ < _))

lemma outcome_step (s : Acrobot ρ 𝕂) (action : Fin 3) : (step T s action).2.2 =
    (if (step T s action).1.Raised T then 0.0 else -1.0,
      decide ((step T s action).1.Raised T ∨ maxSteps ≤ (step T s action).1.stepCount)) := rfl

/-- The angles are in `[-π, π)`, and the angular velocities within `4 * π` and `9 * π`. -/
structure InRange (s : Acrobot ρ 𝕂) : Prop where
  t1 : -T.pi ≤ s.state 0 ∧ s.state 0 < T.pi
  t2 : -T.pi ≤ s.state 1 ∧ s.state 1 < T.pi
  abs_dt1_le : |s.state 2| ≤ 4 * T.pi
  abs_dt2_le : |s.state 3| ≤ 9 * T.pi

variable [IsStrictOrderedRing 𝕂]

omit [FloorRing 𝕂] in
lemma inRange_reset (s : Acrobot ρ 𝕂) : InRange T (reset T G s).1 := by
  have hlt : (-0.1 : 𝕂) < 0.1 := by norm_num
  have hpi := T.three_lt_pi
  have hmem : ∀ i, -0.1 ≤ (reset T G s).1.state i ∧ (reset T G s).1.state i < 0.1 :=
    fun i => G.uniforms_mem hlt 4 s.rng i
  have hangle : ∀ i, -T.pi ≤ (reset T G s).1.state i ∧ (reset T G s).1.state i < T.pi := by
    intro i
    obtain ⟨hl, hr⟩ := hmem i
    exact ⟨by linarith, by linarith⟩
  have hvel : ∀ i, |(reset T G s).1.state i| ≤ T.pi :=
    fun i => abs_le.mpr ⟨(hangle i).1, (hangle i).2.le⟩
  exact ⟨hangle 0, hangle 1, (hvel 2).trans (by linarith), (hvel 3).trans (by linarith)⟩

lemma inRange_step (s : Acrobot ρ 𝕂) (action : Fin 3) : InRange T (step T s action).1 where
  t1 := T.wrap_mem _
  t2 := T.wrap_mem _
  abs_dt1_le := abs_clip_le _ (mul_nonneg zero_le_four T.pi_pos.le)
  abs_dt2_le := abs_clip_le _ (mul_nonneg (by norm_num) T.pi_pos.le)

lemma counted : (env T G).Counted stepCount maxSteps (InRange T) where
  reset_count _ := rfl
  step_count _ _ := rfl
  stops _ _ h := decide_eq_true (Or.inr h)
  reset_inv := inRange_reset T G
  step_inv s a _ _ := inRange_step T s a

end Acrobot

end DistributedRL
