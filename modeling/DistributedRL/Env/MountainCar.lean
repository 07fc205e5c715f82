import DistributedRL.Data.Numeric
import DistributedRL.Env.Episodes
import Mathlib.Data.Fin.VecNotation
import Mathlib.Tactic.NormNum.OfScientific

/-!
# MountainCarContinuous

`env/mountain_car.py`: a car between a wall on the left and the goal on the right.
-/

namespace DistributedRL

/-- The attributes of a `MountainCarContinuous`. -/
structure MountainCarContinuous (ρ 𝕂 : Type*) where
  rng : ρ
  pos : 𝕂
  vel : 𝕂
  stepCount : ℕ

namespace MountainCarContinuous

section

variable {𝕂 : Type*} [Field 𝕂]

def minPos : 𝕂 := -1.2
def maxPos : 𝕂 := 0.6
def maxSpeed : 𝕂 := 0.07
def goalPos : 𝕂 := 0.45
def power : 𝕂 := 0.0015
def maxSteps : ℕ := 999

end

variable {ρ 𝕂 : Type*} [Field 𝕂] [LinearOrder 𝕂] (T : Circle 𝕂) (G : Generator ρ 𝕂)

/-- `MountainCarContinuous._obs` -/
def obs (s : MountainCarContinuous ρ 𝕂) : Fin 2 → 𝕂 := ![s.pos, s.vel]

/-- `MountainCarContinuous.reset` -/
def reset (s : MountainCarContinuous ρ 𝕂) : MountainCarContinuous ρ 𝕂 × (Fin 2 → 𝕂) :=
  let (pos, rng) := G.uniform s.rng (-0.6) (-0.4)
  let s' : MountainCarContinuous ρ 𝕂 := ⟨rng, pos, 0, 0⟩
  (s', s'.obs)

/-- `MountainCarContinuous.step` -/
def step (s : MountainCarContinuous ρ 𝕂) (action : Fin 1 → 𝕂) :
    MountainCarContinuous ρ 𝕂 × (Fin 2 → 𝕂) × 𝕂 × Bool :=
  let a := clip (action 0) (-1.0) 1.0
  let vel := s.vel + (a * power - 0.0025 * T.cos (3 * s.pos))
  let vel := clip vel (-maxSpeed) maxSpeed
  let pos := s.pos + vel
  let pos := clip pos minPos maxPos
  let vel := if pos ≤ minPos ∧ vel < 0 then 0 else vel
  let s' : MountainCarContinuous ρ 𝕂 := ⟨s.rng, pos, vel, s.stepCount + 1⟩
  let reached := goalPos ≤ s'.pos
  let reward := -0.1 * a ^ 2 + if reached then 100.0 else 0.0
  (s', s'.obs, reward, decide (reached ∨ maxSteps ≤ s'.stepCount))

/-- `MountainCarContinuous` as an environment. -/
def env : Env (MountainCarContinuous ρ 𝕂) (Fin 1 → 𝕂) (Fin 2 → 𝕂) 𝕂 := ⟨reset G, step T⟩

/-- The car is between the wall and the goal, is not too fast, and does not move into the wall. -/
structure InRange (s : MountainCarContinuous ρ 𝕂) : Prop where
  pos_ge : -1.2 ≤ s.pos
  pos_lt : s.pos < 0.45
  abs_vel_le : |s.vel| ≤ 0.07
  wall : s.pos = -1.2 → 0 ≤ s.vel

variable [IsStrictOrderedRing 𝕂]

lemma inRange_reset (s : MountainCarContinuous ρ 𝕂) : InRange (reset G s).1 := by
  have hlt : (-0.6 : 𝕂) < -0.4 := by norm_num
  obtain ⟨hl, hr⟩ := G.uniform_mem s.rng (-0.6) (-0.4) hlt
  have hge : (-1.2 : 𝕂) < (G.uniform s.rng (-0.6) (-0.4)).1 :=
    lt_of_lt_of_le (by norm_num) hl
  refine ⟨hge.le, hr.trans (by norm_num), ?_, fun _ => le_rfl⟩
  show |(0 : 𝕂)| ≤ 0.07
  rw [abs_zero]
  norm_num

lemma inRange_step {s : MountainCarContinuous ρ 𝕂} {action : Fin 1 → 𝕂}
    (h : ¬ goalPos ≤ (step T s action).1.pos) : InRange (step T s action).1 := by
  have hspeed : (0 : 𝕂) ≤ maxSpeed := by norm_num [maxSpeed]
  have hrange : (minPos : 𝕂) ≤ maxPos := by norm_num [minPos, maxPos]
  set a := clip (action 0) (-1.0) 1.0 with ha
  set vel := clip (s.vel + (a * power - 0.0025 * T.cos (3 * s.pos))) (-maxSpeed) maxSpeed with hvel
  set pos := clip (s.pos + vel) minPos maxPos with hpos
  have hstep : (step T s action).1 =
      ⟨s.rng, pos, if pos ≤ minPos ∧ vel < 0 then 0 else vel, s.stepCount + 1⟩ := rfl
  rw [hstep] at h ⊢
  refine ⟨(clip_mem _ hrange).1, lt_of_not_ge h, ?_, ?_⟩
  · show |if pos ≤ minPos ∧ vel < 0 then 0 else vel| ≤ maxSpeed
    split_ifs
    · rw [abs_zero]
      exact hspeed
    · exact abs_clip_le _ hspeed
  · intro hwall
    show 0 ≤ if pos ≤ minPos ∧ vel < 0 then 0 else vel
    split_ifs with hinto
    · exact le_rfl
    · exact le_of_not_gt fun hneg => hinto ⟨le_of_eq hwall, hneg⟩

lemma counted : (env T G).Counted stepCount maxSteps InRange where
  reset_count _ := rfl
  step_count _ _ := rfl
  stops _ _ h := decide_eq_true (Or.inr h)
  reset_inv := inRange_reset G
  step_inv _ _ _ hdone := inRange_step T fun hreached =>
    of_decide_eq_false hdone (Or.inl hreached)

end MountainCarContinuous

end DistributedRL
