import DistributedRL.Env.Bounds

/-!
# Mirrored episodes

SwingBot, CartPole and Acrobot do not tell left from right: an environment in the mirrored state
that is given the mirrored actions goes through the mirrored episode, with the same rewards and the
same end. Wrapped angles are only determined up to multiples of `2 * π`, so mirrored states are
related and need not be equal.
-/

namespace DistributedRL

variable {σ Act Obs ρ 𝕂 : Type*}

/-! ### Mirrors of environments -/

namespace Env

variable (env : Env σ Act Obs 𝕂)

/-- What the calls of `step` return for a list of actions. -/
def episode (s : σ) : List Act → List (Obs × 𝕂 × Bool)
  | [] => []
  | a :: actions => (env.step s a).2 :: episode (env.step s a).1 actions

/-- States related by `R` stay so under mirrored actions, and what is observed is mirrored. -/
structure Mirror (R : σ → σ → Prop) (action : Act → Act) (obs : Obs → Obs) : Prop where
  state : ∀ {s s'}, R s s' → ∀ a, R (env.step s a).1 (env.step s' (action a)).1
  obs : ∀ {s s'}, R s s' → ∀ a, (env.step s' (action a)).2.1 = obs (env.step s a).2.1
  outcome : ∀ {s s'}, R s s' → ∀ a, (env.step s' (action a)).2.2 = (env.step s a).2.2

variable {env} {R : σ → σ → Prop} {action : Act → Act} {obs : Obs → Obs}

/-- By induction on the actions, the state being general. -/
lemma Mirror.episode (h : env.Mirror R action obs) {s s' : σ} (hs : R s s') (actions : List Act) :
    env.episode s' (actions.map action) = (env.episode s actions).map (Prod.map obs id) := by
  induction actions generalizing s s' with
  | nil => rfl
  | cons a actions ih =>
    simp only [List.map_cons, Env.episode, ih (h.state hs a)]
    congr 1
    exact Prod.ext (h.obs hs a) (h.outcome hs a)

end Env

/-! ### Mirrored angles -/

variable [Field 𝕂] [LinearOrder 𝕂]

/-- What the circle functions do under a change of sign and a turn by `π`. -/
structure Circle.Symmetric (T : Circle 𝕂) : Prop where
  sin_neg : ∀ x, T.sin (-x) = -T.sin x
  cos_neg : ∀ x, T.cos (-x) = T.cos x
  sin_add_pi : ∀ x, T.sin (x + T.pi) = -T.sin x
  cos_add_pi : ∀ x, T.cos (x + T.pi) = -T.cos x

/-- The angles are mirror images of each other, up to multiples of `2 * π`. -/
def Circle.Mirrored (T : Circle 𝕂) (x y : 𝕂) : Prop := T.SameDirection (-x) y

section

variable {T : Circle 𝕂} {x y u v : 𝕂}

lemma Circle.Symmetric.sin_add_int_mul (h : T.Symmetric) (x : 𝕂) (k : ℤ) :
    T.sin (x + k * (2 * T.pi)) = T.sin x := by
  have hstep : ∀ x, T.sin (x + 2 * T.pi) = T.sin x := by
    intro x
    rw [two_mul, ← add_assoc, h.sin_add_pi, h.sin_add_pi, neg_neg]
  have hperiodic : Function.Periodic T.sin (2 * T.pi) := hstep
  exact hperiodic.int_mul k x

lemma Circle.Symmetric.cos_add_int_mul (h : T.Symmetric) (x : 𝕂) (k : ℤ) :
    T.cos (x + k * (2 * T.pi)) = T.cos x := by
  have hstep : ∀ x, T.cos (x + 2 * T.pi) = T.cos x := by
    intro x
    rw [two_mul, ← add_assoc, h.cos_add_pi, h.cos_add_pi, neg_neg]
  have hperiodic : Function.Periodic T.cos (2 * T.pi) := hstep
  exact hperiodic.int_mul k x

lemma Circle.Mirrored.sin (h : T.Mirrored x y) (hT : T.Symmetric) : T.sin y = -T.sin x := by
  obtain ⟨k, rfl⟩ := h
  rw [hT.sin_add_int_mul, hT.sin_neg]

lemma Circle.Mirrored.cos (h : T.Mirrored x y) (hT : T.Symmetric) : T.cos y = T.cos x := by
  obtain ⟨k, rfl⟩ := h
  rw [hT.cos_add_int_mul, hT.cos_neg]

/-- A quarter turn back, the mirror image has the other sign. -/
lemma Circle.Mirrored.cos_sub_half [IsStrictOrderedRing 𝕂] (h : T.Mirrored x y) (hT : T.Symmetric) :
    T.cos (y - T.pi / 2.0) = -T.cos (x - T.pi / 2.0) := by
  obtain ⟨k, rfl⟩ := h
  have htwo : (2.0 : 𝕂) = 2 := by norm_num
  have hturn : -x + k * (2 * T.pi) - T.pi / 2.0 = -(x - T.pi / 2.0 + T.pi) + k * (2 * T.pi) := by
    rw [htwo]
    ring
  rw [hturn, hT.cos_add_int_mul, hT.cos_neg, hT.cos_add_pi]

lemma Circle.Mirrored.add (hx : T.Mirrored x y) (hu : T.Mirrored u v) :
    T.Mirrored (x + u) (y + v) := by
  obtain ⟨k, rfl⟩ := hx
  obtain ⟨l, rfl⟩ := hu
  refine ⟨k + l, ?_⟩
  rw [Int.cast_add]
  ring

lemma Circle.Mirrored.of_neg (x : 𝕂) : T.Mirrored x (-x) := ⟨0, by simp⟩

lemma Circle.Mirrored.wrap [FloorRing 𝕂] (h : T.Mirrored x y) :
    T.Mirrored (T.wrap x) (T.wrap y) := by
  obtain ⟨k, rfl⟩ := h
  obtain ⟨l, hl⟩ := T.sameDirection_wrap x
  obtain ⟨m, hm⟩ := T.sameDirection_wrap (-x + k * (2 * T.pi))
  refine ⟨k + l + m, ?_⟩
  rw [hm, hl, Int.cast_add, Int.cast_add]
  ring

end

lemma clip_neg [IsStrictOrderedRing 𝕂] {c : 𝕂} (hc : 0 ≤ c) (x : 𝕂) :
    clip (-x) (-c) c = -clip x (-c) c := by
  rw [clip, clip, ← max_neg_neg, ← min_neg_neg, neg_neg, max_min_distrib_right,
    max_eq_left (neg_le_self hc)]

variable [FloorRing 𝕂] [IsStrictOrderedRing 𝕂] {T : Circle 𝕂}

/-! ### SwingBot -/

namespace SwingBot

/-- The rods are mirror images of each other. -/
structure Mirrored (T : Circle 𝕂) (s s' : SwingBot ρ 𝕂) : Prop where
  theta : T.Mirrored s.theta s'.theta
  thetaDot : s'.thetaDot = -s.thetaDot
  actionPrev : s'.actionPrev = -s.actionPrev
  stepCount : s'.stepCount = s.stepCount

/-- The observation of a mirrored rod. -/
def mirrorObs (obs : Fin 4 → 𝕂) : Fin 4 → 𝕂 := ![obs 0, -obs 1, -obs 2, -obs 3]

variable {s s' : SwingBot ρ 𝕂}

lemma Mirrored.step (h : Mirrored T s s') (hT : T.Symmetric) (action : Fin 1 → 𝕂) :
    Mirrored T (SwingBot.step T s action).1 (SwingBot.step T s' (-action)).1 := by
  have hclip : clip ((-action) 0) (-1.0) 1.0 = -clip (action 0) (-1.0) 1.0 :=
    clip_neg (by norm_num) _
  have hthetaDot : (SwingBot.step T s' (-action)).1.thetaDot =
      -(SwingBot.step T s action).1.thetaDot := by
    show s'.thetaDot + (clip ((-action) 0) (-1.0) 1.0 * maxTorque -
        gravity * mass * length * T.sin s'.theta) / (mass * length ^ 2) * dt =
      -(s.thetaDot + (clip (action 0) (-1.0) 1.0 * maxTorque -
        gravity * mass * length * T.sin s.theta) / (mass * length ^ 2) * dt)
    rw [hclip, h.thetaDot, h.theta.sin hT]
    ring
  refine ⟨?_, hthetaDot, hclip, congrArg (· + 1) h.stepCount⟩
  have hmove : (SwingBot.step T s' (-action)).1.thetaDot * dt =
      -((SwingBot.step T s action).1.thetaDot * dt) := by
    rw [hthetaDot, neg_mul]
  have hsum := h.theta.add (.of_neg ((SwingBot.step T s action).1.thetaDot * dt))
  rw [← hmove] at hsum
  exact hsum.wrap

omit [FloorRing 𝕂] [IsStrictOrderedRing 𝕂] in
lemma Mirrored.obs (h : Mirrored T s s') (hT : T.Symmetric) :
    SwingBot.obs T s' = mirrorObs (SwingBot.obs T s) := by
  simp [SwingBot.obs, mirrorObs, h.theta.cos hT, h.theta.sin hT, h.thetaDot, h.actionPrev]

/-- The rewards are even, and so is the length of an episode. -/
lemma mirror (hT : T.Symmetric) (G : Generator ρ 𝕂) :
    (env T G).Mirror (Mirrored T) (fun action => -action) mirrorObs where
  state h a := h.step hT a
  obs h a := (h.step hT a).obs hT
  outcome {s s'} h a := by
    have hstep := h.step hT a
    show (T.cos (step T s' (-a)).1.theta - 0.1 * (step T s' (-a)).1.thetaDot ^ 2 -
        0.001 * (step T s' (-a)).1.actionPrev ^ 2,
        decide (maxSteps ≤ (step T s' (-a)).1.stepCount)) =
      (T.cos (step T s a).1.theta - 0.1 * (step T s a).1.thetaDot ^ 2 -
        0.001 * (step T s a).1.actionPrev ^ 2, decide (maxSteps ≤ (step T s a).1.stepCount))
    rw [hstep.theta.cos hT, hstep.thetaDot, hstep.actionPrev, hstep.stepCount, neg_sq, neg_sq]

end SwingBot

/-! ### CartPole -/

namespace CartPole

/-- The carts are mirror images of each other. -/
structure Mirrored (s s' : CartPole ρ 𝕂) : Prop where
  state : s'.state = -s.state
  stepCount : s'.stepCount = s.stepCount

omit [FloorRing 𝕂] [IsStrictOrderedRing 𝕂] in
/-- The mirrored force turns all accelerations around. -/
lemma accelerations_neg (hT : T.Symmetric) (state : Fin 4 → 𝕂) (force : 𝕂) :
    accelerations T (-state) (-force) =
      (-(accelerations T state force).1, -(accelerations T state force).2) := by
  simp only [accelerations, Pi.neg_apply, hT.cos_neg, hT.sin_neg]
  refine Prod.ext ?_ ?_
  · ring
  · ring

omit [LinearOrder 𝕂] [FloorRing 𝕂] [IsStrictOrderedRing 𝕂] in
/-- The push to the other side. -/
lemma force_rev (action : Fin 2) : (if action.rev = 1 then forceMag else -forceMag : 𝕂) =
    -(if action = 1 then forceMag else -forceMag) := by
  fin_cases action
  · exact (neg_neg _).symm
  · rfl

variable {s s' : CartPole ρ 𝕂}

omit [FloorRing 𝕂] [IsStrictOrderedRing 𝕂] in
lemma Mirrored.step (h : Mirrored s s') (hT : T.Symmetric) (action : Fin 2) :
    Mirrored (CartPole.step T s action).1 (CartPole.step T s' action.rev).1 := by
  refine ⟨?_, congrArg (· + 1) h.stepCount⟩
  simp only [CartPole.step, h.state, force_rev, accelerations_neg hT, Pi.neg_apply]
  funext i
  fin_cases i
  all_goals
    simp only [Pi.neg_apply]
    simp
    ring

omit [FloorRing 𝕂] [IsStrictOrderedRing 𝕂] in
/-- The track and the range of angles are symmetric. -/
lemma mirror (hT : T.Symmetric) (G : Generator ρ 𝕂) :
    (env T G).Mirror Mirrored Fin.rev (fun obs => -obs) where
  state h a := h.step hT a
  obs h a := (h.step hT a).state
  outcome {s s'} h a := by
    have hstep := h.step hT a
    have habs : ∀ i, |(step T s' a.rev).1.state i| = |(step T s a).1.state i| := by
      intro i
      rw [hstep.state, Pi.neg_apply, abs_neg]
    show ((1.0 : 𝕂), decide ((xThreshold < |(step T s' a.rev).1.state 0| ∨
        thetaThreshold T < |(step T s' a.rev).1.state 2|) ∨
          maxSteps ≤ (step T s' a.rev).1.stepCount)) =
      ((1.0 : 𝕂), decide ((xThreshold < |(step T s a).1.state 0| ∨
        thetaThreshold T < |(step T s a).1.state 2|) ∨ maxSteps ≤ (step T s a).1.stepCount))
    simp only [habs, hstep.stepCount]

end CartPole

/-! ### Acrobot -/

namespace Acrobot

/-- The arms are mirror images of each other. -/
structure MirroredState (T : Circle 𝕂) (s s' : Fin 4 → 𝕂) : Prop where
  t1 : T.Mirrored (s 0) (s' 0)
  t2 : T.Mirrored (s 1) (s' 1)
  dt1 : s' 2 = -s 2
  dt2 : s' 3 = -s 3

/-- The arms are mirror images of each other, after as many steps. -/
structure Mirrored (T : Circle 𝕂) (s s' : Acrobot ρ 𝕂) : Prop where
  state : MirroredState T s.state s'.state
  stepCount : s'.stepCount = s.stepCount

/-- The observation of a mirrored arm. -/
def mirrorObs (obs : Fin 6 → 𝕂) : Fin 6 → 𝕂 :=
  ![obs 0, -obs 1, obs 2, -obs 3, -obs 4, -obs 5]

section

variable {s s' k : Fin 4 → 𝕂}

omit [FloorRing 𝕂] [IsStrictOrderedRing 𝕂] in
lemma MirroredState.move (h : MirroredState T s s') (c : 𝕂) :
    MirroredState T (s + c • k) (s' + c • -k) where
  t1 := h.t1.add (by simpa using Circle.Mirrored.of_neg (c * k 0))
  t2 := h.t2.add (by simpa using Circle.Mirrored.of_neg (c * k 1))
  dt1 := by
    simp only [Pi.add_apply, Pi.smul_apply, Pi.neg_apply, h.dt1, smul_neg, neg_add]
  dt2 := by
    simp only [Pi.add_apply, Pi.smul_apply, Pi.neg_apply, h.dt2, smul_neg, neg_add]

omit [FloorRing 𝕂] in
/-- The equations of motion of the mirrored arm. -/
lemma MirroredState.dsdt (h : MirroredState T s s') (hT : T.Symmetric) (torque : 𝕂) :
    Acrobot.dsdt T s' (-torque) = -Acrobot.dsdt T s torque := by
  have hphi2 : phi2 T s' = -phi2 T s := by
    rw [phi2, phi2, (h.t1.add h.t2).cos_sub_half hT]
    ring
  have hphi1 : phi1 T s' = -phi1 T s := by
    rw [phi1, phi1, hphi2, h.t1.cos_sub_half hT, h.t2.sin hT, h.dt1, h.dt2]
    ring
  have hd1 : d1 T (s' 1) = d1 T (s 1) := by rw [d1, d1, h.t2.cos hT]
  have hd2 : d2 T (s' 1) = d2 T (s 1) := by rw [d2, d2, h.t2.cos hT]
  simp only [Acrobot.dsdt, hphi1, hphi2, hd1, hd2, h.t2.sin hT, h.dt1, h.dt2]
  funext i
  fin_cases i
  · rfl
  · rfl
  · simp
    ring
  · simp
    ring

omit [FloorRing 𝕂] in
/-- The next stage of RK4. -/
lemma MirroredState.stage (h : MirroredState T s s') (hT : T.Symmetric) {k' : Fin 4 → 𝕂}
    (hk : k' = -k) (c torque : 𝕂) :
    Acrobot.dsdt T (s' + c • k') (-torque) = -Acrobot.dsdt T (s + c • k) torque := by
  subst hk
  exact (h.move c).dsdt hT torque

omit [FloorRing 𝕂] in
lemma MirroredState.rk4 (h : MirroredState T s s') (hT : T.Symmetric) (torque : 𝕂) :
    MirroredState T (Acrobot.rk4 T s torque) (Acrobot.rk4 T s' (-torque)) := by
  have hk1 := h.dsdt hT torque
  have hk2 := h.stage hT hk1 (0.5 * dt) torque
  have hk3 := h.stage hT hk2 (0.5 * dt) torque
  have hk4 := h.stage hT hk3 dt torque
  have hsum : ∀ k1 k2 k3 k4 : Fin 4 → 𝕂, -k1 + (2 : 𝕂) • -k2 + (2 : 𝕂) • -k3 + -k4 =
      -(k1 + (2 : 𝕂) • k2 + (2 : 𝕂) • k3 + k4) := by
    intro k1 k2 k3 k4
    rw [smul_neg, smul_neg, neg_add, neg_add, neg_add]
  simp only [Acrobot.rk4]
  rw [hk4, hk3, hk2, hk1, hsum]
  exact h.move _

end

omit [FloorRing 𝕂] in
lemma availTorque_rev (action : Fin 3) :
    (availTorque action.rev : 𝕂) = -availTorque action := by
  fin_cases action
  · exact (neg_neg _).symm
  · show (0.0 : 𝕂) = -0.0
    norm_num
  · rfl

variable {s s' : Acrobot ρ 𝕂}

lemma Mirrored.step (h : Mirrored T s s') (hT : T.Symmetric) (action : Fin 3) :
    Mirrored T (Acrobot.step T s action).1 (Acrobot.step T s' action.rev).1 := by
  have hmove := h.state.rk4 hT (availTorque action)
  have hvel1 : 0 ≤ maxVel1 T := mul_nonneg zero_le_four T.pi_pos.le
  have hvel2 : 0 ≤ maxVel2 T := mul_nonneg (by norm_num) T.pi_pos.le
  rw [← availTorque_rev] at hmove
  refine ⟨⟨hmove.t1.wrap, hmove.t2.wrap, ?_, ?_⟩, congrArg (· + 1) h.stepCount⟩
  · show clip (rk4 T s'.state (availTorque action.rev) 2) (-maxVel1 T) (maxVel1 T) =
      -clip (rk4 T s.state (availTorque action) 2) (-maxVel1 T) (maxVel1 T)
    rw [hmove.dt1, clip_neg hvel1]
  · show clip (rk4 T s'.state (availTorque action.rev) 3) (-maxVel2 T) (maxVel2 T) =
      -clip (rk4 T s.state (availTorque action) 3) (-maxVel2 T) (maxVel2 T)
    rw [hmove.dt2, clip_neg hvel2]

omit [FloorRing 𝕂] [IsStrictOrderedRing 𝕂] in
lemma Mirrored.obs (h : Mirrored T s s') (hT : T.Symmetric) :
    Acrobot.obs T s' = mirrorObs (Acrobot.obs T s) := by
  simp [Acrobot.obs, mirrorObs, h.state.t1.cos hT, h.state.t1.sin hT, h.state.t2.cos hT,
    h.state.t2.sin hT, h.state.dt1, h.state.dt2]

/-- The tip is as high as that of the mirrored arm. -/
lemma mirror (hT : T.Symmetric) (G : Generator ρ 𝕂) :
    (env T G).Mirror (Mirrored T) Fin.rev mirrorObs where
  state h a := h.step hT a
  obs h a := (h.step hT a).obs hT
  outcome {s s'} h a := by
    have hstep := h.step hT a
    have hraised : (step T s' a.rev).1.Raised T ↔ (step T s a).1.Raised T := by
      rw [Raised, Raised, hstep.state.t1.cos hT, (hstep.state.t1.add hstep.state.t2).cos hT]
    show (step T s' a.rev).2.2 = (step T s a).2.2
    rw [outcome_step, outcome_step]
    simp only [hraised, hstep.stepCount]

end Acrobot

lemma realCircle_symmetric : realCircle.Symmetric where
  sin_neg := Real.sin_neg
  cos_neg := Real.cos_neg
  sin_add_pi := Real.sin_add_pi
  cos_add_pi := Real.cos_add_pi

namespace Scenario

/-- A rod at rest, a quarter turn to the right. -/
noncomputable def rodRight : SwingBot (ℕ → Set.Ico (0 : ℝ) 1) ℝ :=
  ⟨(twoRods 0).rng, Real.pi / 2, 0, 0, 0⟩

/-- A rod at rest, three quarters of a turn to the right, which is a quarter to the left. -/
noncomputable def rodLeft : SwingBot (ℕ → Set.Ico (0 : ℝ) 1) ℝ :=
  ⟨(twoRods 0).rng, Real.pi / 2 + Real.pi, 0, 0, 0⟩

lemma rods_mirrored : SwingBot.Mirrored realCircle rodRight rodLeft where
  theta := by
    refine ⟨1, ?_⟩
    show Real.pi / 2 + Real.pi = -(Real.pi / 2) + (1 : ℤ) * (2 * Real.pi)
    rw [Int.cast_one]
    ring
  thetaDot := neg_zero.symm
  actionPrev := neg_zero.symm
  stepCount := rfl

/-- A cart moving to the right under a pole that leans to the right, after 195 steps. -/
noncomputable def cartRight : CartPole (ℕ → Set.Ico (0 : ℝ) 1) ℝ :=
  ⟨(twoRods 0).rng, ![1, 0.5, 0.1, 0], 195⟩

/-- The same to the left. -/
noncomputable def cartLeft : CartPole (ℕ → Set.Ico (0 : ℝ) 1) ℝ :=
  ⟨(twoRods 0).rng, ![-1, -0.5, -0.1, 0], 195⟩

lemma carts_mirrored : CartPole.Mirrored cartRight cartLeft where
  state := by
    funext i
    fin_cases i <;> simp [cartRight, cartLeft]
  stepCount := rfl

/-- An arm that swings to the right. -/
noncomputable def armRight : Acrobot (ℕ → Set.Ico (0 : ℝ) 1) ℝ :=
  ⟨(twoRods 0).rng, ![1, -2, 2, 0], 0⟩

/-- An arm that swings to the left, the first angle a whole turn further. -/
noncomputable def armLeft : Acrobot (ℕ → Set.Ico (0 : ℝ) 1) ℝ :=
  ⟨(twoRods 0).rng, ![-1 + 2 * Real.pi, 2, -2, 0], 0⟩

lemma arms_mirrored : Acrobot.Mirrored realCircle armRight armLeft where
  state := {
    t1 := by
      refine ⟨1, ?_⟩
      show -1 + 2 * Real.pi = -1 + (1 : ℤ) * (2 * Real.pi)
      rw [Int.cast_one, one_mul]
    t2 := by
      refine ⟨0, ?_⟩
      show 2 = -(-2) + (0 : ℤ) * (2 * Real.pi)
      rw [Int.cast_zero, zero_mul, add_zero, neg_neg]
    dt1 := rfl
    dt2 := neg_zero.symm }
  stepCount := rfl

end Scenario

open Scenario

end DistributedRL
