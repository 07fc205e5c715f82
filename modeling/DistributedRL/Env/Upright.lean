import DistributedRL.Env.Bounds

/-!
# Which way SwingBot falls

The rod is upright at angle zero, so gravity should accelerate it away from there. In `step` it
does not: a rod that leans to one side, is not moving back and is pushed further to that side moves
on exactly where the torque outweighs the gravity term.
-/

namespace DistributedRL

/-- A side of upright. -/
inductive Side
  | right
  | left

namespace Side

variable {𝕂 : Type*} [Field 𝕂]

/-- The sign of the angles on the side. -/
def sign : Side → 𝕂
  | right => 1
  | left => -1

lemma abs_sign_mul [LinearOrder 𝕂] [IsStrictOrderedRing 𝕂] (side : Side) (x : 𝕂) :
    |side.sign * x| = |x| := by
  cases side with
  | right => rw [sign, one_mul]
  | left => rw [sign, neg_one_mul, abs_neg]

end Side

namespace SwingBot

variable {ρ 𝕂 : Type*} [Field 𝕂] [LinearOrder 𝕂] [FloorRing 𝕂] (T : Circle 𝕂) (side : Side)

/-- The rod after `n` calls of `step`. -/
def run (s : SwingBot ρ 𝕂) (actions : ℕ → Fin 1 → 𝕂) : ℕ → SwingBot ρ 𝕂
  | 0 => s
  | n + 1 => (step T (run s actions n) (actions n)).1

/-- The angle that a step reaches, before it is wrapped. -/
def reach (s : SwingBot ρ 𝕂) (action : Fin 1 → 𝕂) : 𝕂 :=
  s.theta + (step T s action).1.thetaDot * dt

/-- The rod is between upright and hanging on the side, and is not moving back. -/
structure Leans (s : SwingBot ρ 𝕂) : Prop where
  theta_pos : 0 < side.sign * s.theta
  theta_lt : side.sign * s.theta < T.pi
  thetaDot_nonneg : 0 ≤ side.sign * s.thetaDot

/-- The action is a torque to the side, or none. -/
def PushesAway (action : Fin 1 → 𝕂) : Prop :=
  0 ≤ side.sign * action 0 ∧ side.sign * action 0 ≤ 1

/-- None of the first `n` steps has brought the rod to `π`. -/
def NotPassed (s : SwingBot ρ 𝕂) (actions : ℕ → Fin 1 → 𝕂) (n : ℕ) : Prop :=
  ∀ k < n, side.sign * reach T (run T s actions k) (actions k) < T.pi

/-- For as long as the rod has not passed `π`, each step makes it faster and takes it further from
upright. -/
def FallsAway (s : SwingBot ρ 𝕂) (actions : ℕ → Fin 1 → 𝕂) : Prop :=
  ∀ n, NotPassed T side s actions n →
    side.sign * (run T s actions n).thetaDot < side.sign * (run T s actions (n + 1)).thetaDot ∧
    (side.sign * reach T (run T s actions n) (actions n) ≤ T.pi →
      |(run T s actions n).theta| < |(run T s actions (n + 1)).theta|)

/-- The torque outweighs the gravity term of `step`. -/
def Outweighs (s : SwingBot ρ 𝕂) (action : Fin 1 → 𝕂) : Prop :=
  side.sign * (gravity * T.sin s.theta) < side.sign * (maxTorque * action 0)

/-! ### One step -/

section

variable [IsStrictOrderedRing 𝕂] {T side} {s : SwingBot ρ 𝕂} {action : Fin 1 → 𝕂}
  {actions : ℕ → Fin 1 → 𝕂}

lemma thetaDot_step (h : PushesAway side action) : (step T s action).1.thetaDot =
    s.thetaDot + (maxTorque * action 0 - gravity * T.sin s.theta) * dt := by
  have habs : |action 0| ≤ 1 := by
    rw [← side.abs_sign_mul, abs_of_nonneg h.1]
    exact h.2
  obtain ⟨hl, hr⟩ := abs_le.mp habs
  have hclip : clip (action 0) (-1.0) 1.0 = action 0 :=
    clip_of_mem (by linarith) (by linarith)
  have hmass : (mass * length ^ 2 : 𝕂) = 1 := by norm_num [mass, length]
  have hgravity : (gravity * mass * length : 𝕂) = gravity := by norm_num [mass, length]
  show s.thetaDot + (clip (action 0) (-1.0) 1.0 * maxTorque -
    gravity * mass * length * T.sin s.theta) / (mass * length ^ 2) * dt = _
  rw [hclip, hmass, hgravity, div_one, mul_comm (action 0)]

omit [FloorRing 𝕂] [IsStrictOrderedRing 𝕂] in
lemma Leans.right (hs : Leans T .right s) : 0 < s.theta ∧ s.theta < T.pi := by
  obtain ⟨hpos, hlt, -⟩ := hs
  rw [Side.sign, one_mul] at hpos hlt
  exact ⟨hpos, hlt⟩

/-- A step makes the rod faster exactly if the torque outweighs the gravity term. -/
lemma faster_iff (h : PushesAway side action) :
    side.sign * s.thetaDot < side.sign * (step T s action).1.thetaDot ↔
      Outweighs T side s action := by
  have hdt : (0 : 𝕂) < dt := by norm_num [dt]
  rw [thetaDot_step h, mul_add, lt_add_iff_pos_right, ← mul_assoc, mul_pos_iff_of_pos_right hdt,
    mul_sub, sub_pos, Outweighs]

/-- A rod that leans and gets faster moves away from upright. -/
lemma lt_reach (hs : Leans T side s)
    (hfast : side.sign * s.thetaDot < side.sign * (step T s action).1.thetaDot) :
    side.sign * s.theta < side.sign * reach T s action := by
  have hdt : (0 : 𝕂) < dt := by norm_num [dt]
  have hpos : 0 < side.sign * (step T s action).1.thetaDot := hs.thetaDot_nonneg.trans_lt hfast
  rw [reach, mul_add, ← mul_assoc]
  exact lt_add_of_pos_right _ (mul_pos hpos hdt)

lemma further_step (hs : Leans T side s)
    (hfast : side.sign * s.thetaDot < side.sign * (step T s action).1.thetaDot)
    (hreach : side.sign * reach T s action ≤ T.pi) : |s.theta| < |(step T s action).1.theta| := by
  have hlt := lt_reach hs hfast
  have hpos := hs.theta_pos.trans hlt
  have hle : |reach T s action| ≤ T.pi := by
    rw [← side.abs_sign_mul, abs_of_pos hpos]
    exact hreach
  have hwrap : |(step T s action).1.theta| = |reach T s action| := T.abs_wrap hle
  rw [hwrap, ← side.abs_sign_mul s.theta, ← side.abs_sign_mul (reach T s action),
    abs_of_pos hs.theta_pos, abs_of_pos hpos]
  exact hlt

lemma leans_step (hs : Leans T side s)
    (hfast : side.sign * s.thetaDot < side.sign * (step T s action).1.thetaDot)
    (hreach : side.sign * reach T s action < T.pi) : Leans T side (step T s action).1 := by
  have hpos := hs.theta_pos.trans (lt_reach hs hfast)
  have habs : |reach T s action| < T.pi := by
    rw [← side.abs_sign_mul, abs_of_pos hpos]
    exact hreach
  obtain ⟨hl, hr⟩ := abs_lt.mp habs
  have htheta : (step T s action).1.theta = reach T s action := T.wrap_of_mem hl.le hr
  refine ⟨?_, ?_, (hs.thetaDot_nonneg.trans_lt hfast).le⟩
  · rw [htheta]
    exact hpos
  · rw [htheta]
    exact hreach

/-! ### Runs -/

/-- By induction on the number of steps, none of which passes `π`. -/
lemma leans_run (hs : Leans T side s) (hpush : ∀ n, PushesAway side (actions n))
    (hout : ∀ n, NotPassed T side s actions n →
      Outweighs T side (run T s actions n) (actions n)) :
    ∀ n, NotPassed T side s actions n → Leans T side (run T s actions n) := by
  intro n
  induction n with
  | zero =>
    intro _
    exact hs
  | succ n ih =>
    intro hpassed
    have hbefore : NotPassed T side s actions n := fun k hk => hpassed k (hk.trans n.lt_succ_self)
    have hfast := (faster_iff (hpush n)).mpr (hout n hbefore)
    exact leans_step (ih hbefore) hfast (hpassed n n.lt_succ_self)

end

variable [IsStrictOrderedRing 𝕂]

/-- The rod falls away from upright exactly if the torque outweighs the gravity term in every step
before it passes `π`. -/
theorem fallsAway_iff {s : SwingBot ρ 𝕂} {actions : ℕ → Fin 1 → 𝕂} (hs : Leans T side s)
    (hpush : ∀ n, PushesAway side (actions n)) :
    FallsAway T side s actions ↔
      ∀ n, NotPassed T side s actions n → Outweighs T side (run T s actions n) (actions n) := by
  constructor
  · intro hfalls n hpassed
    exact (faster_iff (hpush n)).mp (hfalls n hpassed).1
  · intro hout n hpassed
    have hfast := (faster_iff (hpush n)).mpr (hout n hpassed)
    refine ⟨hfast, ?_⟩
    intro hreach
    exact further_step (leans_run hs hpush hout n hpassed) hfast hreach

/-- Without a torque, the rod is slowed down wherever it leans. -/
lemma not_fallsAway_zero (hsin : ∀ x, 0 < x → x < T.pi → 0 < T.sin x) {s : SwingBot ρ 𝕂}
    (hs : Leans T .right s) : ¬ FallsAway T .right s fun _ _ => 0 := by
  intro hfalls
  have hpush : PushesAway .right (fun _ => 0 : Fin 1 → 𝕂) := by
    simp [PushesAway]
  have hout := (faster_iff hpush).mp (hfalls 0 fun k hk => absurd hk (Nat.not_lt_zero k)).1
  have htheta := hsin s.theta hs.right.1 hs.right.2
  have hpos : (0 : 𝕂) < gravity * T.sin s.theta := mul_pos (by norm_num [gravity]) htheta
  simp only [Outweighs, Side.sign, one_mul, mul_zero] at hout
  exact lt_asymm hpos hout

/-- A rod at a right angle, at rest and without a torque, is pulled upright. -/
theorem pulled_upright : ∃ s : SwingBot Unit ℝ,
    (∀ x, 0 < x → x < realCircle.pi → 0 < realCircle.sin x) ∧ Leans realCircle .right s ∧
      (∀ _ : ℕ, PushesAway .right (fun _ => 0 : Fin 1 → ℝ)) ∧
      ¬ FallsAway realCircle .right s fun _ _ => 0 := by
  have hsin : ∀ x, 0 < x → x < realCircle.pi → 0 < realCircle.sin x :=
    fun x => Real.sin_pos_of_pos_of_lt_pi
  have hpi : 0 < realCircle.pi := realCircle.pi_pos
  have hleans : Leans realCircle .right (⟨(), realCircle.pi / 2, 0, 0, 0⟩ : SwingBot Unit ℝ) := by
    constructor
    · simpa [Side.sign] using hpi
    · simpa [Side.sign] using hpi
    · simp
  exact ⟨_, hsin, hleans, fun _ => by simp [PushesAway], not_fallsAway_zero realCircle hsin hleans⟩

end SwingBot

open SwingBot

namespace Scenario

/-- A rod at rest, close to hanging. -/
noncomputable def nearlyHanging : SwingBot Unit ℝ := ⟨(), 3.1, 0, 0, 0⟩

lemma leans_nearlyHanging : Leans realCircle .right nearlyHanging := by
  have hpi : (3.1 : ℝ) < Real.pi := lt_trans (by norm_num) Real.pi_gt_d2
  constructor
  · norm_num [nearlyHanging, Side.sign]
  · simpa [nearlyHanging, Side.sign, realCircle] using hpi
  · simp [nearlyHanging]

/-- Beyond 3.1 the gravity term is small. -/
lemma outweighs_of_le {s : SwingBot Unit ℝ} (hs : Leans realCircle .right s) (h : 3.1 ≤ s.theta) :
    Outweighs realCircle .right s fun _ => 1 := by
  have hlt : s.theta < Real.pi := hs.right.2
  have hsin : Real.sin s.theta < 0.05 := by
    rw [← Real.sin_pi_sub]
    have hpi := Real.pi_lt_d2
    exact (Real.sin_lt (sub_pos.mpr hlt)).trans (by linarith)
  have hcircle : realCircle.sin s.theta = Real.sin s.theta := rfl
  simp only [Outweighs, Side.sign, one_mul, mul_one, hcircle, gravity, maxTorque]
  linarith

end Scenario

open Scenario

/-- Pushed with full torque, it falls. -/
theorem fallsAway_iff_nearlyHanging :
    FallsAway realCircle .right nearlyHanging fun _ _ => 1 := by
  have hpush : PushesAway .right (fun _ => 1 : Fin 1 → ℝ) := by norm_num [PushesAway, Side.sign]
  have hrun : ∀ n, NotPassed realCircle .right nearlyHanging (fun _ _ => 1) n →
      Leans realCircle .right (run realCircle nearlyHanging (fun _ _ => 1) n) ∧
        3.1 ≤ (run realCircle nearlyHanging (fun _ _ => 1) n).theta := by
    intro n
    induction n with
    | zero =>
      intro _
      exact ⟨leans_nearlyHanging, le_rfl⟩
    | succ n ih =>
      intro hpassed
      obtain ⟨hleans, hge⟩ := ih fun k hk => hpassed k (hk.trans n.lt_succ_self)
      have hfast := (faster_iff hpush).mpr (outweighs_of_le hleans hge)
      have hreach := hpassed n n.lt_succ_self
      have hnext := leans_step hleans hfast hreach
      have hpos : 0 < (run realCircle nearlyHanging (fun _ _ => 1) (n + 1)).theta := hnext.right.1
      have hfurther := further_step hleans hfast hreach.le
      rw [abs_of_nonneg (le_trans (by norm_num) hge)] at hfurther
      exact ⟨hnext, hge.trans (hfurther.trans_eq (abs_of_pos hpos)).le⟩
  refine (fallsAway_iff realCircle .right leans_nearlyHanging fun _ => hpush).mpr ?_
  intro n hpassed
  obtain ⟨hleans, hge⟩ := hrun n hpassed
  exact outweighs_of_le hleans hge

end DistributedRL
