import DistributedRL.Env.Bounds
import DistributedRL.Worker.Returns

/-!
# What an episode can earn

The means that the heartbeats report are those of whole episodes, so they are bounded by what an
episode of the environment can earn: one for each step in CartPole, minus one for each step but the
last in Acrobot, and so on, whatever the actions are and however the episodes lie in the rollouts.
-/

namespace DistributedRL

variable {σ Act Obs 𝕂 : Type*} {numEnvs : ℕ}

/-! ### Earnings -/

/-- `Earned` relates the state in the middle of an episode to the rewards since it began, and `Paid`
holds of their sum when the episode is done. -/
structure Env.Earns [Zero 𝕂] [Add 𝕂] (env : Env σ Act Obs 𝕂) (Earned : σ → 𝕂 → Prop)
    (Paid : 𝕂 → Prop) : Prop where
  reset : ∀ s, Earned (env.reset s).1 0
  step : ∀ s a x, Earned s x → (env.step s a).2.2.2 = false →
    Earned (env.step s a).1 (x + (env.step s a).2.2.1)
  done : ∀ s a x, Earned s x → (env.step s a).2.2.2 = true → Paid (x + (env.step s a).2.2.1)

/-- A report is about the returns of episodes that have been paid. -/
def EpisodeReport.Paid [Field 𝕂] (Paid : 𝕂 → Prop) (report : EpisodeReport 𝕂) : Prop :=
  ∃ returns : List 𝕂, (∀ x ∈ returns, Paid x) ∧ report.recentEpisodes = returns.length ∧
    report.meanReturn = Accounts.meanReturn returns

section

variable [Field 𝕂] [LinearOrder 𝕂] {env : Env σ Act Obs 𝕂} {Earned : σ → 𝕂 → Prop}
  {Paid : 𝕂 → Prop}

namespace Accounts

variable {s : Accounts σ 𝕂 numEnvs}

variable (Earned Paid s) in
/-- The running sums are earned, and what has been listed or reported has been paid. -/
structure Earns : Prop where
  running : ∀ e, Earned (s.envs e) (s.epReturns e)
  appended : ∀ x ∈ s.appended, Paid x
  recent : ∀ x ∈ s.recentEpisodeReturns, Paid x
  reports : ∀ report ∈ s.reports, report.Paid Paid

omit [LinearOrder 𝕂] in
lemma earns_start (h : env.Earns Earned Paid) (envs : Fin numEnvs → σ) :
    (start env envs).Earns Earned Paid where
  running e := h.reset (envs e)
  appended _ hx := absurd hx List.not_mem_nil
  recent _ hx := absurd hx List.not_mem_nil
  reports _ hr := absurd hr List.not_mem_nil

/-- What the loop over the environments lists is the sum of an episode that is done. -/
lemma Earns.finished (h : env.Earns Earned Paid) (hs : s.Earns Earned Paid)
    (actions : Fin numEnvs → Act) {x : 𝕂}
    (hx : x ∈ Accounts.finished (env.vecStep s.envs actions).dones
      (fun e => s.epReturns e + (env.vecStep s.envs actions).rewards e)
      (List.finRange numEnvs)) : Paid x := by
  obtain ⟨e, -, he⟩ := List.mem_filterMap.mp hx
  have hout := env.autoStep_outcome (s.envs e) (actions e)
  split_ifs at he with hdone
  obtain rfl := Option.some.inj he
  simp only [Env.vecStep, hout] at hdone ⊢
  split_ifs at hdone with hflag
  · exact h.done _ _ _ (hs.running e) hflag
  · exact absurd rfl hdone

lemma Earns.timestep (h : env.Earns Earned Paid) (hs : s.Earns Earned Paid)
    (actions : Fin numEnvs → Act) : (s.timestep env actions).Earns Earned Paid := by
  have hfin := finishes_timestep env actions s
  constructor
  · intro e
    have hout := env.autoStep_outcome (s.envs e) (actions e)
    have hstate := env.autoStep_state (s.envs e) (actions e)
    rw [hfin.envs, hfin.epReturns]
    simp only [List.mem_finRange, true_and, Env.vecStep, hout]
    by_cases hflag : (env.step (s.envs e) (actions e)).2.2.2 = true
    · rw [if_pos hflag] at hstate
      rw [congrArg Prod.fst hstate, if_pos hflag, if_pos one_ne_zero]
      exact h.reset _
    · rw [if_neg hflag] at hstate
      rw [congrArg Prod.fst hstate, if_neg hflag, if_neg (not_not.mpr rfl)]
      exact h.step _ _ _ (hs.running e) (Bool.eq_false_of_not_eq_true hflag)
  · intro x hx
    rw [hfin.appended] at hx
    rcases List.mem_append.mp hx with hx | hx
    · exact hs.appended x hx
    · exact hs.finished h actions hx
  · intro x hx
    rw [hfin.recent] at hx
    rcases List.mem_append.mp hx with hx | hx
    · exact hs.recent x hx
    · exact hs.finished h actions hx
  · rw [hfin.reports]
    exact hs.reports

/-- A heartbeat reports the mean of what is listed. -/
lemma Earns.heartbeat (hs : s.Earns Earned Paid) (now : 𝕂) :
    (s.heartbeat now).Earns Earned Paid := by
  rw [Accounts.heartbeat]
  split_ifs
  · refine ⟨hs.running, hs.appended, fun x hx => hs.recent x (List.mem_of_mem_drop hx), ?_⟩
    intro report hreport
    rcases List.mem_append.mp hreport with hreport | hreport
    · exact hs.reports report hreport
    · rw [List.mem_singleton.mp hreport]
      exact ⟨s.recentEpisodeReturns, hs.recent, rfl, rfl⟩
  · exact hs

end Accounts

namespace Session

variable {p : Session σ Act Obs 𝕂 numEnvs}

lemma earns_rollout (h : p.env.Earns Earned Paid) {s : Accounts σ 𝕂 numEnvs}
    (hs : s.Earns Earned Paid) (r t : ℕ) : (p.rollout r s t).Earns Earned Paid := by
  induction t with
  | zero => exact hs
  | succ t ih => exact ih.timestep h _

lemma earns_iterations (h : p.env.Earns Earned Paid) (r : ℕ) :
    (p.iterations r).Earns Earned Paid := by
  induction r with
  | zero => exact Accounts.earns_start h p.envs
  | succ r ih => exact (earns_rollout h ih r p.rolloutLength).heartbeat _

end Session

/-! ### Means -/

section

variable [IsStrictOrderedRing 𝕂] {low high : 𝕂}

/-- The mean of a list lies between the bounds of its members. -/
lemma Accounts.meanReturn_mem {returns : List 𝕂} (hne : returns ≠ [])
    (h : ∀ x ∈ returns, low ≤ x ∧ x ≤ high) :
    low ≤ meanReturn returns ∧ meanReturn returns ≤ high := by
  have hpos : (0 : 𝕂) < returns.length := by
    rw [Nat.cast_pos]
    exact List.length_pos_of_ne_nil hne
  have hempty : returns.isEmpty = false := List.isEmpty_eq_false_iff.mpr hne
  have hlow := List.card_nsmul_le_sum returns low fun x hx => (h x hx).1
  have hhigh := List.sum_le_card_nsmul returns high fun x hx => (h x hx).2
  rw [nsmul_eq_mul] at hlow hhigh
  rw [meanReturn, hempty]
  constructor
  · exact (le_div_iff₀ hpos).mpr (by rwa [mul_comm])
  · exact (div_le_iff₀ hpos).mpr (by rwa [mul_comm])

lemma EpisodeReport.Paid.mem {report : EpisodeReport 𝕂} (h : report.Paid Paid)
    (hpaid : ∀ x, Paid x → low ≤ x ∧ x ≤ high) :
    report.recentEpisodes = 0 ∧ report.meanReturn = 0 ∨
      low ≤ report.meanReturn ∧ report.meanReturn ≤ high := by
  obtain ⟨returns, hreturns, hlength, hmean⟩ := h
  rw [hlength, hmean]
  rcases eq_or_ne returns [] with rfl | hne
  · exact Or.inl ⟨rfl, rfl⟩
  · exact Or.inr (Accounts.meanReturn_mem hne fun x hx => hpaid x (hreturns x hx))

end

/-- In every iteration of the loop of `worker_main`, the returns of the completed episodes have been
paid, and every heartbeat has reported a mean within the bounds, or zero without an episode. -/
structure Session.Pays (p : Session σ Act Obs 𝕂 numEnvs) (Paid : 𝕂 → Prop) (low high : 𝕂) :
    Prop where
  appended : ∀ r t, ∀ x ∈ (p.rollout r (p.iterations r) t).appended, Paid x
  reports : ∀ r, ∀ report ∈ (p.iterations r).reports,
    report.recentEpisodes = 0 ∧ report.meanReturn = 0 ∨
      low ≤ report.meanReturn ∧ report.meanReturn ≤ high

lemma Env.Earns.pays [IsStrictOrderedRing 𝕂] (h : env.Earns Earned Paid) {low high : 𝕂}
    (hpaid : ∀ x, Paid x → low ≤ x ∧ x ≤ high) {p : Session σ Act Obs 𝕂 numEnvs}
    (hp : p.env = env) : p.Pays Paid low high where
  appended r t := by
    have h : p.env.Earns Earned Paid := hp ▸ h
    exact (Session.earns_rollout h (Session.earns_iterations h r) r t).appended
  reports r report hreport := by
    have h : p.env.Earns Earned Paid := hp ▸ h
    exact ((Session.earns_iterations h r).reports report hreport).mem hpaid

end

/-! ### The environments -/

section

variable {ρ : Type*} [Field 𝕂] [LinearOrder 𝕂] [FloorRing 𝕂] [IsStrictOrderedRing 𝕂]
  (T : Circle 𝕂) (G : Generator ρ 𝕂)

omit [FloorRing 𝕂] in
lemma abs_clip_one_le (x : 𝕂) : |clip x (-1.0) 1.0| ≤ 1 := by
  have h := abs_clip_le x (zero_le_one (α := 𝕂))
  norm_num at h ⊢
  exact h

/-- A rod gains at most 0.59 of speed in a step, so an episode of 200 steps has a bounded cost. -/
lemma SwingBot.abs_thetaDot_step_le (s : SwingBot ρ 𝕂) (action : Fin 1 → 𝕂) :
    |(step T s action).1.thetaDot| ≤ |s.thetaDot| + 0.59 := by
  set a := clip (action 0) (-1.0) 1.0 with ha
  have hstep : (step T s action).1.thetaDot = s.thetaDot +
      (a * maxTorque - gravity * mass * length * T.sin s.theta) / (mass * length ^ 2) * dt := rfl
  have hacc : (a * maxTorque - gravity * mass * length * T.sin s.theta) / (mass * length ^ 2) * dt =
      0.1 * a - 0.49 * T.sin s.theta := by
    norm_num [maxTorque, gravity, mass, length, dt]
    ring
  obtain ⟨hal, har⟩ := abs_le.mp (abs_clip_one_le (action 0))
  obtain ⟨hsl, hsr⟩ := abs_le.mp (T.abs_sin_le s.theta)
  rw [← ha] at hal har
  have hle : |0.1 * a - 0.49 * T.sin s.theta| ≤ 0.59 := by
    rw [abs_le]
    constructor
    · linarith
    · linarith
  rw [hstep, hacc]
  exact (abs_add_le _ _).trans (add_le_add le_rfl hle)

/-- A step of a rod that is no faster than 119 costs at most 1417.101 and brings at most one. -/
lemma SwingBot.reward_mem (s : SwingBot ρ 𝕂) (action : Fin 1 → 𝕂)
    (h : |(step T s action).1.thetaDot| ≤ 119) :
    -1417.101 ≤ (step T s action).2.2.1 ∧ (step T s action).2.2.1 ≤ 1 := by
  set a := clip (action 0) (-1.0) 1.0 with ha
  have hreward : (step T s action).2.2.1 = T.cos (step T s action).1.theta -
      0.1 * (step T s action).1.thetaDot ^ 2 - 0.001 * a ^ 2 := rfl
  have hsq : (step T s action).1.thetaDot ^ 2 ≤ 119 ^ 2 := sq_le_sq.mpr (by rwa [Nat.abs_ofNat])
  have hasq : a ^ 2 ≤ 1 ^ 2 := sq_le_sq.mpr (by rw [abs_one]; exact abs_clip_one_le (action 0))
  have hpos := sq_nonneg (step T s action).1.thetaDot
  have hapos := sq_nonneg a
  obtain ⟨hcl, hcr⟩ := abs_le.mp (T.abs_cos_le (step T s action).1.theta)
  rw [hreward]
  constructor
  · linarith
  · linarith

/-- The speed of the rod and the rewards are bounded by the steps of the episode. -/
structure SwingBot.Earned (s : SwingBot ρ 𝕂) (x : 𝕂) : Prop where
  count_lt : s.stepCount < maxSteps
  speed : |s.thetaDot| ≤ 1 + 0.59 * s.stepCount
  low : -1417.101 * s.stepCount ≤ x
  high : x ≤ s.stepCount

/-- An episode of SwingBot pays at most 200. -/
def SwingBot.Paid (x : 𝕂) : Prop := -283420.2 ≤ x ∧ x ≤ 200

/-- What the next step adds, whether or not it is the last one. -/
lemma SwingBot.Earned.step {s : SwingBot ρ 𝕂} {x : 𝕂} (h : s.Earned x) (action : Fin 1 → 𝕂) :
    |(SwingBot.step T s action).1.thetaDot| ≤ 1 + 0.59 * (s.stepCount + 1 : ℕ) ∧
      -1417.101 * (s.stepCount + 1 : ℕ) ≤ x + (SwingBot.step T s action).2.2.1 ∧
      x + (SwingBot.step T s action).2.2.1 ≤ (s.stepCount + 1 : ℕ) := by
  have hspeed := (abs_thetaDot_step_le T s action).trans (add_le_add h.speed le_rfl)
  have hcount : ((s.stepCount + 1 : ℕ) : 𝕂) ≤ 200 := by
    exact_mod_cast h.count_lt
  rw [Nat.cast_add, Nat.cast_one] at hcount ⊢
  obtain ⟨hl, hr⟩ := reward_mem T s action (by linarith)
  have hlow := h.low
  have hhigh := h.high
  exact ⟨by linarith, by linarith, by linarith⟩

lemma SwingBot.earns : (env T G).Earns (SwingBot.Earned : SwingBot ρ 𝕂 → 𝕂 → Prop) SwingBot.Paid where
  reset s := by
    have hmem := G.uniform_mem (G.uniform s.rng (-T.pi) T.pi).2 (-1.0) 1.0 (by norm_num)
    refine ⟨Nat.zero_lt_succ 199, ?_, ?_, ?_⟩
    · show |(G.uniform (G.uniform s.rng (-T.pi) T.pi).2 (-1.0) 1.0).1| ≤ 1 + 0.59 * ((0 : ℕ) : 𝕂)
      rw [Nat.cast_zero, mul_zero, add_zero, abs_le]
      exact ⟨by linarith [hmem.1], by linarith [hmem.2]⟩
    · show -1417.101 * ((0 : ℕ) : 𝕂) ≤ 0
      rw [Nat.cast_zero, mul_zero]
    · show (0 : 𝕂) ≤ ((0 : ℕ) : 𝕂)
      rw [Nat.cast_zero]
  step s a x h hdone := by
    obtain ⟨hspeed, hlow, hhigh⟩ := h.step T a
    exact ⟨lt_of_not_ge (of_decide_eq_false hdone), hspeed, hlow, hhigh⟩
  done s a x h hdone := by
    obtain ⟨-, hlow, hhigh⟩ := h.step T a
    have hle : maxSteps ≤ s.stepCount + 1 := of_decide_eq_true hdone
    have hcount : s.stepCount + 1 = 200 := le_antisymm h.count_lt hle
    rw [hcount, Nat.cast_ofNat] at hlow hhigh
    show -283420.2 ≤ x + (SwingBot.step T s a).2.2.1 ∧ x + (SwingBot.step T s a).2.2.1 ≤ 200
    exact ⟨by linarith, hhigh⟩

/-- Each step but the last one costs at most a tenth. -/
structure MountainCarContinuous.Earned (s : MountainCarContinuous ρ 𝕂) (x : 𝕂) : Prop where
  count_lt : s.stepCount < maxSteps
  low : -0.1 * s.stepCount ≤ x
  high : x ≤ 0

/-- An episode of MountainCarContinuous pays the goal once, or nothing. -/
def MountainCarContinuous.Paid (x : 𝕂) : Prop := -99.9 ≤ x ∧ x ≤ 100

omit [FloorRing 𝕂] in
/-- A step costs at most a tenth, and pays the goal if it reaches it. -/
lemma MountainCarContinuous.exists_cost (s : MountainCarContinuous ρ 𝕂) (action : Fin 1 → 𝕂) :
    ∃ cost : 𝕂, 0 ≤ cost ∧ cost ≤ 0.1 ∧ (step T s action).2.2.1 =
      -cost + if goalPos ≤ (step T s action).1.pos then 100.0 else 0.0 := by
  have hsq : clip (action 0) (-1.0) 1.0 ^ 2 ≤ 1 ^ 2 :=
    sq_le_sq.mpr (by rw [abs_one]; exact abs_clip_one_le (action 0))
  have hpos := sq_nonneg (clip (action 0) (-1.0) 1.0)
  refine ⟨0.1 * clip (action 0) (-1.0) 1.0 ^ 2, by linarith, by linarith, ?_⟩
  rw [← neg_mul]
  rfl

omit [FloorRing 𝕂] in
lemma MountainCarContinuous.earns : (env T G).Earns
    (MountainCarContinuous.Earned : MountainCarContinuous ρ 𝕂 → 𝕂 → Prop)
    MountainCarContinuous.Paid where
  reset s := by
    refine ⟨Nat.zero_lt_succ 998, ?_, le_rfl⟩
    show -0.1 * ((0 : ℕ) : 𝕂) ≤ 0
    rw [Nat.cast_zero, mul_zero]
  step s a x h hdone := by
    obtain ⟨hreached, hcount⟩ := not_or.mp (of_decide_eq_false hdone)
    obtain ⟨cost, hpos, hle, hreward⟩ := exists_cost T s a
    have hnot : ¬ goalPos ≤ (step T s a).1.pos := hreached
    have hlow := h.low
    have hhigh := h.high
    rw [if_neg hnot] at hreward
    refine ⟨lt_of_not_ge hcount, ?_, ?_⟩
    · show -0.1 * ((s.stepCount + 1 : ℕ) : 𝕂) ≤ x + (step T s a).2.2.1
      rw [hreward, Nat.cast_add, Nat.cast_one]
      linarith
    · show x + (step T s a).2.2.1 ≤ 0
      rw [hreward]
      linarith
  done s a x h hdone := by
    obtain ⟨cost, hpos, hle, hreward⟩ := exists_cost T s a
    have hcount : (s.stepCount : 𝕂) ≤ 998 := by
      exact_mod_cast Nat.le_of_lt_succ h.count_lt
    have hlow := h.low
    have hhigh := h.high
    show -99.9 ≤ x + (step T s a).2.2.1 ∧ x + (step T s a).2.2.1 ≤ 100
    rw [hreward]
    split_ifs
    · exact ⟨by linarith, by linarith⟩
    · exact ⟨by linarith, by linarith⟩

/-- Every step but the one that raises the tip costs one. -/
structure Acrobot.Earned (s : Acrobot ρ 𝕂) (x : 𝕂) : Prop where
  count_lt : s.stepCount < maxSteps
  sum : x = -s.stepCount

/-- An episode of Acrobot costs one for each step before the tip is raised. -/
def Acrobot.Paid (x : 𝕂) : Prop := ∃ k : ℕ, k ≤ maxSteps ∧ x = -k

omit [IsStrictOrderedRing 𝕂] in
lemma Acrobot.earns : (env T G).Earns (Acrobot.Earned : Acrobot ρ 𝕂 → 𝕂 → Prop)
    Acrobot.Paid where
  reset s := ⟨Nat.zero_lt_succ 499, by simp [env, reset]⟩
  step s a x h hdone := by
    obtain ⟨hraised, hcount⟩ := not_or.mp (of_decide_eq_false hdone)
    have hnot : ¬ (step T s a).1.Raised T := hraised
    refine ⟨lt_of_not_ge hcount, ?_⟩
    show x + (step T s a).2.2.1 = -((s.stepCount + 1 : ℕ) : 𝕂)
    rw [outcome_step, if_neg hnot, h.sum, Nat.cast_add, Nat.cast_one]
    norm_num
    ring
  done s a x h hdone := by
    have hstep : (env T G).step s a = step T s a := rfl
    rw [hstep, outcome_step]
    split_ifs with hraised
    · exact ⟨s.stepCount, h.count_lt.le, by rw [h.sum]; norm_num⟩
    · refine ⟨s.stepCount + 1, h.count_lt, ?_⟩
      rw [h.sum, Nat.cast_add, Nat.cast_one]
      norm_num
      ring

/-- Every step pays one. -/
structure CartPole.Earned (s : CartPole ρ 𝕂) (x : 𝕂) : Prop where
  count_lt : s.stepCount < maxSteps
  sum : x = s.stepCount

/-- An episode of CartPole pays its length. -/
def CartPole.Paid (x : 𝕂) : Prop := ∃ k : ℕ, 1 ≤ k ∧ k ≤ maxSteps ∧ x = k

omit [FloorRing 𝕂] in
lemma CartPole.Earned.step {s : CartPole ρ 𝕂} {x : 𝕂} (h : s.Earned x) (action : Fin 2) :
    x + (CartPole.step T s action).2.2.1 = ((s.stepCount + 1 : ℕ) : 𝕂) := by
  have hreward : (CartPole.step T s action).2.2.1 = 1.0 := rfl
  rw [hreward, h.sum, Nat.cast_add, Nat.cast_one]
  norm_num

omit [FloorRing 𝕂] in
lemma CartPole.earns : (env T G).Earns (CartPole.Earned : CartPole ρ 𝕂 → 𝕂 → Prop)
    CartPole.Paid where
  reset s := ⟨Nat.zero_lt_succ 499, by simp [env, reset]⟩
  step s a x h hdone := by
    obtain ⟨-, hcount⟩ := not_or.mp (of_decide_eq_false hdone)
    exact ⟨lt_of_not_ge hcount, h.step T a⟩
  done s a x h _ := ⟨s.stepCount + 1, Nat.succ_pos _, h.count_lt, h.step T a⟩

end

namespace Scenario

/-- Two rods whose worker collects a rollout of eight steps in each second. -/
noncomputable def rodSession :
    Session (SwingBot (ℕ → Set.Ico (0 : ℝ) 1) ℝ) (Fin 1 → ℝ) (Fin 4 → ℝ) ℝ 2 :=
  ⟨SwingBot.env realCircle .ofStream, twoRods, fun _ _ _ => 5, 8, fun r => r + 1⟩

end Scenario

open Scenario

end DistributedRL
