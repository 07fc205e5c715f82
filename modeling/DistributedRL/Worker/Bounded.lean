import DistributedRL.Worker.Ppo

/-!
# Rollouts stay bounded

Whatever an environment lets a worker observe, its networks do not go astray: values are bounded by
the last layer of the critic, no choice of a discrete policy becomes impossible, and with bounded
rewards the advantages and the targets of the critic are bounded too.
-/

namespace DistributedRL

variable {Noise : Type} {obsDim hidden actionDim numEnvs : ℕ} {kind : ActionKind}

/-! ### The policy -/

section Policy

variable {logits : Fin actionDim → ℝ} {B : ℝ}

/-- The logarithm of the probability of a choice, when no logit exceeds `B`. -/
lemma neg_le_logSoftmax (h : ∀ j, |logits j| ≤ B) (k : Fin actionDim) :
    -(2 * B + Real.log actionDim) ≤ logits k - Real.log (∑ j, Real.exp (logits j)) := by
  have hpos : (0 : ℝ) < actionDim := by exact_mod_cast Fin.pos k
  have hsum : ∑ j, Real.exp (logits j) ≤ actionDim * Real.exp B := by
    calc ∑ j, Real.exp (logits j) ≤ ∑ _j : Fin actionDim, Real.exp B :=
          Finset.sum_le_sum fun j _ => Real.exp_le_exp.mpr (abs_le.mp (h j)).2
      _ = actionDim * Real.exp B := by simp
  have hlog := Real.log_le_log
    (Finset.sum_pos (fun j _ => Real.exp_pos (logits j)) ⟨k, Finset.mem_univ k⟩) hsum
  rw [Real.log_mul hpos.ne' (Real.exp_pos B).ne', Real.log_exp] at hlog
  have hk := (abs_le.mp (h k)).1
  linarith

lemma logSoftmax_nonpos (logits : Fin actionDim → ℝ) (k : Fin actionDim) :
    logits k - Real.log (∑ j, Real.exp (logits j)) ≤ 0 := by
  have hle : Real.exp (logits k) ≤ ∑ j, Real.exp (logits j) :=
    Finset.single_le_sum (fun j _ => (Real.exp_pos (logits j)).le) (Finset.mem_univ k)
  have hlog := Real.log_le_log (Real.exp_pos _) hle
  rw [Real.log_exp] at hlog
  linarith

end Policy

/-- The log-probability of a sampled index. -/
lemma ActorParams.sample_logProb {torch : Torch ℝ Noise actionDim} (htorch : torch.Documented)
    (w : ActorParams ℝ obsDim hidden actionDim) (obs : Fin obsDim → ℝ) (noise : Noise) :
    -(2 * (⨆ j, Linear.bound w.1.2.2 j) + Real.log actionDim) ≤
        ((w.actor Real.tanh .discrete).sample torch obs noise).2 ∧
      ((w.actor Real.tanh .discrete).sample torch obs noise).2 ≤ 0 := by
  have hbound : ∀ j, |w.1.forward Real.tanh obs j| ≤ ⨆ j, Linear.bound w.1.2.2 j := fun j =>
    (w.1.abs_forward_le (fun x => (Real.abs_tanh_lt_one x).le) obs j).trans
      (le_ciSup (Set.finite_range _).bddAbove j)
  simp only [Actor.sample, htorch.categoricalLogProb]
  exact ⟨neg_le_logSoftmax hbound _, logSoftmax_nonpos _ _⟩

/-! ### The rollouts -/

section Rollouts

variable {σ Act Obs Stored 𝕂 : Type} [Field 𝕂] [Zero Obs] [Zero Stored]
  {p : Collection σ Act Obs Stored Noise 𝕂 numEnvs} {envs : Fin numEnvs → σ}

/-- The rollouts come from `compute_gae`. -/
lemma Collection.computed_of_collect {n : ℕ} {c : Collector σ Obs numEnvs}
    {rollouts : List (Rollout Obs Stored 𝕂 p.rolloutLength numEnvs)}
    (h : p.collect envs n = some (c, rollouts)) :
    ∀ rollout ∈ rollouts, ∃ b : RolloutBuffer Obs Stored 𝕂 p.rolloutLength numEnvs,
      rollout.buffer = b.computeGae rollout.lastValues p.gamma p.gaeLambda := by
  induction n generalizing c rollouts with
  | zero =>
    cases h
    simp
  | succ n ih =>
    obtain ⟨⟨c', rollouts'⟩, hrun, h⟩ := Option.bind_eq_some_iff.mp h
    obtain ⟨⟨c'', rollout⟩, hroll, h⟩ := Option.map_eq_some_iff.mp h
    obtain ⟨⟨c₃, b⟩, -, hb⟩ := Option.map_eq_some_iff.mp hroll
    cases h
    cases hb
    intro x hx
    rcases List.mem_append.mp hx with hx | hx
    · exact ih hrun x hx
    · obtain rfl := List.mem_singleton.mp hx
      exact ⟨b, rfl⟩

variable [LinearOrder 𝕂] [IsStrictOrderedRing 𝕂] {R V : 𝕂} {r : ℕ}
  {rollout : Rollout Obs Stored 𝕂 p.rolloutLength numEnvs}

omit [Zero Obs] [Zero Stored] in
lemma Collection.abs_delta_le (h : p.Faithful envs r rollout) (hgamma : 0 ≤ p.gamma)
    (hR : ∀ s a, |(p.env.step s a).2.2.1| ≤ R) (hV : ∀ obs, |(p.networks r).critic obs| ≤ V)
    {t : ℕ} (ht : t < p.rolloutLength) (e : Fin numEnvs) :
    |rollout.buffer.delta rollout.lastValues p.gamma t e| ≤ R + (1 + p.gamma) * V := by
  obtain ⟨-, hboot⟩ := h.2 t ht e
  set x := (p.alone e).transition (envs e) (r * p.rolloutLength + t)
  have hdiv : (r * p.rolloutLength + t) / p.rolloutLength = r := div_rolloutLength ht
  have hreward : |x.reward| ≤ R := hR _ _
  have hvalue : |x.value| ≤ V := by
    show |(p.networks ((r * p.rolloutLength + t) / p.rolloutLength)).critic _| ≤ V
    rw [hdiv]
    exact hV _
  have hV0 : 0 ≤ V := (abs_nonneg _).trans hvalue
  have hnext : |p.gamma * (if x.done then 0 else (p.networks r).critic x.nextObs)| ≤
      p.gamma * V := by
    rw [abs_mul, abs_of_nonneg hgamma]
    refine mul_le_mul_of_nonneg_left ?_ hgamma
    split_ifs
    · rwa [abs_zero]
    · exact hV _
  rw [hboot.delta]
  calc |x.reward + p.gamma * (if x.done then 0 else (p.networks r).critic x.nextObs) - x.value|
      ≤ |x.reward| + |p.gamma * (if x.done then 0 else (p.networks r).critic x.nextObs)| +
          |x.value| := (abs_sub _ _).trans (add_le_add_left (abs_add_le _ _) _)
    _ ≤ R + p.gamma * V + V := add_le_add (add_le_add hreward hnext) hvalue
    _ = R + (1 + p.gamma) * V := by ring

omit [Zero Obs] [Zero Stored] in
/-- The advantages, by induction on the number of steps that are left. -/
lemma Collection.abs_advantage_le (h : p.Faithful envs r rollout) (hgamma : 0 ≤ p.gamma)
    (hlam : 0 ≤ p.gaeLambda) (hR : ∀ s a, |(p.env.step s a).2.2.1| ≤ R)
    (hV : ∀ obs, |(p.networks r).critic obs| ≤ V) (e : Fin numEnvs) :
    ∀ {k t : ℕ}, t + k = p.rolloutLength → 0 < k → |rollout.buffer.advantages t e| ≤
      (∑ i ∈ Finset.range k, (p.gamma * p.gaeLambda) ^ i) * (R + (1 + p.gamma) * V) := by
  intro k
  induction k with
  | zero => exact fun _ hk => absurd hk (Nat.lt_irrefl 0)
  | succ k ih =>
    intro t htk _
    have ht : t < p.rolloutLength := by omega
    have hrate : 0 ≤ p.gamma * p.gaeLambda := mul_nonneg hgamma hlam
    have hδ := abs_delta_le h hgamma hR hV ht e
    have hΔ : 0 ≤ R + (1 + p.gamma) * V := (abs_nonneg _).trans hδ
    have hsum : 0 ≤ ∑ i ∈ Finset.range k, (p.gamma * p.gaeLambda) ^ i :=
      Finset.sum_nonneg fun i _ => pow_nonneg hrate i
    obtain ⟨-, hboot⟩ := h.2 t ht e
    set x := (p.alone e).transition (envs e) (r * p.rolloutLength + t)
    have hrest : |if x.done then 0
        else if t + 1 = p.rolloutLength then 0 else rollout.buffer.advantages (t + 1) e| ≤
        (∑ i ∈ Finset.range k, (p.gamma * p.gaeLambda) ^ i) * (R + (1 + p.gamma) * V) := by
      split_ifs with hdone hlast
      · rw [abs_zero]
        exact mul_nonneg hsum hΔ
      · rw [abs_zero]
        exact mul_nonneg hsum hΔ
      · exact ih (by omega) (by omega)
    rw [hboot.advantage, geom_sum_succ]
    refine (abs_add_le _ _).trans ?_
    rw [abs_mul, abs_of_nonneg hrate]
    linarith [mul_le_mul_of_nonneg_left hrest hrate]

end Rollouts

open Scenario

end DistributedRL
