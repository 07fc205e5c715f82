import DistributedRL.Data.Derivative
import DistributedRL.Network.Mlp
import DistributedRL.Worker.Ratio

/-!
# The PPO loss

`compute_gradients` of `worker/ppo.py`: the clipped surrogate objective, the error of the critic and
the entropy bonus of one minibatch. The loss is computed on whole tensors; it is the mean of what
the rows contribute, and so is its derivative. A row whose ratio has left the clip range on the side
that its advantage points to contributes nothing to the policy.
-/

namespace DistributedRL

variable {𝕂 Noise : Type} {obsDim hidden actionDim : ℕ} {kind : ActionKind}

/-- `clip_eps`, `vf_coef` and `ent_coef`. -/
structure PpoConfig (𝕂 : Type) where
  clipEps : 𝕂
  vfCoef : 𝕂
  entCoef : 𝕂

/-- What `compute_gradients` returns. -/
structure LossStats (𝕂 : Type) where
  actorLoss : 𝕂
  criticLoss : 𝕂
  entropy : 𝕂
  totalLoss : 𝕂

/-- A row of a minibatch. -/
structure BatchRow (Obs Act 𝕂 : Type) where
  state : Obs
  action : Act
  logProb : 𝕂
  advantage : 𝕂
  ret : 𝕂

/-- The minibatch with the given rows. -/
def Minibatch.ofRows {Obs Act : Type} (rows : List (BatchRow Obs Act 𝕂)) : Minibatch Obs Act 𝕂 where
  states := rows.map BatchRow.state
  actions := rows.map BatchRow.action
  logProbs := rows.map BatchRow.logProb
  advantages := rows.map BatchRow.advantage
  returns := rows.map BatchRow.ret

/-- `t.mean()` -/
def Tensor.mean [Field 𝕂] (t : Tensor 𝕂) : 𝕂 := DistributedRL.mean ((indices t.shape).map t.get)

/-- `torch.clamp` -/
def clamp [LinearOrder 𝕂] (lo hi x : 𝕂) : 𝕂 := min (max x lo) hi

section Loss

variable [Field 𝕂] [LinearOrder 𝕂] [FloorRing 𝕂]

/-- The loss of `compute_gradients`. -/
def computeLoss (torch : Torch 𝕂 Noise actionDim) (config : PpoConfig 𝕂)
    (actor : Actor 𝕂 kind obsDim actionDim) (critic : Tensor 𝕂 → Option (Tensor 𝕂))
    (batch : Minibatch (Fin obsDim → 𝕂) (Fin (kind.storeDim actionDim) → 𝕂) 𝕂) :
    Option (LossStats 𝕂) :=
  let states := Tensor.ofRows batch.states
  let actions := Tensor.ofRows batch.actions
  let oldLogProbs := Tensor.ofList batch.logProbs
  let advantages := Tensor.ofList batch.advantages
  let returns := Tensor.ofList batch.returns
  (actor.evaluate torch states actions).bind fun (newLogProbs, entropyPerSample) =>
  let entropy := entropyPerSample.mean
  (Tensor.zipWith (· - ·) newLogProbs oldLogProbs).bind fun difference =>
  let ratio := difference.map torch.exp
  (Tensor.zipWith (· * ·) ratio advantages).bind fun surr1 =>
  let clipped := ratio.map (clamp (1 - config.clipEps) (1 + config.clipEps))
  (Tensor.zipWith (· * ·) clipped advantages).bind fun surr2 =>
  (Tensor.zipWith min surr1 surr2).bind fun surr =>
  let actorLoss := -surr.mean
  (critic states).bind fun values =>
  (Tensor.zipWith (fun v r => (v - r) ^ 2) values returns).map fun errors =>
  let criticLoss := errors.mean
  ⟨actorLoss, criticLoss, entropy,
    actorLoss + config.vfCoef * criticLoss - config.entCoef * entropy⟩

/-- What a row contributes to the surrogate objective. -/
def surrogate (clipEps ratio advantage : 𝕂) : 𝕂 :=
  min (ratio * advantage) (clamp (1 - clipEps) (1 + clipEps) ratio * advantage)

omit [LinearOrder 𝕂] [FloorRing 𝕂] in
lemma Tensor.IsVector.mean {t : Tensor 𝕂} {n : ℕ} {v : ℕ → 𝕂} (h : t.IsVector n v) :
    t.mean = DistributedRL.mean ((List.range n).map v) := by
  have hind : indices t.shape = (List.range n).map fun i => [i] := by
    rw [h.shape, List.map_eq_flatMap]
    simp [indices]
  rw [Tensor.mean, hind, List.map_map]
  congr 1
  refine List.map_congr_left fun i hi => ?_
  exact h.get i (List.mem_range.mp hi)

omit [LinearOrder 𝕂] [FloorRing 𝕂] in
/-- The mean over a tensor that has an entry for each row. -/
lemma Tensor.IsVector.mean_rows {ι : Type} {t : Tensor 𝕂} {rows : List ι} {v : ℕ → 𝕂} {f : ι → 𝕂}
    (h : t.IsVector rows.length v) (hv : ∀ (i : ℕ) (hi : i < rows.length), v i = f rows[i]) :
    t.mean = DistributedRL.mean (rows.map f) := by
  rw [h.mean]
  congr 1
  refine List.ext_getElem (by simp) fun i h₁ h₂ => ?_
  simpa using hv i (by simpa using h₂)

omit [LinearOrder 𝕂] [FloorRing 𝕂] in
lemma mean_combination {ι : Type} (rows : List ι) (f g h : ι → 𝕂) (a b : 𝕂) :
    -mean (rows.map f) + a * mean (rows.map g) - b * mean (rows.map h) =
      mean (rows.map fun row => -f row + a * g row - b * h row) := by
  have hsum : (rows.map fun row => -f row + a * g row - b * h row).sum =
      -(rows.map f).sum + a * (rows.map g).sum - b * (rows.map h).sum := by
    induction rows with
    | nil => simp
    | cons row rows ih =>
      simp only [List.map_cons, List.sum_cons, ih]
      ring
  simp only [mean, List.length_map, hsum]
  ring

/-- The loss is put together from what the rows contribute. -/
lemma computeLoss_rows (torch : Torch 𝕂 Noise actionDim) (config : PpoConfig 𝕂)
    (actor : Actor 𝕂 kind obsDim actionDim) {critic : Tensor 𝕂 → Option (Tensor 𝕂)}
    {value : (Fin obsDim → 𝕂) → 𝕂}
    (hcritic : ∀ {obs : Tensor 𝕂} {n} {x : ℕ → Fin obsDim → 𝕂}, obs.IsMatrix n x →
      ∃ v, critic obs = some v ∧ v.IsVector n fun i => value (x i))
    {rows : List (BatchRow (Fin obsDim → 𝕂) (Fin (kind.storeDim actionDim) → 𝕂) 𝕂)}
    {lp : BatchRow (Fin obsDim → 𝕂) (Fin (kind.storeDim actionDim) → 𝕂) 𝕂 → 𝕂}
    (hlp : ∀ row ∈ rows, actor.logProb torch row.state row.action = some (lp row)) :
    computeLoss torch config actor critic (.ofRows rows) =
      let actorLoss := -mean (rows.map fun row =>
        surrogate config.clipEps (torch.exp (lp row - row.logProb)) row.advantage)
      let criticLoss := mean (rows.map fun row => (value row.state - row.ret) ^ 2)
      let entropy := mean (rows.map fun row => actor.entropy torch row.state)
      some ⟨actorLoss, criticLoss, entropy,
        actorLoss + config.vfCoef * criticLoss - config.entCoef * entropy⟩ := by
  have hstates := Tensor.isMatrix_map rows (fun row => row.state)
  have hactions := Tensor.isMatrix_map rows (fun row => row.action)
  have hold := Tensor.isVector_map rows (fun row => row.logProb)
  have hadv := Tensor.isVector_map rows (fun row => row.advantage)
  have hret := Tensor.isVector_map rows (fun row => row.ret)
  have hnew : ∀ i < rows.length, actor.logProb torch ((rows.map fun row => row.state).getD i 0)
      ((rows.map fun row => row.action).getD i 0) = some ((rows.map lp).getD i 0) := by
    intro i hi
    simpa [hi] using hlp rows[i] (List.getElem_mem hi)
  obtain ⟨newLogProbs, entropy, heval, hlps⟩ := actor.evaluate_rows torch hstates hactions hnew
  have hent := actor.evaluate_entropy hstates heval
  obtain ⟨difference, hdiff, hdv⟩ := hlps.zipWith hold (· - ·)
  have hratio := hdv.map torch.exp
  obtain ⟨surr1, hs1, hv1⟩ := hratio.zipWith hadv (· * ·)
  obtain ⟨surr2, hs2, hv2⟩ :=
    (hratio.map (clamp (1 - config.clipEps) (1 + config.clipEps))).zipWith hadv (· * ·)
  obtain ⟨surr, hs, hv⟩ := hv1.zipWith hv2 min
  obtain ⟨values, hvalues, hval⟩ := hcritic hstates
  obtain ⟨errors, herr, hev⟩ := hval.zipWith hret fun v r => (v - r) ^ 2
  have hactor : surr.mean = mean (rows.map fun row =>
      surrogate config.clipEps (torch.exp (lp row - row.logProb)) row.advantage) :=
    hv.mean_rows fun i hi => by simp [hi, surrogate]
  have hcritic' : errors.mean = mean (rows.map fun row => (value row.state - row.ret) ^ 2) :=
    hev.mean_rows fun i hi => by simp [hi]
  have hentropy : entropy.mean = mean (rows.map fun row => actor.entropy torch row.state) :=
    hent.mean_rows fun i hi => by simp [hi]
  simp only [computeLoss, Minibatch.ofRows, heval, hdiff, hs1, hs2, hs, hvalues, herr,
    Option.bind_some, Option.map_some, hactor, hcritic', hentropy]

end Loss

/-! ### The surrogate of one row -/

section Surrogate

variable [Field 𝕂] [LinearOrder 𝕂] [IsStrictOrderedRing 𝕂] {clipEps ratio advantage : 𝕂}

/-- A positive advantage is cut off above the clip range. -/
lemma surrogate_of_nonneg (ha : 0 ≤ advantage) :
    surrogate clipEps ratio advantage = min ratio (1 + clipEps) * advantage := by
  rw [surrogate, ← min_mul_of_nonneg _ _ ha, clamp, ← min_assoc, min_eq_left (le_max_left _ _)]

/-- A negative advantage is cut off below it. -/
lemma surrogate_of_nonpos (heps : 0 ≤ clipEps) (ha : advantage ≤ 0) :
    surrogate clipEps ratio advantage = max ratio (1 - clipEps) * advantage := by
  have hle : 1 - clipEps ≤ 1 + clipEps := by linarith
  have hmax : max ratio (clamp (1 - clipEps) (1 + clipEps) ratio) = max ratio (1 - clipEps) := by
    rw [clamp, max_min_distrib_left, ← max_assoc, max_self]
    exact min_eq_left (max_le_max le_rfl hle)
  rw [surrogate, ← hmax]
  exact ((antitone_mul_right ha).map_max).symm

omit [IsStrictOrderedRing 𝕂] in
/-- The surrogate is below the unclipped objective. -/
lemma surrogate_le : surrogate clipEps ratio advantage ≤ ratio * advantage := min_le_left _ _

/-- The largest value that the surrogate of a row can take. -/
def surrogateBound (clipEps advantage : 𝕂) : 𝕂 :=
  (if 0 ≤ advantage then 1 + clipEps else 1 - clipEps) * advantage

lemma surrogate_le_bound (heps : 0 ≤ clipEps) :
    surrogate clipEps ratio advantage ≤ surrogateBound clipEps advantage := by
  rw [surrogateBound]
  split_ifs with ha
  · rw [surrogate_of_nonneg ha]
    exact mul_le_mul_of_nonneg_right (min_le_right _ _) ha
  · have ha := (not_le.mp ha).le
    rw [surrogate_of_nonpos heps ha]
    exact mul_le_mul_of_nonpos_right (le_max_right _ _) ha

omit [IsStrictOrderedRing 𝕂] in
/-- Within the clip range nothing is cut off. -/
lemma surrogate_eq (hlo : 1 - clipEps ≤ ratio) (hhi : ratio ≤ 1 + clipEps) :
    surrogate clipEps ratio advantage = ratio * advantage := by
  rw [surrogate, clamp, max_eq_left hlo, min_eq_left hhi, min_self]

/-- The ratio has left the clip range on the side that the advantage points to. -/
def Clipped (clipEps ratio advantage : 𝕂) : Prop :=
  0 < advantage ∧ 1 + clipEps < ratio ∨ advantage < 0 ∧ ratio < 1 - clipEps

instance : Decidable (Clipped clipEps ratio advantage) := inferInstanceAs (Decidable (_ ∨ _))

/-- The ratio is the bound at which the surrogate is cut off. -/
def AtBound (clipEps ratio advantage : 𝕂) : Prop :=
  0 < advantage ∧ ratio = 1 + clipEps ∨ advantage < 0 ∧ ratio = 1 - clipEps

lemma mean_le_mean {ι : Type} {rows : List ι} {f g : ι → 𝕂} (h : ∀ row ∈ rows, f row ≤ g row) :
    mean (rows.map f) ≤ mean (rows.map g) := by
  simp only [mean, List.length_map]
  gcongr
  exact List.sum_le_sum h

end Surrogate

/-- The derivative of the surrogate is that of the unclipped objective, or zero where the row is
clipped. -/
lemma hasFDerivAt_surrogate {E : Type*} [NormedAddCommGroup E] [NormedSpace ℝ E] {r : E → ℝ}
    {r' : E →L[ℝ] ℝ} {x : E} {clipEps advantage : ℝ} (heps : 0 ≤ clipEps)
    (h : HasFDerivAt r r' x) (hb : ¬ AtBound clipEps (r x) advantage) :
    HasFDerivAt (fun y => surrogate clipEps (r y) advantage)
      (if Clipped clipEps (r x) advantage then 0 else advantage • r') x := by
  rcases lt_trichotomy advantage 0 with hneg | rfl | hpos
  · have hne : r x ≠ 1 - clipEps := fun he => hb (Or.inr ⟨hneg, he⟩)
    simp only [surrogate_of_nonpos heps hneg.le]
    refine ((hasFDerivAt_max_const h hne).mul_const advantage).congr_fderiv ?_
    simp only [Clipped, hneg, hneg.not_gt, false_and, true_and, false_or]
    split_ifs with h₁ h₂ h₂
    · exact absurd h₂ h₁.not_gt
    · rfl
    · exact smul_zero _
    · exact absurd (lt_of_le_of_ne (not_lt.mp h₁) hne) h₂
  · simp only [surrogate, mul_zero, min_self, zero_smul, ite_self]
    exact hasFDerivAt_const 0 x
  · have hne : r x ≠ 1 + clipEps := fun he => hb (Or.inl ⟨hpos, he⟩)
    simp only [surrogate_of_nonneg hpos.le]
    refine ((hasFDerivAt_min_const h hne).mul_const advantage).congr_fderiv ?_
    simp only [Clipped, hpos, hpos.not_gt, false_and, true_and, or_false]
    split_ifs with h₁ h₂ h₂
    · exact absurd h₂ h₁.not_gt
    · rfl
    · exact smul_zero _
    · exact absurd (lt_of_le_of_ne (not_lt.mp h₁) hne.symm) h₂

/-! ### The gradient -/

section Gradient

variable {torch : Torch ℝ Noise actionDim} {config : PpoConfig ℝ}

/-- The loss as a function of the parameters. -/
noncomputable def Params.loss (torch : Torch ℝ Noise actionDim) (config : PpoConfig ℝ)
    (kind : ActionKind)
    (batch : Minibatch (Fin obsDim → ℝ) (Fin (kind.storeDim actionDim) → ℝ) ℝ)
    (θ : Params ℝ obsDim hidden actionDim) : Option (LossStats ℝ) :=
  computeLoss torch config (θ.1.actor Real.tanh kind) (θ.2.critic Real.tanh) batch

/-- The importance ratio of a row. -/
noncomputable def Params.ratio (torch : Torch ℝ Noise actionDim)
    (row : BatchRow (Fin obsDim → ℝ) (Fin (kind.storeDim actionDim) → ℝ) ℝ)
    (θ : Params ℝ obsDim hidden actionDim) : ℝ :=
  Real.exp (θ.1.logProb torch kind row.state row.action - row.logProb)

/-- What a row contributes to the gradient: nothing to the policy if it is clipped. -/
noncomputable def rowGradient (torch : Torch ℝ Noise actionDim) (config : PpoConfig ℝ)
    (row : BatchRow (Fin obsDim → ℝ) (Fin (kind.storeDim actionDim) → ℝ) ℝ)
    (θ : Params ℝ obsDim hidden actionDim) : Params ℝ obsDim hidden actionDim →L[ℝ] ℝ :=
  -(if Clipped config.clipEps (θ.ratio torch row) row.advantage then 0
    else (row.advantage * θ.ratio torch row) •
      fderiv ℝ (fun θ : Params ℝ obsDim hidden actionDim =>
        θ.1.logProb torch kind row.state row.action) θ) +
  (config.vfCoef * (2 * (θ.2.value Real.tanh row.state - row.ret))) •
    fderiv ℝ (fun θ : Params ℝ obsDim hidden actionDim => θ.2.value Real.tanh row.state) θ -
  config.entCoef • fderiv ℝ (fun θ : Params ℝ obsDim hidden actionDim =>
    (θ.1.actor Real.tanh kind).entropy torch row.state) θ

variable {rows : List (BatchRow (Fin obsDim → ℝ) (Fin (kind.storeDim actionDim) → ℝ) ℝ)}
  {θ : Params ℝ obsDim hidden actionDim}

/-- What a row contributes to the loss. -/
noncomputable def rowLoss (torch : Torch ℝ Noise actionDim) (config : PpoConfig ℝ)
    (row : BatchRow (Fin obsDim → ℝ) (Fin (kind.storeDim actionDim) → ℝ) ℝ)
    (θ : Params ℝ obsDim hidden actionDim) : ℝ :=
  -surrogate config.clipEps (θ.ratio torch row) row.advantage +
    config.vfCoef * (θ.2.value Real.tanh row.state - row.ret) ^ 2 -
    config.entCoef * (θ.1.actor Real.tanh kind).entropy torch row.state

lemma hasFDerivAt_rowLoss (htorch : torch.Documented) (heps : 0 ≤ config.clipEps)
    {row : BatchRow (Fin obsDim → ℝ) (Fin (kind.storeDim actionDim) → ℝ) ℝ}
    (hvalid : kind.Valid row.action)
    (hb : ¬ AtBound config.clipEps (θ.ratio torch row) row.advantage) :
    HasFDerivAt (rowLoss torch config row) (rowGradient torch config row θ) θ := by
  have hlp : Differentiable ℝ fun θ : Params ℝ obsDim hidden actionDim =>
      θ.1.logProb torch kind row.state row.action :=
    (ActorParams.differentiable_logProb htorch hvalid).comp differentiable_fst
  have hval : Differentiable ℝ fun θ : Params ℝ obsDim hidden actionDim =>
      θ.2.value Real.tanh row.state :=
    (Trunk.differentiable_value row.state).comp differentiable_snd
  have hent : Differentiable ℝ fun θ : Params ℝ obsDim hidden actionDim =>
      (θ.1.actor Real.tanh kind).entropy torch row.state :=
    (ActorParams.differentiable_entropy htorch).comp differentiable_fst
  have hratio := ((hlp θ).hasFDerivAt.sub_const row.logProb).exp
  have hsurr := hasFDerivAt_surrogate heps hratio hb
  have herr : HasFDerivAt (fun θ : Params ℝ obsDim hidden actionDim =>
      config.vfCoef * (θ.2.value Real.tanh row.state - row.ret) ^ 2)
      ((config.vfCoef * (2 * (θ.2.value Real.tanh row.state - row.ret))) • fderiv ℝ
        (fun θ : Params ℝ obsDim hidden actionDim => θ.2.value Real.tanh row.state) θ) θ := by
    simpa [smul_smul, mul_assoc] using
      (((hval θ).hasFDerivAt.sub_const row.ret).pow 2).const_mul config.vfCoef
  have hbonus := (hent θ).hasFDerivAt.const_mul config.entCoef
  refine ((hsurr.neg.add herr).sub hbonus).congr_fderiv ?_
  rw [rowGradient, smul_smul]
  rfl

variable (config) in
/-- The loss of a minibatch is the mean of what its rows contribute. -/
lemma loss_ofRows (htorch : torch.Documented) (hvalid : ∀ row ∈ rows, kind.Valid row.action) :
    ∃ stats : Params ℝ obsDim hidden actionDim → LossStats ℝ,
      ∀ θ, θ.loss torch config kind (.ofRows rows) = some (stats θ) ∧
        (stats θ).totalLoss = mean (rows.map fun row => rowLoss torch config row θ) ∧
        (stats θ).actorLoss = -mean (rows.map fun row =>
          surrogate config.clipEps (θ.ratio torch row) row.advantage) := by
  have h (θ : Params ℝ obsDim hidden actionDim) :=
    computeLoss_rows torch config (θ.1.actor Real.tanh kind) (θ.2.critic_rows Real.tanh)
      fun row hrow => ActorParams.logProb_of_valid θ.1 (hvalid row hrow)
  refine ⟨_, fun θ => ⟨h θ, ?_, ?_⟩⟩
  · rw [htorch.exp]
    exact mean_combination ..
  · rw [htorch.exp]
    rfl

/-- The derivative of the loss of a minibatch, at any parameters at which no ratio is exactly at the
bound where its row is cut off. -/
theorem totalLoss_gradient (htorch : torch.Documented) (heps : 0 ≤ config.clipEps)
    (hvalid : ∀ row ∈ rows, kind.Valid row.action)
    (hb : ∀ row ∈ rows, ¬ AtBound config.clipEps (θ.ratio torch row) row.advantage) :
    ∃ stats : Params ℝ obsDim hidden actionDim → LossStats ℝ,
      (∀ θ, θ.loss torch config kind (.ofRows rows) = some (stats θ)) ∧
        HasFDerivAt (fun θ => (stats θ).totalLoss)
          ((rows.length : ℝ)⁻¹ • (rows.map fun row => rowGradient torch config row θ).sum) θ := by
  obtain ⟨stats, hstats⟩ := loss_ofRows config htorch hvalid
  refine ⟨stats, fun θ => (hstats θ).1, ?_⟩
  simp only [(hstats _).2.1]
  exact hasFDerivAt_mean fun row hrow => hasFDerivAt_rowLoss htorch heps (hvalid row hrow)
    (hb row hrow)

/-- The surrogate objective is cautious. Whatever the parameters, it promises no more than the
unclipped one, and no more than a bound that does not depend on them; and it promises the same as
the unclipped one as long as the ratios stay within the clip range. -/
theorem actorLoss_cautious (htorch : torch.Documented) (heps : 0 ≤ config.clipEps)
    (hvalid : ∀ row ∈ rows, kind.Valid row.action) :
    ∃ stats : Params ℝ obsDim hidden actionDim → LossStats ℝ,
      (∀ θ, θ.loss torch config kind (.ofRows rows) = some (stats θ)) ∧
      (∀ θ, -mean (rows.map fun row => θ.ratio torch row * row.advantage) ≤ (stats θ).actorLoss) ∧
      (∀ θ, -mean (rows.map fun row => surrogateBound config.clipEps row.advantage) ≤
        (stats θ).actorLoss) ∧
      ∀ θ, (∀ row ∈ rows, |θ.ratio torch row - 1| ≤ config.clipEps) →
        (stats θ).actorLoss = -mean (rows.map fun row => θ.ratio torch row * row.advantage) := by
  obtain ⟨stats, hstats⟩ := loss_ofRows config htorch hvalid
  refine ⟨stats, fun θ => (hstats θ).1, fun θ => ?_, fun θ => ?_, fun θ hθ => ?_⟩
  · rw [(hstats θ).2.2]
    exact neg_le_neg (mean_le_mean fun row _ => surrogate_le)
  · rw [(hstats θ).2.2]
    exact neg_le_neg (mean_le_mean fun row _ => surrogate_le_bound heps)
  · rw [(hstats θ).2.2]
    congr 2
    refine List.map_congr_left fun row hrow => ?_
    obtain ⟨hlo, hhi⟩ := abs_le.mp (hθ row hrow)
    exact surrogate_eq (by linarith) (by linarith)

/-! ### The first step of an update -/

/-- What a row contributes at the parameters it was collected with: the plain policy gradient. -/
noncomputable def policyGradient (torch : Torch ℝ Noise actionDim) (config : PpoConfig ℝ)
    (row : BatchRow (Fin obsDim → ℝ) (Fin (kind.storeDim actionDim) → ℝ) ℝ)
    (θ : Params ℝ obsDim hidden actionDim) : Params ℝ obsDim hidden actionDim →L[ℝ] ℝ :=
  -(row.advantage • fderiv ℝ (fun θ : Params ℝ obsDim hidden actionDim =>
    θ.1.logProb torch kind row.state row.action) θ) +
  (config.vfCoef * (2 * (θ.2.value Real.tanh row.state - row.ret))) •
    fderiv ℝ (fun θ : Params ℝ obsDim hidden actionDim => θ.2.value Real.tanh row.state) θ -
  config.entCoef • fderiv ℝ (fun θ : Params ℝ obsDim hidden actionDim =>
    (θ.1.actor Real.tanh kind).entropy torch row.state) θ

/-- The row at a position of a buffer. -/
noncomputable def RolloutBuffer.row {Obs Act : Type} {numSteps numEnvs : ℕ}
    (b : RolloutBuffer Obs Act ℝ numSteps numEnvs) (μ d : ℝ) (c : ℕ × Fin numEnvs) :
    BatchRow Obs Act ℝ :=
  ⟨b.states c.1 c.2, b.actions c.1 c.2, b.logProbs c.1 c.2, (b.advantages c.1 c.2 - μ) / d,
    b.returns c.1 c.2⟩

lemma RolloutBuffer.rowsAt_eq {Obs Act : Type} {numSteps numEnvs : ℕ}
    (b : RolloutBuffer Obs Act ℝ numSteps numEnvs) (μ d : ℝ) (cells : List (ℕ × Fin numEnvs)) :
    b.rowsAt μ d cells = .ofRows (cells.map (b.row μ d)) := by
  simp [rowsAt, Minibatch.ofRows, row, Function.comp_def]

/-- The parameters are those that the row was collected with. -/
def Params.Collected (torch : Torch ℝ Noise actionDim)
    (row : BatchRow (Fin obsDim → ℝ) (Fin (kind.storeDim actionDim) → ℝ) ℝ)
    (θ : Params ℝ obsDim hidden actionDim) : Prop :=
  (θ.1.actor Real.tanh kind).logProb torch row.state row.action = some row.logProb

variable {row : BatchRow (Fin obsDim → ℝ) (Fin (kind.storeDim actionDim) → ℝ) ℝ}

lemma Params.Collected.valid (h : θ.Collected torch row) : kind.Valid row.action := by
  cases kind with
  | continuous => trivial
  | discrete =>
    obtain ⟨k, hk, -⟩ := Option.map_eq_some_iff.mp h
    rw [ActionKind.Valid, hk]
    rfl

lemma Params.Collected.ratio_eq_one (h : θ.Collected torch row) : θ.ratio torch row = 1 := by
  rw [ratio, ActorParams.logProb, h, Option.getD_some, sub_self, Real.exp_zero]

lemma Params.Collected.rowGradient_eq (h : θ.Collected torch row) (heps : 0 ≤ config.clipEps) :
    rowGradient torch config row θ = policyGradient torch config row θ := by
  have hnot : ¬ Clipped config.clipEps (θ.ratio torch row) row.advantage := by
    rw [h.ratio_eq_one]
    rintro (⟨-, hgt⟩ | ⟨-, hlt⟩) <;> linarith
  rw [rowGradient, policyGradient, if_neg hnot, h.ratio_eq_one, mul_one]

/-- The surrogate of the minibatch is the mean of its advantages, and the derivative of its loss is
the plain policy gradient. -/
def Params.Unclipped (torch : Torch ℝ Noise actionDim) (config : PpoConfig ℝ)
    (batch : Minibatch (Fin obsDim → ℝ) (Fin (kind.storeDim actionDim) → ℝ) ℝ)
    (θ : Params ℝ obsDim hidden actionDim) : Prop :=
  ∃ rows, ∃ stats : Params ℝ obsDim hidden actionDim → LossStats ℝ, batch = .ofRows rows ∧
    (∀ θ, θ.loss torch config kind batch = some (stats θ)) ∧
    (stats θ).actorLoss = -mean batch.advantages ∧
    HasFDerivAt (fun θ => (stats θ).totalLoss)
      ((rows.length : ℝ)⁻¹ • (rows.map fun row => policyGradient torch config row θ).sum) θ

/-- It is enough that its rows have been collected with these parameters. -/
lemma unclipped_of_collected (htorch : torch.Documented) (heps : 0 < config.clipEps)
    (hrows : ∀ row ∈ rows, θ.Collected torch row) :
    θ.Unclipped torch config (.ofRows rows) := by
  have hvalid : ∀ row ∈ rows, kind.Valid row.action := fun row hrow => (hrows row hrow).valid
  obtain ⟨stats, hstats⟩ := loss_ofRows config htorch hvalid
  refine ⟨rows, stats, rfl, fun θ => (hstats θ).1, ?_, ?_⟩
  · rw [(hstats θ).2.2]
    congr 2
    refine List.map_congr_left fun row hrow => ?_
    rw [(hrows row hrow).ratio_eq_one, surrogate_eq (by linarith) (by linarith), one_mul]
  · simp only [(hstats _).2.1]
    refine hasFDerivAt_mean fun row hrow => ?_
    rw [← (hrows row hrow).rowGradient_eq heps.le]
    refine hasFDerivAt_rowLoss htorch heps.le (hvalid row hrow) ?_
    rw [(hrows row hrow).ratio_eq_one]
    rintro (⟨-, he⟩ | ⟨-, he⟩) <;> linarith

/-- In every rollout, the first step of the update follows the plain policy gradient, whichever
minibatch comes first: nothing is clipped at the parameters that the rollout was collected with. -/
theorem firstStep_gradient {σ : Type} {numEnvs rolloutLength : ℕ}
    {env : Env σ (kind.Act ℝ actionDim) (Fin obsDim → ℝ) ℝ}
    {params : ℕ → Params ℝ obsDim hidden actionDim} {noise : ℕ → Fin numEnvs → Noise}
    {gamma gaeLambda : ℝ} {permutation : ℕ → List ℕ} {sqrt : ℝ → ℝ} {minibatchSize : ℤ}
    (htorch : torch.Documented) (heps : 0 < config.clipEps)
    (hdim : kind = .discrete → actionDim ≤ 2 ^ 24) (envs : Fin numEnvs → σ) (n : ℕ)
    (hperm : ∀ m, (permutation m).Perm (List.range m)) (hsize : 1 ≤ minibatchSize) :
    ∃ c rollouts, (workerCollection torch env rolloutLength
        (fun r => (params r).1.actor Real.tanh kind) (fun r => (params r).2.value Real.tanh)
        noise gamma gaeLambda).collect envs n = some (c, rollouts) ∧ rollouts.length = n ∧
      ∀ r rollout, rollouts[r]? = some rollout → ∃ batches,
        rollout.buffer.getMinibatches permutation sqrt minibatchSize = some batches ∧
        ∀ batch ∈ batches, (params r).Unclipped torch config batch := by
  set p := workerCollection torch env rolloutLength (fun r => (params r).1.actor Real.tanh kind)
    (fun r => (params r).2.value Real.tanh) noise gamma gaeLambda
  obtain ⟨c, rollouts, hrun, hlen, -, hall⟩ := p.collect_spec envs n
  refine ⟨c, rollouts, hrun, hlen, fun r rollout hr => ?_⟩
  have hfaithful := hall r rollout hr
  obtain ⟨q, hq, hbatches⟩ := rollout.buffer.getMinibatches_eq sqrt (hperm _) hsize
  refine ⟨_, hbatches, fun batch hbatch => ?_⟩
  obtain ⟨cells, hcells, rfl⟩ := List.mem_map.mp hbatch
  set μ := mean rollout.buffer.flatAdvantages
  set d := std sqrt rollout.buffer.flatAdvantages + 1 / 10 ^ 8
  have hrows : ∀ row ∈ cells.map (rollout.buffer.row μ d), (params r).Collected torch row := by
    intro row hrow
    obtain ⟨⟨t, e⟩, hc, rfl⟩ := List.mem_map.mp hrow
    have hmem : (t, e) ∈ q := by
      rw [← flatten_slices q (by omega : 0 < minibatchSize.toNat)]
      exact List.mem_flatten_of_mem hcells hc
    have ht : t < rollout.buffer.ptr := mem_grid.mp (hq.mem_iff.mp hmem)
    exact logProb_row hdim rfl rfl hfaithful (hfaithful.1 ▸ ht) e
  rw [rollout.buffer.rowsAt_eq μ d cells]
  exact unclipped_of_collected htorch heps hrows

end Gradient

namespace Scenario

lemma realTorch_documented (actionDim : ℕ) : (realTorch actionDim).Documented :=
  ⟨rfl, fun _ _ _ => rfl, fun _ _ => rfl, fun _ _ => rfl, fun _ => rfl⟩

/-- The usual configuration. -/
noncomputable def usual : PpoConfig ℝ := ⟨0.2, 0.5, 0.01⟩

/-- Networks of one unit, with no weights yet. -/
noncomputable def blank : Params ℝ 1 1 3 := 0

/-- Networks of two units each, of which the actor prefers later categories. -/
noncomputable def tilted : Params ℝ 1 2 3 :=
  ((((fun _ _ => 1, 0), (fun _ _ => 1, 0), (fun k _ => (k : ℕ), 0)), 0),
    ((fun _ _ => 1, 0), (fun _ _ => 1, 0), (fun _ _ => 1 / 2, 1)))

/-- A row that has the given ratio at these networks. -/
noncomputable def rowAt (ratio advantage : ℝ) :
    BatchRow (Fin 1 → ℝ) (Fin (ActionKind.discrete.storeDim 3) → ℝ) ℝ :=
  ⟨fun _ => 1, fun _ => 2, tilted.1.logProb (realTorch 3) .discrete (fun _ => 1) (fun _ => 2) -
    Real.log ratio, advantage, 2⟩

/-- A row that counts, and one that is clipped on either side. -/
noncomputable def mixedRows :
    List (BatchRow (Fin 1 → ℝ) (Fin (ActionKind.discrete.storeDim 3) → ℝ) ℝ) :=
  [rowAt 1 1, rowAt 2 1, rowAt (1 / 2) (-1)]

lemma rowAt_valid (ratio advantage : ℝ) :
    ActionKind.discrete.Valid (rowAt ratio advantage).action := by
  have hlong : long ((2 : ℝ)) = 2 := by norm_num [long]
  simp [ActionKind.Valid, rowAt, hlong, toFin]

lemma ratio_rowAt {ratio : ℝ} (h : 0 < ratio) (advantage : ℝ) :
    tilted.ratio (realTorch 3) (rowAt ratio advantage) = ratio := by
  rw [Params.ratio, rowAt, sub_sub_cancel, Real.exp_log h]

lemma mixedRows_valid : ∀ row ∈ mixedRows, ActionKind.discrete.Valid row.action := by
  simp only [mixedRows, List.forall_mem_cons]
  exact ⟨rowAt_valid _ _, rowAt_valid _ _, rowAt_valid _ _, fun _ h => (by cases h)⟩

lemma mixedRows_not_atBound : ∀ row ∈ mixedRows,
    ¬ AtBound usual.clipEps (tilted.ratio (realTorch 3) row) row.advantage := by
  simp only [mixedRows, List.forall_mem_cons, ratio_rowAt one_pos, ratio_rowAt two_pos,
    ratio_rowAt one_half_pos]
  refine ⟨?_, ?_, ?_, fun _ h => (by cases h)⟩ <;> norm_num [AtBound, rowAt, usual]

lemma mixedRows_clipped : mixedRows.map (fun row =>
    decide (Clipped usual.clipEps (tilted.ratio (realTorch 3) row) row.advantage)) =
      [false, true, true] := by
  simp only [mixedRows, List.map_cons, List.map_nil, ratio_rowAt one_pos, ratio_rowAt two_pos,
    ratio_rowAt one_half_pos]
  norm_num [Clipped, rowAt, usual]

end Scenario

open Scenario

/-- Three rows, of which two are clipped. -/
theorem totalLoss_gradient_mixedRows :
    mixedRows.map (fun row =>
      decide (Clipped usual.clipEps (tilted.ratio (realTorch 3) row) row.advantage)) =
        [false, true, true] ∧
    ∃ stats : Params ℝ 1 2 3 → LossStats ℝ,
      (∀ θ : Params ℝ 1 2 3,
        θ.loss (realTorch 3) usual .discrete (.ofRows mixedRows) = some (stats θ)) ∧
        HasFDerivAt (fun θ => (stats θ).totalLoss)
          (((mixedRows.length : ℕ) : ℝ)⁻¹ •
            (mixedRows.map fun row => rowGradient (realTorch 3) usual row tilted).sum) tilted :=
  ⟨mixedRows_clipped, totalLoss_gradient (realTorch_documented 3) (by norm_num [usual])
    mixedRows_valid mixedRows_not_atBound⟩

theorem actorLoss_cautious_mixedRows :
    ∃ stats : Params ℝ 1 2 3 → LossStats ℝ,
      (∀ θ : Params ℝ 1 2 3,
        θ.loss (realTorch 3) usual .discrete (.ofRows mixedRows) = some (stats θ)) ∧
      ∀ θ, -(1.6 / 3) ≤ (stats θ).actorLoss := by
  have heps : 0 ≤ usual.clipEps := by norm_num [usual]
  obtain ⟨stats, hstats, -, hbound, -⟩ :=
    actorLoss_cautious (realTorch_documented 3) heps mixedRows_valid
  refine ⟨stats, hstats, fun θ => ?_⟩
  have h := hbound θ
  norm_num [mean, surrogateBound, mixedRows, rowAt, usual] at h ⊢
  exact h

/-- One rollout of three steps, in minibatches of two and of one row. -/
theorem firstStep_gradient_blank : ∃ c rollouts, (workerCollection (realTorch 3) (counting ℝ) 3
      (fun _ => blank.1.actor Real.tanh .discrete) (fun _ => blank.2.value Real.tanh)
      (fun n (_ : Fin 1) => (fun _ => 0, Fin.ofNat 3 n)) 1 1).collect (fun _ => 0) 1 =
        some (c, rollouts) ∧ rollouts.length = 1 ∧
      ∀ (r : ℕ) rollout, rollouts[r]? = some rollout → ∃ batches,
        rollout.buffer.getMinibatches reversed Real.sqrt 2 = some batches ∧
        ∀ batch ∈ batches, blank.Unclipped (realTorch 3) usual batch := by
  have hperm : ∀ m, (reversed m).Perm (List.range m) := fun m => List.reverse_perm _
  exact firstStep_gradient (realTorch_documented 3)
    (by norm_num [usual]) (fun _ => by norm_num) (fun _ => 0) 1 hperm (by norm_num)

end DistributedRL
