import DistributedRL.Network.Actor
import DistributedRL.Worker.Collection
import DistributedRL.Worker.Minibatches
import Mathlib.Analysis.SpecialFunctions.Log.Basic
import Mathlib.Analysis.SpecialFunctions.Sqrt
import Mathlib.Analysis.SpecialFunctions.Trigonometric.Basic

/-!
# Importance ratios

The two ways in which an action gets its log-probability: where `worker_main` samples it, for all
environments at once, and where `compute_gradients` evaluates a minibatch of stored actions. Both
treat the rows one by one and agree on each of them, so the ratio of a minibatch is one as long as
the weights are those of the collection.
-/

namespace DistributedRL

variable {σ 𝕂 Noise : Type} {obsDim actionDim numEnvs : ℕ} {kind : ActionKind}

/-- What an environment is stepped with. -/
def ActionKind.Act (𝕂 : Type) (actionDim : ℕ) : ActionKind → Type
  | .continuous => Fin actionDim → 𝕂
  | .discrete => ℤ

/-- What is stored of an action: an index as a column of `float32`. -/
def ActionKind.actionType (𝕂 : Type) [IntCast 𝕂] (actionDim : ℕ) : (kind : ActionKind) →
    ActionType (kind.Act 𝕂 actionDim) (Fin (kind.storeDim actionDim) → 𝕂)
  | .continuous => .continuous 𝕂 actionDim
  | .discrete => ⟨fun action _ => float32 𝕂 action⟩

/-- What the worker makes of a batch of observations: `env_actions`, `stored_actions` and
`log_probs`. -/
structure Sampled (𝕂 : Type) (kind : ActionKind) (actionDim : ℕ) where
  envActions : ℕ → kind.Act 𝕂 actionDim
  storedActions : Tensor 𝕂
  logProbs : Tensor 𝕂

namespace Actor

variable [Field 𝕂] (torch : Torch 𝕂 Noise actionDim)

/-- The sampling of `worker_main`: one forward pass for all environments. -/
def sampleBatch (obs : Tensor 𝕂) (noise : ℕ → Noise) : {kind : ActionKind} →
    Actor 𝕂 kind obsDim actionDim → Option (Sampled 𝕂 kind actionDim)
  | .continuous, actor => (actor.distribution torch obs).bind fun
    | .normal loc scale => (loc.rows actionDim).bind fun l => (scale.rows actionDim).bind fun s =>
      let sample i := torch.normalSample (l.get i) (s.get i) (noise (i.headD 0))
      let actions := Tensor.join ⟨l.shape, sample⟩
      ((torch.normalLogProbs loc scale actions).bind Tensor.sumLast).map fun logProbs =>
        ⟨fun e j => actions.get [e, j], actions, logProbs⟩
  | .discrete, actor => (actor.distribution torch obs).bind fun
    | .categorical logits =>
      let sample i := (torch.categoricalSample (logits.get i) (noise (i.headD 0)) : ℤ)
      let actions : Tensor ℤ := ⟨logits.shape, sample⟩
      (torch.categoricalLogProbs logits actions).bind fun logProbs =>
        (actions.map (float32 𝕂)).column.map fun stored =>
          ⟨fun e => actions.get [e], stored, logProbs⟩

/-- The sampling of one row. -/
def sample : {kind : ActionKind} → Actor 𝕂 kind obsDim actionDim → (Fin obsDim → 𝕂) → Noise →
    kind.Act 𝕂 actionDim × 𝕂
  | .continuous, actor, obs, noise =>
    let action := torch.normalSample (actor.trunk obs) (actor.std torch) noise
    (action, (List.ofFn fun j =>
      torch.normalLogProb (actor.trunk obs j) (actor.std torch j) (action j)).sum)
  | .discrete, actor, obs, noise =>
    let k := torch.categoricalSample (actor.trunk obs) noise
    ((k : ℤ), torch.categoricalLogProb (actor.trunk obs) k)

/-- The rows of a batch are sampled one by one. -/
structure SamplesRows (actor : Actor 𝕂 kind obsDim actionDim) (n : ℕ) (x : ℕ → Fin obsDim → 𝕂)
    (noise : ℕ → Noise) (s : Sampled 𝕂 kind actionDim) : Prop where
  envActions : ∀ e < n, s.envActions e = (actor.sample torch (x e) (noise e)).1
  storedActions : s.storedActions.IsMatrix n fun e =>
    (kind.actionType 𝕂 actionDim).stored (actor.sample torch (x e) (noise e)).1
  logProbs : s.logProbs.IsVector n fun e => (actor.sample torch (x e) (noise e)).2

lemma sampleBatch_rows (actor : Actor 𝕂 kind obsDim actionDim) {obs : Tensor 𝕂} {n : ℕ}
    {x : ℕ → Fin obsDim → 𝕂} (h : obs.IsMatrix n x) (noise : ℕ → Noise) :
    ∃ s, actor.sampleBatch torch obs noise = some s ∧ actor.SamplesRows torch n x noise s := by
  cases kind with
  | continuous =>
    obtain ⟨loc, scale, hdist, hloc, hscale⟩ := actor.distribution_continuous torch h
    obtain ⟨l, hl, hlrows⟩ := hloc.rows
    obtain ⟨s, hs, hsrows⟩ := hscale.rows
    let sample i := torch.normalSample (l.get i) (s.get i) (noise (i.headD 0))
    have hsample : Tensor.IsVector ⟨l.shape, sample⟩ n fun e =>
        torch.normalSample (actor.trunk (x e)) (actor.std torch) (noise e) := by
      refine ⟨hlrows.shape, ?_⟩
      intro e he
      dsimp only [sample]
      rw [hlrows.get e he, hsrows.get e he, List.headD_cons]
    have hactions := hsample.join
    obtain ⟨lp, hlp, hmat⟩ := normalLogProbs_rows torch hloc hscale hactions
    obtain ⟨logProbs, hsum, hvec⟩ := hmat.sumLast
    let actions := Tensor.join ⟨l.shape, sample⟩
    refine ⟨⟨fun e j => actions.get [e, j], actions, logProbs⟩, ?_, ?_, hactions, hvec⟩
    · simp only [sampleBatch, hdist, Option.bind_some, hl, hs, sample, hlp, hsum, Option.map_some]
      rfl
    · intro e he
      funext j
      exact hactions.get e he j
  | discrete =>
    obtain ⟨logits, hdist, hvec⟩ := actor.distribution_discrete torch h
    let sample i := (torch.categoricalSample (logits.get i) (noise (i.headD 0)) : ℤ)
    let actions : Tensor ℤ := ⟨logits.shape, sample⟩
    have hactions : actions.IsVector n fun e =>
        torch.categoricalSample (actor.trunk (x e)) (noise e) := by
      refine ⟨hvec.shape, ?_⟩
      intro e he
      dsimp only [actions, sample]
      rw [hvec.get e he, List.headD_cons]
    have hval : ∀ e < n, (toFin actionDim (torch.categoricalSample (actor.trunk (x e)) (noise e))).map
        (torch.categoricalLogProb (actor.trunk (x e))) =
          some (actor.sample torch (x e) (noise e)).2 := by
      intro e _
      rw [toFin_val]
      rfl
    obtain ⟨logProbs, hlp, hlps⟩ := categoricalLogProbs_rows torch hvec hactions hval
    obtain ⟨stored, hstored, hmat⟩ := (hactions.map (float32 𝕂)).column
    refine ⟨⟨fun e => actions.get [e], stored, logProbs⟩, ?_, ?_, hmat, hlps⟩
    · simp only [sampleBatch, hdist, Option.bind_some]
      rw [hlp, Option.bind_some, hstored, Option.map_some]
    · intro e he
      exact hactions.get e he

variable [LinearOrder 𝕂] [FloorRing 𝕂]

/-- The stored index is read back, and its log-probability is that of the sample. -/
lemma logProb_stored [IsStrictOrderedRing 𝕂] (actor : Actor 𝕂 kind obsDim actionDim)
    (hdim : kind = .discrete → actionDim ≤ 2 ^ 24) (obs : Fin obsDim → 𝕂) (noise : Noise) :
    actor.logProb torch obs
        ((kind.actionType 𝕂 actionDim).stored (actor.sample torch obs noise).1) =
      some (actor.sample torch obs noise).2 := by
  cases kind with
  | continuous => rfl
  | discrete =>
    have hk := (torch.categoricalSample (actor.trunk obs) noise).isLt
    have hle := hdim rfl
    have hlong : long (float32 𝕂 (torch.categoricalSample (actor.trunk obs) noise)) =
        (torch.categoricalSample (actor.trunk obs) noise : ℤ) := long_float32 (by omega)
    simp only [logProb, ActionKind.actionType, sample, hlong, toFin_val, Option.map_some]

/-- `ratio` in `compute_gradients` -/
def ratio (actor : Actor 𝕂 kind obsDim actionDim)
    (batch : Minibatch (Fin obsDim → 𝕂) (Fin (kind.storeDim actionDim) → 𝕂) 𝕂) :
    Option (Tensor 𝕂) :=
  let states := Tensor.ofRows batch.states
  let actions := Tensor.ofRows batch.actions
  let oldLogProbs := Tensor.ofList batch.logProbs
  (actor.evaluate torch states actions).bind fun (newLogProbs, _) =>
    (Tensor.zipWith (· - ·) newLogProbs oldLogProbs).map fun d => d.map torch.exp

/-- The log-probabilities that `evaluate` gives a minibatch are the stored ones, and its ratios are
one. -/
structure Agrees (actor : Actor 𝕂 kind obsDim actionDim)
    (batch : Minibatch (Fin obsDim → 𝕂) (Fin (kind.storeDim actionDim) → 𝕂) 𝕂) : Prop where
  evaluate : ∃ logProb entropy, actor.evaluate torch (Tensor.ofRows batch.states)
    (Tensor.ofRows batch.actions) = some (logProb, entropy) ∧
      logProb.Same (Tensor.ofList batch.logProbs)
  ratio : ∃ ratio, actor.ratio torch batch = some ratio ∧
    ratio.Same (Tensor.ofList (batch.logProbs.map fun _ => 1))

/-- It is enough that the rows agree. -/
lemma agrees_rowsAt (hexp : torch.exp 0 = 1) (actor : Actor 𝕂 kind obsDim actionDim) {T : ℕ}
    (b : RolloutBuffer (Fin obsDim → 𝕂) (Fin (kind.storeDim actionDim) → 𝕂) 𝕂 T numEnvs)
    (μ d : 𝕂) {cells : List (ℕ × Fin numEnvs)}
    (h : ∀ c ∈ cells, actor.logProb torch (b.states c.1 c.2) (b.actions c.1 c.2) =
      some (b.logProbs c.1 c.2)) : actor.Agrees torch (b.rowsAt μ d cells) := by
  have hstates : (Tensor.ofRows (b.rowsAt μ d cells).states).IsMatrix cells.length _ :=
    Tensor.isMatrix_map cells _
  have hactions : (Tensor.ofRows (b.rowsAt μ d cells).actions).IsMatrix cells.length _ :=
    Tensor.isMatrix_map cells _
  have hold : (Tensor.ofList (b.rowsAt μ d cells).logProbs).IsVector cells.length _ :=
    Tensor.isVector_map cells _
  have hlp : ∀ i < cells.length,
      actor.logProb torch ((cells.map fun c => b.states c.1 c.2).getD i 0)
        ((cells.map fun c => b.actions c.1 c.2).getD i 0) =
      some ((cells.map fun c => b.logProbs c.1 c.2).getD i 0) := by
    intro i hi
    simpa [hi] using h cells[i] (List.getElem_mem hi)
  obtain ⟨logProb, entropy, heval, hnew⟩ := actor.evaluate_rows torch hstates hactions hlp
  obtain ⟨diff, hdiff, hvec⟩ := hnew.zipWith hold (· - ·)
  refine ⟨⟨logProb, entropy, heval, hnew.same hold⟩, diff.map torch.exp, ?_, ?_⟩
  · simp only [Actor.ratio, heval, Option.bind_some, hdiff, Option.map_some]
  · have hone : (diff.map torch.exp).IsVector cells.length fun _ => 1 := by
      refine ⟨hvec.shape, ?_⟩
      intro i hi
      rw [(hvec.map torch.exp).get i hi, sub_self, hexp]
    have hones := Tensor.isVector_map (b.rowsAt μ d cells).logProbs fun _ => (1 : 𝕂)
    refine hone.same ⟨?_, ?_⟩
    · rw [hones.shape]
      simp [RolloutBuffer.rowsAt]
    · intro i hi
      have hi' : i < (b.rowsAt μ d cells).logProbs.length := by simpa [RolloutBuffer.rowsAt] using hi
      rw [hones.get i hi']
      simp [hi']

/-- The networks of one rollout. -/
def networks (actor : Actor 𝕂 kind obsDim actionDim) (critic : (Fin obsDim → 𝕂) → 𝕂) :
    Networks (kind.Act 𝕂 actionDim) (Fin obsDim → 𝕂) Noise 𝕂 :=
  ⟨actor.sample torch, critic⟩

end Actor

/-- The collection loop of `worker_main` with the actors and critics of its rollouts. -/
def workerCollection [Field 𝕂] (torch : Torch 𝕂 Noise actionDim)
    (env : Env σ (kind.Act 𝕂 actionDim) (Fin obsDim → 𝕂) 𝕂) (rolloutLength : ℕ)
    (actors : ℕ → Actor 𝕂 kind obsDim actionDim) (critics : ℕ → (Fin obsDim → 𝕂) → 𝕂)
    (noise : ℕ → Fin numEnvs → Noise) (gamma gaeLambda : 𝕂) :
    Collection σ (kind.Act 𝕂 actionDim) (Fin obsDim → 𝕂) (Fin (kind.storeDim actionDim) → 𝕂) Noise
      𝕂 numEnvs where
  env := env
  actionType := kind.actionType 𝕂 actionDim
  rolloutLength := rolloutLength
  networks r := (actors r).networks torch (critics r)
  noise := noise
  gamma := gamma
  gaeLambda := gaeLambda

variable [Field 𝕂] [LinearOrder 𝕂] [IsStrictOrderedRing 𝕂] [FloorRing 𝕂]
  {torch : Torch 𝕂 Noise actionDim} {env : Env σ (kind.Act 𝕂 actionDim) (Fin obsDim → 𝕂) 𝕂}
  {rolloutLength : ℕ} {actors : ℕ → Actor 𝕂 kind obsDim actionDim}
  {critics : ℕ → (Fin obsDim → 𝕂) → 𝕂} {noise : ℕ → Fin numEnvs → Noise} {gamma gaeLambda : 𝕂}

/-- Every row of a rollout agrees with the actor that it was collected with. -/
lemma logProb_row {p : Collection σ (kind.Act 𝕂 actionDim) (Fin obsDim → 𝕂)
      (Fin (kind.storeDim actionDim) → 𝕂) Noise 𝕂 numEnvs}
    (hdim : kind = .discrete → actionDim ≤ 2 ^ 24) {actor : Actor 𝕂 kind obsDim actionDim}
    {critic : (Fin obsDim → 𝕂) → 𝕂} {r : ℕ} (hnet : p.networks r = actor.networks torch critic)
    (htype : p.actionType = kind.actionType 𝕂 actionDim) {envs : Fin numEnvs → σ}
    {rollout : Rollout (Fin obsDim → 𝕂) (Fin (kind.storeDim actionDim) → 𝕂) 𝕂 p.rolloutLength
      numEnvs} (h : p.Faithful envs r rollout) {t : ℕ} (ht : t < p.rolloutLength)
    (e : Fin numEnvs) :
    actor.logProb torch (rollout.buffer.states t e) (rollout.buffer.actions t e) =
      some (rollout.buffer.logProbs t e) := by
  obtain ⟨hrow, -⟩ := h.2 t ht e
  have hx := ((p.alone e).step_of_before (s := envs e) (n := r * p.rolloutLength + t) rfl
    (Collection.div_rolloutLength ht)).1
  have hsample : (p.alone e).networks r = actor.networks torch critic := hnet
  rw [hrow.states, hrow.actions, hrow.logProbs, hx, htype, hsample]
  exact actor.logProb_stored torch hdim _ _

/-- Collection and evaluation agree. The batch that the worker samples from is treated row by row;
and in every rollout, every minibatch has the log-probabilities that the actor of that rollout gives
it, so its ratios are one. -/
theorem evaluate_agrees (hexp : torch.exp 0 = 1) (hdim : kind = .discrete → actionDim ≤ 2 ^ 24)
    (envs : Fin numEnvs → σ) (n : ℕ) {permutation : ℕ → List ℕ} {sqrt : 𝕂 → 𝕂} {minibatchSize : ℤ}
    (hperm : ∀ m, (permutation m).Perm (List.range m)) (hsize : 1 ≤ minibatchSize) :
    (∀ r (obs : List (Fin obsDim → 𝕂)) (noise : ℕ → Noise), ∃ s,
      (actors r).sampleBatch torch (Tensor.ofRows obs) noise = some s ∧
      (actors r).SamplesRows torch obs.length (obs.getD · 0) noise s) ∧
    ∃ c rollouts,
      (workerCollection torch env rolloutLength actors critics noise gamma gaeLambda).collect envs n =
        some (c, rollouts) ∧ rollouts.length = n ∧
      ∀ r rollout, rollouts[r]? = some rollout → ∃ batches,
        rollout.buffer.getMinibatches permutation sqrt minibatchSize = some batches ∧
        ∀ batch ∈ batches, (actors r).Agrees torch batch := by
  refine ⟨fun r obs noise => (actors r).sampleBatch_rows torch (Tensor.isMatrix_ofRows obs) noise,
    ?_⟩
  obtain ⟨c, rollouts, hrun, hlen, -, hall⟩ := Collection.collect_spec
    (workerCollection torch env rolloutLength actors critics noise gamma gaeLambda) envs n
  refine ⟨c, rollouts, hrun, hlen, ?_⟩
  intro r rollout hr
  have hfaithful := hall r rollout hr
  obtain ⟨q, hq, hbatches⟩ := rollout.buffer.getMinibatches_eq sqrt (hperm _) hsize
  refine ⟨_, hbatches, ?_⟩
  intro batch hbatch
  obtain ⟨cells, hcells, rfl⟩ := List.mem_map.mp hbatch
  refine (actors r).agrees_rowsAt torch hexp rollout.buffer _ _ ?_
  intro c hc
  have hmem : c ∈ q := by
    rw [← flatten_slices q (by omega : 0 < minibatchSize.toNat)]
    exact List.mem_flatten_of_mem hcells hc
  obtain ⟨t, e⟩ := c
  have ht : t < rollout.buffer.ptr := mem_grid.mp (hq.mem_iff.mp hmem)
  exact logProb_row hdim rfl rfl hfaithful (hfaithful.1 ▸ ht) e

namespace Scenario

/-- The distributions over the reals; a sample is given by standard normal values and an index. -/
noncomputable def realTorch (actionDim : ℕ) :
    Torch ℝ ((Fin actionDim → ℝ) × Fin actionDim) actionDim where
  exp := Real.exp
  normalLogProb loc scale value := -(value - loc) ^ 2 / (2 * scale ^ 2) - Real.log scale -
    Real.log (Real.sqrt (2 * Real.pi))
  normalEntropy _ scale := 1 / 2 + Real.log (2 * Real.pi) / 2 + Real.log scale
  normalSample loc scale noise j := loc j + scale j * noise.1 j
  categoricalLogProb logits k := logits k - Real.log (∑ j, Real.exp (logits j))
  categoricalEntropy logits :=
    Real.log (∑ j, Real.exp (logits j)) -
      (∑ j, logits j * Real.exp (logits j)) / ∑ j, Real.exp (logits j)
  categoricalSample _ noise := noise.2

/-- An environment that counts its steps. -/
def counting (𝕂 : Type) [Field 𝕂] : Env ℕ (ActionKind.discrete.Act 𝕂 3) (Fin 1 → 𝕂) 𝕂 where
  reset _ := (0, fun _ => 0)
  step s _ := (s + 1, fun _ => s + 1, 1, false)

/-- An actor with three choices. -/
def threeChoices (𝕂 : Type) [Field 𝕂] : Actor 𝕂 .discrete 1 3 := ⟨fun x j => x 0 * j, fun _ => 0⟩

/-- One environment, the indices drawn in turn. -/
noncomputable def counted : Collection ℕ ℤ (Fin 1 → ℝ) (Fin 1 → ℝ) ((Fin 3 → ℝ) × Fin 3) ℝ 1 :=
  workerCollection (realTorch 3) (counting ℝ) 3 (fun _ => threeChoices ℝ)
    (fun _ _ => 0) (fun n _ => (fun _ => 0, Fin.ofNat 3 n)) 1 1

end Scenario

open Scenario

/-- Batches of two and of one row. -/
theorem evaluate_agrees_threeChoices : ∃ c rollouts,
    counted.collect (fun _ => 0) 1 = some (c, rollouts) ∧ rollouts.length = 1 ∧
      ∀ (r : ℕ) (rollout : Rollout (Fin 1 → ℝ) (Fin 1 → ℝ) ℝ 3 1), rollouts[r]? = some rollout →
        ∃ batches, rollout.buffer.getMinibatches reversed Real.sqrt 2 = some batches ∧
          ∀ batch ∈ batches, (threeChoices ℝ).Agrees (realTorch 3) batch := by
  have hdim : ActionKind.discrete = .discrete → 3 ≤ 2 ^ 24 := fun _ => by norm_num
  have hperm : ∀ m, (reversed m).Perm (List.range m) := fun m => List.reverse_perm _
  have hsize : (1 : ℤ) ≤ 2 := by norm_num
  exact (evaluate_agrees Real.exp_zero hdim (fun _ => 0) 1 hperm hsize).2

end DistributedRL
