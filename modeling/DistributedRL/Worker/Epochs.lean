import DistributedRL.Worker.Ppo

/-!
# The epochs of an update

The local PPO update of `worker_main`: for each epoch a new permutation of the rollout, and for each
minibatch a step of the optimizer on the gradients of that minibatch. `backward` adds to the
gradients that are there already, so this needs `zero_grad`. The derivative of the loss, the
clipping of its norm and the optimizer are parameters.
-/

namespace DistributedRL

variable {P G S : Type} {Obs Act 𝕂 : Type} {numSteps numEnvs : ℕ}

/-- What the update is run with: the loss of a minibatch and its derivative, `clip_grad_norm_`, and a
step of the optimizer. -/
structure Optimization (P G S Obs Act 𝕂 : Type) where
  loss : P → Minibatch Obs Act 𝕂 → Option (LossStats 𝕂 × G)
  clipGradNorm : G → G
  optimizerStep : S → P → G → S × P

/-- The parameters, their `.grad`, the state of the optimizer and `epoch_losses`. -/
structure Update (P G S 𝕂 : Type) where
  params : P
  grad : Option G
  optimizer : S
  losses : List (LossStats 𝕂)

namespace Update

/-- `optimizer.zero_grad(set_to_none=True)` -/
def zeroGrad (s : Update P G S 𝕂) : Update P G S 𝕂 := { s with grad := none }

variable (o : Optimization P G S Obs Act 𝕂)

/-- `compute_gradients`, which adds to the gradients. -/
def computeGradients [Add G] (s : Update P G S 𝕂) (batch : Minibatch Obs Act 𝕂) :
    Option (Update P G S 𝕂 × LossStats 𝕂) :=
  (o.loss s.params batch).map fun (stats, g) =>
    ({ s with grad := some (s.grad.elim g (· + g)) }, stats)

/-- `clip_grad_norm_` -/
def clipGradNorm (s : Update P G S 𝕂) : Update P G S 𝕂 :=
  { s with grad := s.grad.map o.clipGradNorm }

/-- `optimizer.step()`, which passes over parameters without gradients. -/
def optimizerStep (s : Update P G S 𝕂) : Update P G S 𝕂 :=
  match s.grad with
  | none => s
  | some g => { s with
      optimizer := (o.optimizerStep s.optimizer s.params g).1
      params := (o.optimizerStep s.optimizer s.params g).2 }

/-- The loop body for one minibatch. -/
def minibatch [Add G] (s : Update P G S 𝕂) (batch : Minibatch Obs Act 𝕂) :
    Option (Update P G S 𝕂) :=
  (s.zeroGrad.computeGradients o batch).map fun (s, stats) =>
    let s := (s.clipGradNorm o).optimizerStep o
    { s with losses := s.losses ++ [stats] }

variable [Field 𝕂] (b : RolloutBuffer Obs Act 𝕂 numSteps numEnvs)
  (permutation : ℕ → ℕ → List ℕ) (sqrt : 𝕂 → 𝕂) (minibatchSize : ℤ)

/-- `for batch in buffer.get_minibatches(config.minibatch_size)`, in one epoch. -/
def epoch [Add G] (s : Update P G S 𝕂) (epoch : ℕ) : Option (Update P G S 𝕂) :=
  (b.getMinibatches (permutation epoch) sqrt minibatchSize).bind fun batches =>
    batches.foldlM (minibatch o) s

/-- `for epoch in range(config.ppo_epochs)` -/
def epochs [Add G] (s : Update P G S 𝕂) (ppoEpochs : ℤ) : Option (Update P G S 𝕂) :=
  (List.range ppoEpochs.toNat).foldlM (epoch o b permutation sqrt minibatchSize) s

end Update

/-! ### Without accumulation -/

namespace Optimization

variable (o : Optimization P G S Obs Act 𝕂)

/-- The parameters, the state of the optimizer and the losses so far. -/
structure Progress (P S 𝕂 : Type) where
  params : P
  optimizer : S
  losses : List (LossStats 𝕂)

/-- A step of the optimizer along the clipped gradient of one minibatch. -/
def step (x : Progress P S 𝕂) (batch : Minibatch Obs Act 𝕂) : Option (Progress P S 𝕂) :=
  (o.loss x.params batch).map fun (stats, g) =>
    let (optimizer, params) := o.optimizerStep x.optimizer x.params (o.clipGradNorm g)
    ⟨params, optimizer, x.losses ++ [stats]⟩

end Optimization

namespace Update

variable {o : Optimization P G S Obs Act 𝕂}

/-- What is left of a state without its gradients. -/
def progress (s : Update P G S 𝕂) : Optimization.Progress P S 𝕂 := ⟨s.params, s.optimizer, s.losses⟩

/-- The gradients that were there before do not count. -/
lemma progress_minibatch [Add G] (s : Update P G S 𝕂) (batch : Minibatch Obs Act 𝕂) :
    (s.minibatch o batch).map progress = o.step s.progress batch := by
  simp only [minibatch, computeGradients, zeroGrad, Optimization.step, progress, Option.map_map]
  rfl

/-- Folding a function of the state that a view commutes with. -/
lemma foldlM_view {σ τ ι : Type} {f : σ → ι → Option σ} {g : τ → ι → Option τ} {view : σ → τ}
    (h : ∀ s i, (f s i).map view = g (view s) i) (l : List ι) (s : σ) :
    (l.foldlM f s).map view = l.foldlM g (view s) := by
  induction l generalizing s with
  | nil => rfl
  | cons i l ih =>
    rw [List.foldlM_cons, List.foldlM_cons, ← h s i]
    cases f s i with
    | none => rfl
    | some s' => exact ih s'

/-- Folds one after the other are one fold. -/
lemma foldlM_flatMap {σ ι κ : Type} (f : σ → κ → Option σ) (parts : ι → List κ) (l : List ι)
    (s : σ) : l.foldlM (fun s i => (parts i).foldlM f s) s = (l.flatMap parts).foldlM f s := by
  induction l generalizing s with
  | nil => rfl
  | cons i l ih =>
    rw [List.foldlM_cons, List.flatMap_cons, List.foldlM_append]
    exact congrArg _ (funext ih)

/-- The update takes one step of the optimizer for each minibatch, along the gradient of that
minibatch alone. The minibatches of an epoch hold every transition of the rollout once, so all of
them together hold it `ppo_epochs` times. -/
theorem epochs_eq [Add G] [Field 𝕂] (o : Optimization P G S Obs Act 𝕂) (s : Update P G S 𝕂)
    (b : RolloutBuffer Obs Act 𝕂 numSteps numEnvs) {permutation : ℕ → ℕ → List ℕ} (sqrt : 𝕂 → 𝕂)
    {minibatchSize : ℤ} (ppoEpochs : ℤ)
    (hperm : ∀ epoch m, (permutation epoch m).Perm (List.range m)) (hsize : 1 ≤ minibatchSize) :
    ∃ (cells : List (List (ℕ × Fin numEnvs))) (μ d : 𝕂),
      (s.epochs o b permutation sqrt minibatchSize ppoEpochs).map progress =
        (cells.map (b.rowsAt μ d)).foldlM o.step s.progress ∧
      cells.length = ppoEpochs.toNat *
        ((b.ptr * numEnvs + minibatchSize.toNat - 1) / minibatchSize.toNat) ∧
      ∀ t < b.ptr, ∀ e, cells.flatten.count (t, e) = ppoEpochs.toNat := by
  choose q hq hbatches using fun epoch =>
    b.getMinibatches_eq sqrt (hperm epoch (b.ptr * numEnvs)) hsize
  have hk : 0 < minibatchSize.toNat := by omega
  refine ⟨(List.range ppoEpochs.toNat).flatMap fun epoch => slices (q epoch) minibatchSize.toNat,
    mean b.flatAdvantages, std sqrt b.flatAdvantages + 1 / 10 ^ 8, ?_, ?_, ?_⟩
  · rw [epochs, List.map_flatMap, ← foldlM_view progress_minibatch, ← foldlM_flatMap]
    congr 2
    funext s epoch
    rw [Update.epoch, hbatches, Option.bind_some]
  · have hlen : ∀ epoch, (q epoch).length = b.ptr * numEnvs := fun epoch => by
      rw [(hq epoch).length_eq, length_grid]
    simp [List.length_flatMap, slices, hlen]
  · intro t ht e
    have hcount : ∀ epoch, (slices (q epoch) minibatchSize.toNat).flatten.count (t, e) = 1 := by
      intro epoch
      rw [flatten_slices _ hk, (hq epoch).count_eq]
      exact List.count_eq_one_of_mem (nodup_grid _ _) (mem_grid.mpr ht)
    rw [List.flatMap_def, List.flatten_flatten, List.map_map, ← List.flatMap_def,
      List.count_flatMap]
    simp [Function.comp_def, hcount]

end Update

namespace Scenario

/-- The loss is the distance from the mean of the returns, and a step goes all the way. -/
def followReturns : Optimization ℚ ℚ ℕ ℕ ℕ ℚ where
  loss p batch := some (⟨0, p - mean batch.returns, 0, 0⟩, p - mean batch.returns)
  clipGradNorm g := g
  optimizerStep n p g := (n + 1, p - g)

/-- An update that starts with gradients of something else. -/
def stale : Update ℚ ℚ ℕ ℚ := ⟨0, some 5, 0, []⟩

end Scenario

open Scenario

/-- Two epochs over four transitions, in minibatches of three and of one row. -/
theorem epochs_eq_stale :
    ∃ (cells : List (List (ℕ × Fin 2))) (μ d : ℚ),
      (stale.epochs followReturns square (fun _ => reversed) sqrtSquare 3 2).map Update.progress =
        (cells.map (square.rowsAt μ d)).foldlM followReturns.step stale.progress ∧
      cells.length = 4 ∧ ∀ t < 2, ∀ e, cells.flatten.count (t, e) = 2 := by
  have hperm : ∀ (epoch : ℕ) m, (reversed m).Perm (List.range m) := fun _ m =>
    List.reverse_perm _
  exact Update.epochs_eq followReturns stale square sqrtSquare 2 hperm (by decide)

end DistributedRL
