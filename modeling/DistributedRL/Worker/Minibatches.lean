import DistributedRL.Data.Batches
import DistributedRL.Worker.RolloutBuffer

/-!
# Minibatches

`RolloutBuffer.get_minibatches`: the filled rows are flattened, time-major, and read in the order of
a permutation that is cut into slices. The permutation and the square root are parameters.
-/

namespace DistributedRL

variable {Obs Act β 𝕂 : Type*} {numSteps numEnvs : ℕ}

/-- What `get_minibatches` yields: five arrays of rows. -/
structure Minibatch (Obs Act 𝕂 : Type*) where
  states : List Obs
  actions : List Act
  logProbs : List 𝕂
  advantages : List 𝕂
  returns : List 𝕂

/-- The positions of the first `T` rows, time-major. -/
def grid (T numEnvs : ℕ) : List (ℕ × Fin numEnvs) := List.range T ×ˢ List.finRange numEnvs

lemma length_grid (T numEnvs : ℕ) : (grid T numEnvs).length = T * numEnvs := by
  rw [grid, List.length_product, List.length_range, List.length_finRange]

lemma mem_grid {T t : ℕ} {e : Fin numEnvs} : (t, e) ∈ grid T numEnvs ↔ t < T := by
  simp [grid]

lemma nodup_grid (T numEnvs : ℕ) : (grid T numEnvs).Nodup :=
  List.nodup_range.product (List.nodup_finRange numEnvs)

/-- `x[:T].reshape(T * num_envs, ...)` -/
def flatRows (T : ℕ) (x : ℕ → Fin numEnvs → β) : List β :=
  (List.range T).flatMap fun t => (List.finRange numEnvs).map (x t)

lemma flatRows_eq (T : ℕ) (x : ℕ → Fin numEnvs → β) :
    flatRows T x = (grid T numEnvs).map fun c => x c.1 c.2 := by
  simp only [flatRows, grid, SProd.sprod, List.product, List.map_flatMap, List.map_map,
    Function.comp_def]

namespace RolloutBuffer

variable [Field 𝕂]

/-- `RolloutBuffer.get_minibatches`, one pass. -/
def getMinibatches (b : RolloutBuffer Obs Act 𝕂 numSteps numEnvs) (permutation : ℕ → List ℕ)
    (sqrt : 𝕂 → 𝕂) (minibatchSize : ℤ) : Option (List (Minibatch Obs Act 𝕂)) :=
  let n := b.ptr * numEnvs
  let states := flatRows b.ptr b.states
  let actions := flatRows b.ptr b.actions
  let logProbs := flatRows b.ptr b.logProbs
  let advantages := flatRows b.ptr b.advantages
  let returns := flatRows b.ptr b.returns
  let advNorm : List 𝕂 := advantages.map fun a =>
    (a - mean advantages) / (std sqrt advantages + 1 / 10 ^ 8)
  let idx := permutation n
  (rangeStep n minibatchSize).bind fun starts => starts.mapM fun start =>
    let mb := slice idx start minibatchSize.toNat
    (pick states mb).bind fun states => (pick actions mb).bind fun actions =>
    (pick logProbs mb).bind fun logProbs => (pick advNorm mb).bind fun advantages =>
    (pick returns mb).map fun returns => ⟨states, actions, logProbs, advantages, returns⟩

/-- The minibatch whose rows are those at the given positions, the advantages shifted by `μ` and
divided by `d`. -/
def rowsAt (b : RolloutBuffer Obs Act 𝕂 numSteps numEnvs) (μ d : 𝕂)
    (cells : List (ℕ × Fin numEnvs)) : Minibatch Obs Act 𝕂 where
  states := cells.map fun c => b.states c.1 c.2
  actions := cells.map fun c => b.actions c.1 c.2
  logProbs := cells.map fun c => b.logProbs c.1 c.2
  advantages := cells.map fun c => (b.advantages c.1 c.2 - μ) / d
  returns := cells.map fun c => b.returns c.1 c.2

variable (b : RolloutBuffer Obs Act 𝕂 numSteps numEnvs) {permutation : ℕ → List ℕ}
  {sqrt : 𝕂 → 𝕂} {minibatchSize : ℤ}

/-- `advantages` before the normalization -/
def flatAdvantages : List 𝕂 := flatRows b.ptr b.advantages

/-- The rows of the minibatches are those at a permutation of all positions, cut into slices. -/
lemma getMinibatches_eq (sqrt : 𝕂 → 𝕂)
    (hperm : (permutation (b.ptr * numEnvs)).Perm (List.range (b.ptr * numEnvs)))
    (hsize : 1 ≤ minibatchSize) :
    ∃ q : List (ℕ × Fin numEnvs), q.Perm (grid b.ptr numEnvs) ∧
      b.getMinibatches permutation sqrt minibatchSize =
        some ((slices q minibatchSize.toNat).map
          (b.rowsAt (mean b.flatAdvantages) (std sqrt b.flatAdvantages + 1 / 10 ^ 8))) := by
  obtain ⟨k, rfl⟩ := Int.eq_ofNat_of_zero_le (by omega : 0 ≤ minibatchSize)
  have hk : 0 < k := by omega
  rw [← length_grid] at hperm
  obtain ⟨q, hq, hqp⟩ := exists_cells hperm
  refine ⟨q, hqp, ?_⟩
  have hslice : ∀ start, List.Forall₂ (At (grid b.ptr numEnvs))
      (slice (permutation (b.ptr * numEnvs)) start k) (slice q start k) := by
    intro start
    rw [← length_grid]
    exact List.forall₂_take k (List.forall₂_drop start hq)
  have hlen : q.length = b.ptr * numEnvs := by rw [hqp.length_eq, length_grid]
  simp only [getMinibatches, rangeStep_of_pos _ hk, Option.bind_some, flatRows_eq, List.map_map,
    Int.toNat_natCast, pick_map (hslice _), Option.map_some]
  refine (List.mapM_pure (m := Option)).trans (congrArg some ?_)
  simp only [slices, hlen, List.map_map, flatAdvantages, flatRows_eq]
  rfl

/-- The minibatches of one pass hold every stored transition once. The five entries of a row belong
to one transition, its advantage under one affine map for the whole rollout, and the normalized
advantages sum to zero. -/
theorem getMinibatches_partition [LinearOrder 𝕂] [IsStrictOrderedRing 𝕂]
    (hperm : (permutation (b.ptr * numEnvs)).Perm (List.range (b.ptr * numEnvs)))
    (hsqrt : ∀ x, 0 ≤ sqrt x) (hsize : 1 ≤ minibatchSize) :
    ∃ (batches : List (Minibatch Obs Act 𝕂)) (cells : List (List (ℕ × Fin numEnvs))) (μ d : 𝕂),
      b.getMinibatches permutation sqrt minibatchSize = some batches ∧
      batches = cells.map (b.rowsAt μ d) ∧ 0 < d ∧
      cells.flatten.Nodup ∧ (∀ t e, (t, e) ∈ cells.flatten ↔ t < b.ptr) ∧
      Chunked minibatchSize.toNat cells ∧
      (batches.flatMap Minibatch.advantages).sum = 0 := by
  obtain ⟨q, hq, hbatches⟩ := b.getMinibatches_eq sqrt hperm hsize
  have hflat : (slices q minibatchSize.toNat).flatten = q := flatten_slices q (by omega)
  refine ⟨_, _, _, _, hbatches, rfl, ?_, ?_, ?_, chunked_slices q _, ?_⟩
  · have hstd : 0 ≤ std sqrt b.flatAdvantages := hsqrt _
    positivity
  · rw [hflat]
    exact hq.nodup_iff.mpr (nodup_grid b.ptr numEnvs)
  · intro t e
    rw [hflat, hq.mem_iff, mem_grid]
  · have hadv : ∀ μ d, ((slices q minibatchSize.toNat).map (b.rowsAt μ d)).flatMap
        Minibatch.advantages = q.map fun c => (b.advantages c.1 c.2 - μ) / d := by
      intro μ d
      conv_rhs => rw [← hflat, List.map_flatten]
      rw [List.flatMap_map]
      rfl
    have hsum := sum_deviations b.flatAdvantages (std sqrt b.flatAdvantages + 1 / 10 ^ 8)
    rw [hadv, (hq.map _).sum_eq, ← hsum, flatAdvantages, flatRows_eq, List.map_map]
    rfl

end RolloutBuffer

namespace Scenario

/-- The last index first. -/
def reversed (n : ℕ) : List ℕ := (List.range n).reverse

/-- The square root of a square. -/
def sqrtSquare (x : ℚ) : ℚ := Nat.sqrt x.num.natAbs / Nat.sqrt x.den

lemma sqrtSquare_nonneg (x : ℚ) : 0 ≤ sqrtSquare x := by
  unfold sqrtSquare
  positivity

end Scenario

open Scenario

/-- Batches of three and of one row, the last transition first. -/
theorem getMinibatches_partition_square :
    ∃ (batches : List (Minibatch ℕ ℕ ℚ)) (cells : List (List (ℕ × Fin 2))) (μ d : ℚ),
      square.getMinibatches reversed sqrtSquare 3 = some batches ∧
      batches.map Minibatch.states = [[3, 2, 1], [0]] ∧ batches = cells.map (square.rowsAt μ d) ∧
      cells.flatten.Nodup ∧ Chunked 3 cells ∧ (batches.flatMap Minibatch.advantages).sum = 0 := by
  have hperm : (reversed (square.ptr * 2)).Perm (List.range (square.ptr * 2)) :=
    List.reverse_perm _
  obtain ⟨batches, cells, μ, d, hrun, hrows, -, hnodup, -, hchunks, hsum⟩ :=
    RolloutBuffer.getMinibatches_partition square hperm sqrtSquare_nonneg (by decide : (1 : ℤ) ≤ 3)
  refine ⟨batches, cells, μ, d, hrun, ?_, hrows, hnodup, hchunks, hsum⟩
  have hstates : (square.getMinibatches reversed sqrtSquare 3).map
      (List.map Minibatch.states) = some [[3, 2, 1], [0]] := by decide +kernel
  rw [hrun] at hstates
  exact Option.some.inj hstates

end DistributedRL
