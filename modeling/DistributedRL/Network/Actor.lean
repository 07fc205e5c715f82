import DistributedRL.Data.Tensor
import Mathlib.Tactic.Positivity

/-!
# The actor

`network/actor.py`: a policy over vectors or over indices. The network acts on the rows of the
observations, and the distributions of `torch` on the entries and the rows of what it returns; both
are parameters. Tensors hold `float32` values; an index is rounded where it becomes one.
-/

namespace DistributedRL

/-- `action_type` -/
inductive ActionKind
  | continuous | discrete

/-- `action_store_dim` of the worker -/
def ActionKind.storeDim (actionDim : ℕ) : ActionKind → ℕ
  | .continuous => actionDim
  | .discrete => 1

/-! ### Indices as numbers -/

/-- The nearest integer with a significand of 24 bits, ties to even. -/
def roundFloat32 (n : ℤ) : ℤ :=
  let unit := 2 ^ (n.natAbs.log2 - 23)
  let q := n.natAbs / unit
  let r := n.natAbs % unit
  n.sign * ((if unit < 2 * r ∨ unit = 2 * r ∧ q % 2 = 1 then q + 1 else q) * unit : ℕ)

/-- Integers of up to 24 bits are not rounded. -/
lemma roundFloat32_of_lt {n : ℤ} (h : n.natAbs < 2 ^ 24) : roundFloat32 n = n := by
  have hlog : n.natAbs.log2 - 23 = 0 := by
    by_cases h0 : n.natAbs = 0
    · rw [h0]
      rfl
    · have := (Nat.log2_lt h0).mpr h
      omega
  simp only [roundFloat32, hlog, pow_zero, Nat.div_one, Nat.mod_one, mul_zero, mul_one]
  rw [if_neg (by omega), Int.sign_mul_natAbs]

section Cast

variable {𝕂 : Type*} [Field 𝕂]

/-- `astype(np.float32)` of an integer -/
def float32 (𝕂 : Type*) [IntCast 𝕂] (n : ℤ) : 𝕂 := (roundFloat32 n : ℤ)

variable [LinearOrder 𝕂] [IsStrictOrderedRing 𝕂] [FloorRing 𝕂]

/-- `.long()`, which truncates. -/
def long (x : 𝕂) : ℤ := if 0 ≤ x then ⌊x⌋ else ⌈x⌉

lemma long_float32 {n : ℤ} (h : n.natAbs < 2 ^ 24) : long (float32 𝕂 n) = n := by
  rw [float32, roundFloat32_of_lt h, long]
  split_ifs
  · exact Int.floor_intCast n
  · exact Int.ceil_intCast n

end Cast

/-- The index, if it is below `n`. -/
def toFin (n : ℕ) (k : ℤ) : Option (Fin n) :=
  if h : 0 ≤ k ∧ k < n then some ⟨k.toNat, by omega⟩ else none

lemma toFin_val {n : ℕ} (k : Fin n) : toFin n k = some k := by
  have hk := k.isLt
  rw [toFin, dif_pos (by omega)]
  simp

/-! ### Distributions -/

variable {𝕂 Noise : Type} {obsDim actionDim : ℕ} {kind : ActionKind}

/-- What is used of `torch`: densities, entropies and samples. `Noise` is what a sample of one row
is made from. -/
structure Torch (𝕂 Noise : Type) (actionDim : ℕ) where
  exp : 𝕂 → 𝕂
  normalLogProb (loc scale value : 𝕂) : 𝕂
  normalEntropy (loc scale : 𝕂) : 𝕂
  normalSample (loc scale : Fin actionDim → 𝕂) (noise : Noise) : Fin actionDim → 𝕂
  categoricalLogProb (logits : Fin actionDim → 𝕂) (k : Fin actionDim) : 𝕂
  categoricalEntropy (logits : Fin actionDim → 𝕂) : 𝕂
  categoricalSample (logits : Fin actionDim → 𝕂) (noise : Noise) : Fin actionDim

/-- `torch.distributions.Normal` and `torch.distributions.Categorical` -/
inductive Distribution (𝕂 : Type) (actionDim : ℕ) : ActionKind → Type
  | normal (loc scale : Tensor 𝕂) : Distribution 𝕂 actionDim .continuous
  | categorical (logits : Tensor (Fin actionDim → 𝕂)) : Distribution 𝕂 actionDim .discrete

namespace Torch

variable (torch : Torch 𝕂 Noise actionDim)

/-- `Normal.log_prob` -/
def normalLogProbs (loc scale value : Tensor 𝕂) : Option (Tensor 𝕂) :=
  (Tensor.zipWith Prod.mk loc scale).bind fun params =>
    Tensor.zipWith (fun p x => torch.normalLogProb p.1 p.2 x) params value

/-- `Categorical.log_prob`, which raises at an index that is no category. -/
def categoricalLogProbs [Zero 𝕂] (logits : Tensor (Fin actionDim → 𝕂)) (value : Tensor ℤ) :
    Option (Tensor 𝕂) :=
  (Tensor.zipWith Prod.mk logits value).bind fun params =>
    params.mapM fun p => (toFin actionDim p.2).map (torch.categoricalLogProb p.1)

end Torch

/-- `Actor`. `trunk` is the network, on one row; `log_std` is that of the continuous one. -/
structure Actor (𝕂 : Type) (kind : ActionKind) (obsDim actionDim : ℕ) where
  trunk : (Fin obsDim → 𝕂) → Fin actionDim → 𝕂
  logStd : Fin actionDim → 𝕂

namespace Actor

section Distribution

variable [Zero 𝕂] (torch : Torch 𝕂 Noise actionDim)

/-- `Actor.distribution` -/
def distribution : {kind : ActionKind} → Actor 𝕂 kind obsDim actionDim → Tensor 𝕂 →
    Option (Distribution 𝕂 actionDim kind)
  | .continuous, actor, obs => (obs.rows obsDim).bind fun x =>
    let out := (x.map actor.trunk).join
    (((Tensor.ofList (List.ofFn actor.logStd)).map torch.exp).expandAs out).map fun std =>
      .normal out std
  | .discrete, actor, obs => (obs.rows obsDim).bind fun x =>
    let out := (x.map actor.trunk).join
    (out.rows actionDim).map fun logits => .categorical logits

/-- The scale of the Gaussian. -/
def std (actor : Actor 𝕂 kind obsDim actionDim) (j : Fin actionDim) : 𝕂 :=
  torch.exp (actor.logStd j)

variable {obs : Tensor 𝕂} {n : ℕ} {x : ℕ → Fin obsDim → 𝕂}

lemma distribution_continuous (actor : Actor 𝕂 .continuous obsDim actionDim)
    (h : obs.IsMatrix n x) :
    ∃ loc scale, actor.distribution torch obs = some (.normal loc scale) ∧
      loc.IsMatrix n (fun i => actor.trunk (x i)) ∧ scale.IsMatrix n fun _ => actor.std torch := by
  obtain ⟨rows, hrows, hvec⟩ := h.rows
  have hout := (hvec.map actor.trunk).join
  have hstd := (Tensor.isVector_ofList (List.ofFn actor.logStd)).map torch.exp
  rw [List.length_ofFn] at hstd
  obtain ⟨scale, hscale, hmat⟩ := hstd.expandAs hout
  refine ⟨_, scale, ?_, hout, ⟨hmat.shape, ?_⟩⟩
  · simp only [distribution, hrows, Option.bind_some, hscale, Option.map_some]
  · intro i hi j
    rw [hmat.get i hi j]
    simp [std]

lemma distribution_discrete (actor : Actor 𝕂 .discrete obsDim actionDim)
    (h : obs.IsMatrix n x) :
    ∃ logits, actor.distribution torch obs = some (.categorical logits) ∧
      logits.IsVector n fun i => actor.trunk (x i) := by
  obtain ⟨rows, hrows, hvec⟩ := h.rows
  obtain ⟨logits, hlogits, hout⟩ := (hvec.map actor.trunk).join.rows
  refine ⟨logits, ?_, hout⟩
  simp only [distribution, hrows, Option.bind_some, hlogits, Option.map_some]

omit [Zero 𝕂] in
lemma normalLogProbs_rows {loc scale value : Tensor 𝕂} {l s v : ℕ → Fin actionDim → 𝕂}
    (hl : loc.IsMatrix n l) (hs : scale.IsMatrix n s) (hv : value.IsMatrix n v) :
    ∃ c, torch.normalLogProbs loc scale value = some c ∧
      c.IsMatrix n fun i j => torch.normalLogProb (l i j) (s i j) (v i j) := by
  obtain ⟨params, hparams, hmat⟩ := hl.zipWith hs Prod.mk
  obtain ⟨c, hc, hmat⟩ := hmat.zipWith hv fun p x => torch.normalLogProb p.1 p.2 x
  exact ⟨c, by rw [Torch.normalLogProbs, hparams, Option.bind_some, hc], hmat⟩

lemma categoricalLogProbs_rows {logits : Tensor (Fin actionDim → 𝕂)} {value : Tensor ℤ}
    {l : ℕ → Fin actionDim → 𝕂} {k : ℕ → ℤ} {lp : ℕ → 𝕂} (hl : logits.IsVector n l)
    (hv : value.IsVector n k)
    (hlp : ∀ i < n, (toFin actionDim (k i)).map (torch.categoricalLogProb (l i)) = some (lp i)) :
    ∃ c, torch.categoricalLogProbs logits value = some c ∧ c.IsVector n lp := by
  obtain ⟨params, hparams, hvec⟩ := hl.zipWith hv Prod.mk
  obtain ⟨c, hc, hvec⟩ := hvec.mapM (f := fun p =>
    (toFin actionDim p.2).map (torch.categoricalLogProb p.1)) hlp
  exact ⟨c, by rw [Torch.categoricalLogProbs, hparams, Option.bind_some, hc], hvec⟩

end Distribution

variable (torch : Torch 𝕂 Noise actionDim) [Field 𝕂] [LinearOrder 𝕂] [FloorRing 𝕂]

/-- `Actor.evaluate`: the log-probabilities and the entropies. -/
def evaluate (actor : Actor 𝕂 kind obsDim actionDim) (obs actions : Tensor 𝕂) :
    Option (Tensor 𝕂 × Tensor 𝕂) :=
  (actor.distribution torch obs).bind fun
    | .normal loc scale =>
      ((torch.normalLogProbs loc scale actions).bind Tensor.sumLast).bind fun logProb =>
      ((Tensor.zipWith torch.normalEntropy loc scale).bind Tensor.sumLast).map fun entropy =>
        (logProb, entropy)
    | .categorical logits =>
      let idx := actions.squeezeLast.map long
      (torch.categoricalLogProbs logits idx).map fun logProb =>
        (logProb, logits.map torch.categoricalEntropy)

/-- The log-probability of a stored action. -/
def logProb : {kind : ActionKind} → Actor 𝕂 kind obsDim actionDim → (Fin obsDim → 𝕂) →
    (Fin (kind.storeDim actionDim) → 𝕂) → Option 𝕂
  | .continuous, actor, obs, action =>
    some (List.ofFn fun j =>
      torch.normalLogProb (actor.trunk obs j) (actor.std torch j) (action j)).sum
  | .discrete, actor, obs, action =>
    (toFin actionDim (long (action (0 : Fin 1)))).map (torch.categoricalLogProb (actor.trunk obs))

/-- `evaluate` treats the rows of a batch one by one, whatever their number. -/
theorem evaluate_rows {obs actions : Tensor 𝕂} {n : ℕ} {x : ℕ → Fin obsDim → 𝕂}
    (actor : Actor 𝕂 kind obsDim actionDim) (h : obs.IsMatrix n x)
    {a : ℕ → Fin (kind.storeDim actionDim) → 𝕂} (ha : actions.IsMatrix n a) {lp : ℕ → 𝕂}
    (hlp : ∀ i < n, actor.logProb torch (x i) (a i) = some (lp i)) :
    ∃ logProb entropy, actor.evaluate torch obs actions = some (logProb, entropy) ∧
      logProb.IsVector n lp := by
  cases kind with
  | continuous =>
    obtain ⟨loc, scale, hdist, hloc, hscale⟩ := actor.distribution_continuous torch h
    obtain ⟨c, hc, hmat⟩ := normalLogProbs_rows torch hloc hscale ha
    obtain ⟨logProb, hsum, hvec⟩ := hmat.sumLast
    obtain ⟨ent, hent, hemat⟩ := hloc.zipWith hscale torch.normalEntropy
    obtain ⟨entropy, hesum, -⟩ := hemat.sumLast
    refine ⟨logProb, entropy, ?_, hvec.shape, ?_⟩
    · simp only [evaluate, hdist, Option.bind_some, hc, hsum, hent, hesum, Option.map_some]
    · intro i hi
      rw [hvec.get i hi]
      exact Option.some.inj (hlp i hi)
  | discrete =>
    obtain ⟨logits, hdist, hvec⟩ := actor.distribution_discrete torch h
    have hidx : (actions.squeezeLast.map long).IsVector n _ := ha.squeezeLast.map long
    obtain ⟨logProb, hc, hout⟩ := categoricalLogProbs_rows torch hvec hidx hlp
    refine ⟨logProb, logits.map torch.categoricalEntropy, ?_, hout⟩
    simp only [evaluate, hdist, Option.bind_some, hc, Option.map_some]

end Actor

end DistributedRL
