import DistributedRL.Network.Actor
import Mathlib.Algebra.Order.BigOperators.Ring.Finset
import Mathlib.Analysis.SpecialFunctions.ExpDeriv
import Mathlib.Analysis.SpecialFunctions.Log.Deriv
import Mathlib.Analysis.SpecialFunctions.Sqrt
import Mathlib.Analysis.SpecialFunctions.Trigonometric.DerivHyp

/-!
# The networks

`network/actor.py` and `network/critic.py`: three linear layers with `tanh` between them. The last
layer sees values between minus one and one, whatever the observation, so what a network returns is
bounded by the weights of its last layer alone.
-/

namespace DistributedRL

variable {𝕂 Noise : Type} {m n hidden obsDim actionDim : ℕ} {kind : ActionKind}

/-- The weight and the bias of `nn.Linear`. -/
abbrev Linear (𝕂 : Type) (m n : ℕ) := (Fin n → Fin m → 𝕂) × (Fin n → 𝕂)

/-- The layers of `trunk`. -/
abbrev Trunk (𝕂 : Type) (obsDim hidden n : ℕ) :=
  Linear 𝕂 obsDim hidden × Linear 𝕂 hidden hidden × Linear 𝕂 hidden n

/-- The parameters of `Actor`: `trunk` and `log_std`. -/
abbrev ActorParams (𝕂 : Type) (obsDim hidden actionDim : ℕ) :=
  Trunk 𝕂 obsDim hidden actionDim × (Fin actionDim → 𝕂)

/-- The parameters of both networks. -/
abbrev Params (𝕂 : Type) (obsDim hidden actionDim : ℕ) :=
  ActorParams 𝕂 obsDim hidden actionDim × Trunk 𝕂 obsDim hidden 1

section Forward

variable [Field 𝕂] (tanh : 𝕂 → 𝕂)

/-- `nn.Linear`, on one row. -/
def Linear.forward (l : Linear 𝕂 m n) (x : Fin m → 𝕂) (j : Fin n) : 𝕂 :=
  ∑ i, l.1 j i * x i + l.2 j

/-- What the last layer of `trunk` is applied to. -/
def Trunk.features (w : Trunk 𝕂 obsDim hidden n) (x : Fin obsDim → 𝕂) (j : Fin hidden) : 𝕂 :=
  tanh (Linear.forward w.2.1 (fun i => tanh (Linear.forward w.1 x i)) j)

/-- `self.trunk`, on one row. -/
def Trunk.forward (w : Trunk 𝕂 obsDim hidden n) (x : Fin obsDim → 𝕂) : Fin n → 𝕂 :=
  Linear.forward w.2.2 (w.features tanh x)

/-- `Actor` -/
def ActorParams.actor (kind : ActionKind) (w : ActorParams 𝕂 obsDim hidden actionDim) :
    Actor 𝕂 kind obsDim actionDim :=
  ⟨w.1.forward tanh, w.2⟩

/-- The value of one observation. -/
def Trunk.value (w : Trunk 𝕂 obsDim hidden 1) (x : Fin obsDim → 𝕂) : 𝕂 := w.forward tanh x 0

/-- `Critic.forward` -/
def Trunk.critic (w : Trunk 𝕂 obsDim hidden 1) (obs : Tensor 𝕂) : Option (Tensor 𝕂) :=
  (obs.rows obsDim).map fun x => (x.map (w.forward tanh)).join.squeezeLast

/-- The critic values the rows one by one. -/
lemma Trunk.critic_rows (w : Trunk 𝕂 obsDim hidden 1) {obs : Tensor 𝕂} {N : ℕ}
    {x : ℕ → Fin obsDim → 𝕂} (h : obs.IsMatrix N x) :
    ∃ v, w.critic tanh obs = some v ∧ v.IsVector N fun i => w.value tanh (x i) := by
  obtain ⟨rows, hrows, hvec⟩ := h.rows
  exact ⟨_, by rw [critic, hrows, Option.map_some], ((hvec.map _).join).squeezeLast⟩

end Forward

/-- The entropy of the policy at an observation. -/
def Actor.entropy [Field 𝕂] (torch : Torch 𝕂 Noise actionDim) : {kind : ActionKind} →
    Actor 𝕂 kind obsDim actionDim → (Fin obsDim → 𝕂) → 𝕂
  | .continuous, actor, obs =>
    (List.ofFn fun j => torch.normalEntropy (actor.trunk obs j) (actor.std torch j)).sum
  | .discrete, actor, obs => torch.categoricalEntropy (actor.trunk obs)

/-- `evaluate` gives each row the entropy at its observation. -/
lemma Actor.evaluate_entropy [Field 𝕂] [LinearOrder 𝕂] [FloorRing 𝕂]
    {torch : Torch 𝕂 Noise actionDim} (actor : Actor 𝕂 kind obsDim actionDim)
    {obs actions logProb entropy : Tensor 𝕂} {N : ℕ} {x : ℕ → Fin obsDim → 𝕂}
    (h : obs.IsMatrix N x) (heval : actor.evaluate torch obs actions = some (logProb, entropy)) :
    entropy.IsVector N fun i => actor.entropy torch (x i) := by
  cases kind with
  | continuous =>
    obtain ⟨loc, scale, hdist, hloc, hscale⟩ := actor.distribution_continuous torch h
    obtain ⟨ent, hent, hmat⟩ := hloc.zipWith hscale torch.normalEntropy
    obtain ⟨e, hsum, hvec⟩ := hmat.sumLast
    simp only [evaluate, hdist, Option.bind_some, hent, hsum, Option.map_some,
      Option.bind_eq_some_iff, Option.some.injEq, Prod.mk.injEq] at heval
    obtain ⟨lp, -, -, rfl⟩ := heval
    exact hvec
  | discrete =>
    obtain ⟨logits, hdist, hvec⟩ := actor.distribution_discrete torch h
    simp only [evaluate, hdist, Option.bind_some, Option.map_eq_some_iff, Prod.mk.injEq] at heval
    obtain ⟨lp, -, -, rfl⟩ := heval
    exact hvec.map _

/-- The action is one that `log_prob` accepts. -/
def ActionKind.Valid [Field 𝕂] [LinearOrder 𝕂] [FloorRing 𝕂] :
    (kind : ActionKind) → (Fin (kind.storeDim actionDim) → 𝕂) → Prop
  | .continuous, _ => True
  | .discrete, action => (toFin actionDim (long (action (0 : Fin 1)))).isSome

/-! ### Bounds -/

section Bounds

variable [Field 𝕂] [LinearOrder 𝕂] [IsStrictOrderedRing 𝕂] {tanh : 𝕂 → 𝕂}

/-- What a unit of a linear layer can return on entries between minus one and one. -/
def Linear.bound (l : Linear 𝕂 m n) (j : Fin n) : 𝕂 := ∑ i, |l.1 j i| + |l.2 j|

lemma Linear.abs_forward_le (l : Linear 𝕂 m n) {x : Fin m → 𝕂} (hx : ∀ i, |x i| ≤ 1)
    (j : Fin n) : |l.forward x j| ≤ l.bound j := by
  calc |l.forward x j| ≤ |∑ i, l.1 j i * x i| + |l.2 j| := abs_add_le _ _
    _ ≤ ∑ i, |l.1 j i * x i| + |l.2 j| := by gcongr; exact Finset.abs_sum_le_sum_abs _ _
    _ ≤ l.bound j := by
      rw [Linear.bound]
      gcongr ?_ + _
      refine Finset.sum_le_sum fun i _ => ?_
      rw [abs_mul]
      exact mul_le_of_le_one_right (abs_nonneg _) (hx i)

/-- The outputs of a network do not exceed the weights of its last layer. -/
lemma Trunk.abs_forward_le (htanh : ∀ x, |tanh x| ≤ 1) (w : Trunk 𝕂 obsDim hidden n)
    (x : Fin obsDim → 𝕂) (j : Fin n) : |w.forward tanh x j| ≤ Linear.bound w.2.2 j :=
  Linear.abs_forward_le w.2.2 (fun _ => htanh _) j

end Bounds

/-! ### Over the reals -/

/-- The distributions of `torch`, over the reals. -/
structure Torch.Documented (torch : Torch ℝ Noise actionDim) : Prop where
  exp : torch.exp = Real.exp
  normalLogProb : ∀ loc scale value, torch.normalLogProb loc scale value =
    -(value - loc) ^ 2 / (2 * scale ^ 2) - Real.log scale - Real.log (Real.sqrt (2 * Real.pi))
  normalEntropy : ∀ loc scale,
    torch.normalEntropy loc scale = 1 / 2 + Real.log (2 * Real.pi) / 2 + Real.log scale
  categoricalLogProb : ∀ logits k, torch.categoricalLogProb logits k =
    logits k - Real.log (∑ j, Real.exp (logits j))
  categoricalEntropy : ∀ logits, torch.categoricalEntropy logits =
    Real.log (∑ j, Real.exp (logits j)) -
      (∑ j, logits j * Real.exp (logits j)) / ∑ j, Real.exp (logits j)

@[fun_prop]
lemma differentiable_tanh : Differentiable ℝ Real.tanh := by
  have h : Real.tanh = fun x => Real.sinh x / Real.cosh x := funext Real.tanh_eq_sinh_div_cosh
  rw [h]
  exact Real.differentiable_sinh.div Real.differentiable_cosh fun x => (Real.cosh_pos x).ne'

/-- The networks are smooth in their parameters. -/
lemma Trunk.differentiable_forward (x : Fin obsDim → ℝ) (j : Fin n) :
    Differentiable ℝ fun w : Trunk ℝ obsDim hidden n => w.forward Real.tanh x j := by
  unfold Trunk.forward Trunk.features Linear.forward
  fun_prop

lemma Trunk.differentiable_value (x : Fin obsDim → ℝ) :
    Differentiable ℝ fun w : Trunk ℝ obsDim hidden 1 => w.value Real.tanh x :=
  differentiable_forward x 0

/-- The log-probability of a stored action, as a function of the parameters. -/
noncomputable def ActorParams.logProb (torch : Torch ℝ Noise actionDim) (kind : ActionKind)
    (w : ActorParams ℝ obsDim hidden actionDim) (obs : Fin obsDim → ℝ)
    (action : Fin (kind.storeDim actionDim) → ℝ) : ℝ :=
  ((w.actor Real.tanh kind).logProb torch obs action).getD 0

variable {torch : Torch ℝ Noise actionDim} {obs : Fin obsDim → ℝ}
  {action : Fin (kind.storeDim actionDim) → ℝ}

lemma ActorParams.logProb_of_valid (w : ActorParams ℝ obsDim hidden actionDim)
    (h : kind.Valid action) :
    (w.actor Real.tanh kind).logProb torch obs action = some (w.logProb torch kind obs action) := by
  cases kind with
  | continuous => rfl
  | discrete =>
    obtain ⟨k, hk⟩ := Option.isSome_iff_exists.mp h
    simp only [logProb, Actor.logProb, hk, Option.map_some, Option.getD_some]

lemma ActorParams.differentiable_logProb (htorch : torch.Documented) (h : kind.Valid action) :
    Differentiable ℝ fun w : ActorParams ℝ obsDim hidden actionDim =>
      w.logProb torch kind obs action := by
  have hout : ∀ j, Differentiable ℝ fun w : ActorParams ℝ obsDim hidden actionDim =>
      w.1.forward Real.tanh obs j := fun j =>
    (Trunk.differentiable_forward obs j).comp differentiable_fst
  cases kind with
  | continuous =>
    simp only [logProb, Actor.logProb, actor, Actor.std, htorch.exp, htorch.normalLogProb,
      Option.getD_some, List.sum_ofFn, Real.log_exp]
    have hne : ∀ (w : ActorParams ℝ obsDim hidden actionDim) j, 2 * Real.exp (w.2 j) ^ 2 ≠ 0 :=
      fun w j => by positivity
    simp only [div_eq_mul_inv]
    fun_prop (disch := exact fun w => hne w _)
  | discrete =>
    obtain ⟨k, hk⟩ := Option.isSome_iff_exists.mp h
    have hne : ∀ w : ActorParams ℝ obsDim hidden actionDim,
        ∑ j, Real.exp (w.1.forward Real.tanh obs j) ≠ 0 := fun w =>
      (Finset.sum_pos (fun j _ => Real.exp_pos _) ⟨k, Finset.mem_univ k⟩).ne'
    simp only [logProb, Actor.logProb, actor, hk, htorch.categoricalLogProb, Option.map_some,
      Option.getD_some]
    fun_prop (disch := exact hne _)

lemma ActorParams.differentiable_entropy (htorch : torch.Documented) :
    Differentiable ℝ fun w : ActorParams ℝ obsDim hidden actionDim =>
      (w.actor Real.tanh kind).entropy torch obs := by
  have hout : ∀ j, Differentiable ℝ fun w : ActorParams ℝ obsDim hidden actionDim =>
      w.1.forward Real.tanh obs j := fun j =>
    (Trunk.differentiable_forward obs j).comp differentiable_fst
  cases kind with
  | continuous =>
    simp only [Actor.entropy, actor, Actor.std, htorch.exp, htorch.normalEntropy, List.sum_ofFn,
      Real.log_exp]
    fun_prop
  | discrete =>
    simp only [Actor.entropy, actor, htorch.categoricalEntropy, div_eq_mul_inv]
    rcases isEmpty_or_nonempty (Fin actionDim) with hempty | hne
    · simp only [Finset.univ_eq_empty, Finset.sum_empty]
      fun_prop
    · have hne : ∀ w : ActorParams ℝ obsDim hidden actionDim,
          ∑ j, Real.exp (w.1.forward Real.tanh obs j) ≠ 0 := fun w =>
        (Finset.sum_pos (fun j _ => Real.exp_pos _) Finset.univ_nonempty).ne'
      fun_prop (disch := exact fun w => hne w)

end DistributedRL
