import Mathlib.Algebra.Order.Field.Rat
import Mathlib.Data.List.Basic

/-!
# The configuration

`config.py`: the hyperparameters with their defaults, and the checks that `__post_init__` makes when
a `TrainConfig` is constructed. Fields that nothing reads are left out.
-/

namespace DistributedRL

/-- A Python `float`; the two zeros are one value. -/
inductive PyFloat
  | nan
  | negInf
  | fin (q : ℚ)
  | posInf
  deriving DecidableEq

namespace PyFloat

instance (n : ℕ) : OfNat PyFloat n := ⟨.fin n⟩

/-- `x < y`, which is false if one of them is `nan`. -/
protected def lt : PyFloat → PyFloat → Prop
  | .fin p, .fin q => p < q
  | .negInf, .fin _ | .negInf, .posInf | .fin _, .posInf => True
  | _, _ => False

/-- `x <= y` -/
protected def le : PyFloat → PyFloat → Prop
  | .fin p, .fin q => p ≤ q
  | .negInf, .negInf | .negInf, .fin _ | .negInf, .posInf => True
  | .fin _, .posInf | .posInf, .posInf => True
  | _, _ => False

instance : LT PyFloat := ⟨PyFloat.lt⟩
instance : LE PyFloat := ⟨PyFloat.le⟩

instance : ∀ x y : PyFloat, Decidable (x < y)
  | .fin p, .fin q => inferInstanceAs (Decidable (p < q))
  | .negInf, .fin _ | .negInf, .posInf | .fin _, .posInf => .isTrue trivial
  | .nan, _ | .posInf, _ | .fin _, .nan | .fin _, .negInf | .negInf, .nan
  | .negInf, .negInf => .isFalse id

instance : ∀ x y : PyFloat, Decidable (x ≤ y)
  | .fin p, .fin q => inferInstanceAs (Decidable (p ≤ q))
  | .negInf, .negInf | .negInf, .fin _ | .negInf, .posInf => .isTrue trivial
  | .fin _, .posInf | .posInf, .posInf => .isTrue trivial
  | .nan, _ | .posInf, .nan | .posInf, .negInf | .posInf, .fin _ | .fin _, .nan
  | .fin _, .negInf | .negInf, .nan => .isFalse id

end PyFloat

/-- The classes registered in `ENVS`. -/
inductive EnvClass
  | swingBot | cartPole | mountainCarContinuous | acrobot
  deriving DecidableEq

/-- `TrainConfig` -/
structure TrainConfig where
  numWorkers : ℤ := 4
  rolloutLength : ℤ := 512
  envsPerWorker : ℤ := 4
  ppoEpochs : ℤ := 4
  minibatchSize : ℤ := 64
  gamma : PyFloat := .fin (99 / 100)
  gaeLambda : PyFloat := .fin (95 / 100)
  clipEps : PyFloat := .fin (2 / 10)
  maxGradNorm : PyFloat := .fin (5 / 10)
  vfCoef : PyFloat := .fin (5 / 10)
  entCoef : PyFloat := .fin (1 / 100)
  lr : PyFloat := .fin (3 / 10000)
  lrSchedule : String := "constant"
  lrWarmupSteps : ℤ := 0
  serverLr : PyFloat := 1
  momentum : PyFloat := 0
  minReadyWorkers : ℤ := 0
  maxSteps : ℤ := 5000000
  serverHost : String := "127.0.0.1"
  serverPort : ℤ := 9999
  dashboardPort : ℤ := 8000
  device : String := "cpu"
  checkpointDir : String := "./checkpoints"
  checkpointInterval : ℤ := 100
  loadCheckpoint : Bool := true
  envClass : EnvClass := .swingBot
  seed : ℤ := 0

/-- What stops an entry point: a failed `assert`, a `ValueError`, or an error of the operating
system. -/
inductive LaunchError
  | assertion (msg : String)
  | value (msg : String)
  | os

/-- `assert p, msg` -/
def require (p : Prop) [Decidable p] (msg : String) : Except LaunchError Unit :=
  if p then .ok () else .error (.assertion msg)

namespace TrainConfig

/-- `TrainConfig.__post_init__` -/
def postInit (c : TrainConfig) : Except LaunchError Unit := do
  require (1 ≤ c.numWorkers) "num_workers must be >= 1"
  require (32 ≤ c.rolloutLength) "rollout_length must be >= 32"
  require (1 ≤ c.envsPerWorker) "envs_per_worker must be >= 1"
  require (1 ≤ c.ppoEpochs) "ppo_epochs must be >= 1"
  require (1 ≤ c.minibatchSize) "minibatch_size must be >= 1"
  require (0 < c.gamma ∧ c.gamma < 1) "gamma must be in (0, 1)"
  require (0 < c.gaeLambda ∧ c.gaeLambda ≤ 1) "gae_lambda must be in (0, 1]"
  require (0 < c.clipEps ∧ c.clipEps < 1) "clip_eps must be in (0, 1)"
  require (0 < c.maxGradNorm) "max_grad_norm must be > 0"
  require (0 ≤ c.vfCoef) "vf_coef must be >= 0"
  require (0 ≤ c.entCoef) "ent_coef must be >= 0"
  require (0 < c.lr) "lr must be > 0"
  require (0 < c.serverLr) "server_lr must be > 0"
  require (0 ≤ c.momentum ∧ c.momentum < 1) "momentum must be in [0, 1)"
  require (c.lrSchedule ∈ ["constant", "linear", "cosine"])
    "lr_schedule must be one of: constant, linear, cosine"
  require (0 ≤ c.lrWarmupSteps) "lr_warmup_steps must be >= 0"
  require (0 ≤ c.minReadyWorkers) "min_ready_workers must be >= 0"
  require (0 < c.minReadyWorkers → c.minReadyWorkers ≤ c.numWorkers)
    "min_ready_workers must be <= num_workers"
  require (c.device ∈ ["auto", "cuda", "cpu", "mps"]) "device must be one of: auto, cuda, cpu, mps"
  require (1 ≤ c.checkpointInterval) "checkpoint_interval must be >= 1"
  require (1 ≤ c.maxSteps) "max_steps must be >= 1"

/-- `TrainConfig()` -/
def new : Except LaunchError TrainConfig := do
  let c : TrainConfig := {}
  c.postInit
  return c

/-- `resolve_device` -/
def resolveDevice (c : TrainConfig) : String := if c.device ≠ "auto" then c.device else "cpu"

/-- The constraints of `__post_init__`. -/
structure Valid (c : TrainConfig) : Prop where
  numWorkers : 1 ≤ c.numWorkers
  rolloutLength : 32 ≤ c.rolloutLength
  envsPerWorker : 1 ≤ c.envsPerWorker
  ppoEpochs : 1 ≤ c.ppoEpochs
  minibatchSize : 1 ≤ c.minibatchSize
  gamma : 0 < c.gamma ∧ c.gamma < 1
  gaeLambda : 0 < c.gaeLambda ∧ c.gaeLambda ≤ 1
  clipEps : 0 < c.clipEps ∧ c.clipEps < 1
  maxGradNorm : 0 < c.maxGradNorm
  vfCoef : 0 ≤ c.vfCoef
  entCoef : 0 ≤ c.entCoef
  lr : 0 < c.lr
  serverLr : 0 < c.serverLr
  momentum : 0 ≤ c.momentum ∧ c.momentum < 1
  lrSchedule : c.lrSchedule ∈ ["constant", "linear", "cosine"]
  lrWarmupSteps : 0 ≤ c.lrWarmupSteps
  minReadyWorkers : 0 ≤ c.minReadyWorkers
  quorum : 0 < c.minReadyWorkers → c.minReadyWorkers ≤ c.numWorkers
  device : c.device ∈ ["auto", "cuda", "cpu", "mps"]
  checkpointInterval : 1 ≤ c.checkpointInterval
  maxSteps : 1 ≤ c.maxSteps

end TrainConfig

lemma require_eq_ok_iff {p : Prop} [Decidable p] {msg : String} :
    require p msg = .ok () ↔ p := by
  simp only [require]
  split_ifs with h <;> simp [h]

lemma require_bind_eq_ok_iff {p : Prop} [Decidable p] {msg : String} {β : Type}
    {f : Unit → Except LaunchError β} {b : β} :
    (require p msg >>= f) = .ok b ↔ p ∧ f () = .ok b := by
  simp only [require]
  split_ifs with h
  · simp [h, bind, Except.bind]
  · simp [h, bind, Except.bind]

lemma TrainConfig.postInit_eq_ok_iff {c : TrainConfig} : c.postInit = .ok () ↔ c.Valid := by
  simp only [postInit, require_bind_eq_ok_iff, require_eq_ok_iff]
  constructor
  · rintro ⟨h₁, h₂, h₃, h₄, h₅, h₆, h₇, h₈, h₉, h₁₀, h₁₁, h₁₂, h₁₃, h₁₄, h₁₅, h₁₆, h₁₇, h₁₈, h₁₉,
      h₂₀, h₂₁⟩
    exact ⟨h₁, h₂, h₃, h₄, h₅, h₆, h₇, h₈, h₉, h₁₀, h₁₁, h₁₂, h₁₃, h₁₄, h₁₅, h₁₆, h₁₇, h₁₈, h₁₉,
      h₂₀, h₂₁⟩
  · intro h
    exact ⟨h.numWorkers, h.rolloutLength, h.envsPerWorker, h.ppoEpochs, h.minibatchSize, h.gamma,
      h.gaeLambda, h.clipEps, h.maxGradNorm, h.vfCoef, h.entCoef, h.lr, h.serverLr, h.momentum,
      h.lrSchedule, h.lrWarmupSteps, h.minReadyWorkers, h.quorum, h.device, h.checkpointInterval,
      h.maxSteps⟩

/-- The defaults pass their own checks. -/
lemma TrainConfig.valid_default : ({} : TrainConfig).Valid := by
  constructor <;> decide +kernel

lemma TrainConfig.new_eq : TrainConfig.new = .ok {} := by
  have h := postInit_eq_ok_iff.mpr valid_default
  simp only [new, h]
  rfl

end DistributedRL
