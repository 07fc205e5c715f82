import DistributedRL.Config.TrainConfig

/-!
# The entry points

`main` of `train.py`, `run_server.py` and `run_worker.py`, from the namespace that `argparse`
returns on. Each constructs a `TrainConfig`, which checks the defaults, and then assigns the
options to its fields, which nothing checks.
-/

namespace DistributedRL

/-- The value of an option with `choices`. -/
abbrev Choice (choices : List String) := { s : String // s ∈ choices }

/-- `sorted(ENVS)` -/
abbrev envNames : List String := ["acrobot", "cartpole", "mountain_car", "swingbot"]

abbrev scheduleNames : List String := ["constant", "linear", "cosine"]

abbrev deviceNames : List String := ["auto", "cuda", "cpu", "mps"]

/-- `get_env` -/
def getEnv (name : String) : Except LaunchError EnvClass :=
  match name with
  | "swingbot" => .ok .swingBot
  | "cartpole" => .ok .cartPole
  | "mountain_car" => .ok .mountainCarContinuous
  | "acrobot" => .ok .acrobot
  | _ => .error (.value ("unknown env '" ++ name ++ "'. Available: " ++
      ", ".intercalate envNames))

/-- What an entry point hands its configuration to, as a process or as a call. -/
inductive Process
  | serverMain
  | dashboardMain
  | workerMain (workerId : ℤ)

/-- The calls that an entry point launches, each with its configuration. -/
abbrev Launches := List (Process × TrainConfig)

/-- Every configuration that is launched satisfies the constraints of `__post_init__`. -/
def ValidLaunch (launched : Except LaunchError Launches) : Prop :=
  ∀ l, launched = .ok l → ∀ p ∈ l, p.2.postInit = .ok ()

/-! ### `train.py` -/

/-- The namespace of `train.py`. -/
structure TrainArgs where
  env : Choice envNames := ⟨"swingbot", by simp⟩
  numWorkers : ℤ := 4
  envsPerWorker : ℤ := 4
  rolloutLength : ℤ := 512
  ppoEpochs : ℤ := 4
  lr : PyFloat := .fin (3 / 10000)
  lrSchedule : Choice scheduleNames := ⟨"constant", by simp⟩
  maxSteps : ℤ := 5000000
  serverPort : ℤ := 9999
  dashboardPort : ℤ := 8000
  device : Choice deviceNames := ⟨"cpu", by simp⟩
  seed : ℤ := 0
  checkpointDir : String := "./checkpoints"
  checkpointInterval : ℤ := 100
  noLoadCheckpoint : Bool := false
  noDashboard : Bool := false
  minReadyWorkers : ℤ := 0

/-- The assignments in `main` of `train.py`. -/
def TrainArgs.assign (args : TrainArgs) (env : EnvClass) (config : TrainConfig) : TrainConfig :=
  let config := { config with
    envClass := env
    numWorkers := args.numWorkers
    envsPerWorker := args.envsPerWorker
    rolloutLength := args.rolloutLength
    ppoEpochs := args.ppoEpochs
    lr := args.lr
    lrSchedule := args.lrSchedule
    maxSteps := args.maxSteps
    serverPort := args.serverPort
    dashboardPort := args.dashboardPort
    device := args.device
    seed := args.seed }
  { config with
    device := config.resolveDevice
    checkpointDir := args.checkpointDir
    checkpointInterval := args.checkpointInterval
    loadCheckpoint := !args.noLoadCheckpoint
    minReadyWorkers := args.minReadyWorkers }

/-- `main` of `train.py`. -/
def trainMain (mkdir : String → Except LaunchError Unit) (args : TrainArgs) :
    Except LaunchError Launches := do
  let config ← TrainConfig.new
  let config := args.assign (← getEnv args.env) config
  mkdir config.checkpointDir
  let dash := if args.noDashboard then [] else [Process.dashboardMain]
  let workers := (List.range config.numWorkers.toNat).map fun wid => Process.workerMain wid
  return (Process.serverMain :: dash ++ workers).map (·, config)

/-- The options of `train.py` satisfy the constraints. -/
structure TrainArgs.Sound (args : TrainArgs) : Prop where
  numWorkers : 1 ≤ args.numWorkers
  envsPerWorker : 1 ≤ args.envsPerWorker
  rolloutLength : 32 ≤ args.rolloutLength
  ppoEpochs : 1 ≤ args.ppoEpochs
  lr : 0 < args.lr
  maxSteps : 1 ≤ args.maxSteps
  checkpointInterval : 1 ≤ args.checkpointInterval
  minReadyWorkers : 0 ≤ args.minReadyWorkers
  quorum : 0 < args.minReadyWorkers → args.minReadyWorkers ≤ args.numWorkers

/-! ### `run_server.py` -/

/-- The namespace of `run_server.py`. -/
structure ServerArgs where
  env : Choice envNames := ⟨"swingbot", by simp⟩
  numWorkers : ℤ := 4
  serverHost : String := "0.0.0.0"
  serverPort : ℤ := 9999
  checkpointDir : String := "./checkpoints"
  checkpointInterval : ℤ := 100
  noLoadCheckpoint : Bool := false
  maxSteps : ℤ := 5000000
  serverLr : PyFloat := 1
  momentum : PyFloat := 0
  minReadyWorkers : ℤ := 0
  seed : ℤ := 0
  dashboard : Bool := false
  dashboardPort : ℤ := 8000

/-- The assignments in `main` of `run_server.py`. -/
def ServerArgs.assign (args : ServerArgs) (env : EnvClass) (config : TrainConfig) : TrainConfig :=
  { config with
    envClass := env
    numWorkers := args.numWorkers
    serverHost := args.serverHost
    serverPort := args.serverPort
    checkpointDir := args.checkpointDir
    checkpointInterval := args.checkpointInterval
    loadCheckpoint := !args.noLoadCheckpoint
    maxSteps := args.maxSteps
    serverLr := args.serverLr
    momentum := args.momentum
    minReadyWorkers := args.minReadyWorkers
    dashboardPort := args.dashboardPort
    seed := args.seed }

/-- `main` of `run_server.py`. -/
def runServerMain (mkdir : String → Except LaunchError Unit) (args : ServerArgs) :
    Except LaunchError Launches := do
  let _ ← TrainConfig.new
  let config ← TrainConfig.new
  let config := args.assign (← getEnv args.env) config
  mkdir config.checkpointDir
  let dash := if args.dashboard then [Process.dashboardMain] else []
  return (dash ++ [Process.serverMain]).map (·, config)

/-- The options of `run_server.py` satisfy the constraints. -/
structure ServerArgs.Sound (args : ServerArgs) : Prop where
  numWorkers : 1 ≤ args.numWorkers
  checkpointInterval : 1 ≤ args.checkpointInterval
  maxSteps : 1 ≤ args.maxSteps
  serverLr : 0 < args.serverLr
  momentum : 0 ≤ args.momentum ∧ args.momentum < 1
  minReadyWorkers : 0 ≤ args.minReadyWorkers
  quorum : 0 < args.minReadyWorkers → args.minReadyWorkers ≤ args.numWorkers

/-! ### `run_worker.py` -/

/-- The namespace of `run_worker.py`. -/
structure WorkerArgs where
  workerId : ℤ
  env : Choice envNames := ⟨"swingbot", by simp⟩
  serverHost : String := "parameter-server"
  serverPort : ℤ := 9999
  device : Choice deviceNames := ⟨"auto", by simp⟩
  envsPerWorker : ℤ := 4
  rolloutLength : ℤ := 512
  ppoEpochs : ℤ := 4
  minibatchSize : ℤ := 64
  lr : PyFloat := .fin (3 / 10000)
  lrSchedule : Choice scheduleNames := ⟨"constant", by simp⟩
  maxSteps : ℤ := 5000000
  seed : ℤ := 0

/-- The assignments in `main` of `run_worker.py`. -/
def WorkerArgs.assign (args : WorkerArgs) (env : EnvClass) (config : TrainConfig) : TrainConfig :=
  let config := { config with
    envClass := env
    serverHost := args.serverHost
    serverPort := args.serverPort
    device := args.device }
  { config with
    device := config.resolveDevice
    envsPerWorker := args.envsPerWorker
    rolloutLength := args.rolloutLength
    ppoEpochs := args.ppoEpochs
    minibatchSize := args.minibatchSize
    lr := args.lr
    lrSchedule := args.lrSchedule
    maxSteps := args.maxSteps
    seed := args.seed }

/-- `main` of `run_worker.py`. -/
def runWorkerMain (args : WorkerArgs) : Except LaunchError Launches := do
  let _ ← TrainConfig.new
  let config ← TrainConfig.new
  let config := args.assign (← getEnv args.env) config
  return [(.workerMain args.workerId, config)]

/-- The options of `run_worker.py` satisfy the constraints. -/
structure WorkerArgs.Sound (args : WorkerArgs) : Prop where
  envsPerWorker : 1 ≤ args.envsPerWorker
  rolloutLength : 32 ≤ args.rolloutLength
  ppoEpochs : 1 ≤ args.ppoEpochs
  minibatchSize : 1 ≤ args.minibatchSize
  lr : 0 < args.lr
  maxSteps : 1 ≤ args.maxSteps

/-! ### What is launched -/

/-- `choices` lets only known names through. -/
lemma getEnv_ok (name : Choice envNames) : ∃ env, getEnv name = .ok env := by
  obtain ⟨name, hname⟩ := name
  simp only [envNames, List.mem_cons, List.not_mem_nil, or_false] at hname
  rcases hname with rfl | rfl | rfl | rfl <;> exact ⟨_, rfl⟩

lemma resolveDevice_mem {c : TrainConfig} (h : c.device ∈ deviceNames) :
    c.resolveDevice ∈ deviceNames := by
  rw [TrainConfig.resolveDevice]
  split_ifs
  · exact h
  · decide

lemma validLaunch_ok {procs : List Process} {c : TrainConfig} (hne : procs ≠ []) :
    ValidLaunch (.ok (procs.map (·, c))) ↔ c.Valid := by
  rw [← TrainConfig.postInit_eq_ok_iff]
  constructor
  · intro h
    obtain ⟨p, procs, rfl⟩ := List.exists_cons_of_ne_nil hne
    exact h _ rfl (p, c) List.mem_cons_self
  · rintro h _ ⟨⟩ p hp
    obtain ⟨q, -, rfl⟩ := List.mem_map.mp hp
    exact h

lemma validLaunch_error (e : LaunchError) : ValidLaunch (.error e) := fun _ h => by cases h

lemma TrainArgs.valid_assign_iff {args : TrainArgs} {env : EnvClass} :
    (args.assign env {}).Valid ↔ args.Sound := by
  constructor
  · intro h
    exact ⟨h.numWorkers, h.envsPerWorker, h.rolloutLength, h.ppoEpochs, h.lr, h.maxSteps,
      h.checkpointInterval, h.minReadyWorkers, h.quorum⟩
  · intro h
    have hdef := TrainConfig.valid_default
    exact ⟨h.numWorkers, h.rolloutLength, h.envsPerWorker, h.ppoEpochs, hdef.minibatchSize,
      hdef.gamma, hdef.gaeLambda, hdef.clipEps, hdef.maxGradNorm, hdef.vfCoef, hdef.entCoef, h.lr,
      hdef.serverLr, hdef.momentum, args.lrSchedule.2, hdef.lrWarmupSteps, h.minReadyWorkers,
      h.quorum, resolveDevice_mem args.device.2, h.checkpointInterval, h.maxSteps⟩

lemma ServerArgs.valid_assign_iff {args : ServerArgs} {env : EnvClass} :
    (args.assign env {}).Valid ↔ args.Sound := by
  constructor
  · intro h
    exact ⟨h.numWorkers, h.checkpointInterval, h.maxSteps, h.serverLr, h.momentum,
      h.minReadyWorkers, h.quorum⟩
  · intro h
    have hdef := TrainConfig.valid_default
    exact ⟨h.numWorkers, hdef.rolloutLength, hdef.envsPerWorker, hdef.ppoEpochs,
      hdef.minibatchSize, hdef.gamma, hdef.gaeLambda, hdef.clipEps, hdef.maxGradNorm, hdef.vfCoef,
      hdef.entCoef, hdef.lr, h.serverLr, h.momentum, hdef.lrSchedule, hdef.lrWarmupSteps,
      h.minReadyWorkers, h.quorum, hdef.device, h.checkpointInterval, h.maxSteps⟩

lemma WorkerArgs.valid_assign_iff {args : WorkerArgs} {env : EnvClass} :
    (args.assign env {}).Valid ↔ args.Sound := by
  constructor
  · intro h
    exact ⟨h.envsPerWorker, h.rolloutLength, h.ppoEpochs, h.minibatchSize, h.lr, h.maxSteps⟩
  · intro h
    have hdef := TrainConfig.valid_default
    exact ⟨hdef.numWorkers, h.rolloutLength, h.envsPerWorker, h.ppoEpochs, h.minibatchSize,
      hdef.gamma, hdef.gaeLambda, hdef.clipEps, hdef.maxGradNorm, hdef.vfCoef, hdef.entCoef, h.lr,
      hdef.serverLr, hdef.momentum, args.lrSchedule.2, hdef.lrWarmupSteps, hdef.minReadyWorkers,
      hdef.quorum, resolveDevice_mem args.device.2, hdef.checkpointInterval, h.maxSteps⟩

lemma validLaunch_trainMain_iff (mkdir : String → Except LaunchError Unit) (args : TrainArgs) :
    ValidLaunch (trainMain mkdir args) ↔
      (∃ e, mkdir args.checkpointDir = .error e) ∨ args.Sound := by
  obtain ⟨env, henv⟩ := getEnv_ok args.env
  have hdir : (args.assign env {}).checkpointDir = args.checkpointDir := rfl
  simp only [trainMain, TrainConfig.new_eq, henv, bind, Except.bind, pure, Except.pure, hdir]
  cases mkdir args.checkpointDir with
  | error e => exact iff_of_true (validLaunch_error e) (Or.inl ⟨e, rfl⟩)
  | ok u =>
    rw [validLaunch_ok (by simp), TrainArgs.valid_assign_iff]
    simp

lemma validLaunch_runServerMain_iff (mkdir : String → Except LaunchError Unit)
    (args : ServerArgs) : ValidLaunch (runServerMain mkdir args) ↔
      (∃ e, mkdir args.checkpointDir = .error e) ∨ args.Sound := by
  obtain ⟨env, henv⟩ := getEnv_ok args.env
  have hdir : (args.assign env {}).checkpointDir = args.checkpointDir := rfl
  simp only [runServerMain, TrainConfig.new_eq, henv, bind, Except.bind, pure, Except.pure, hdir]
  cases mkdir args.checkpointDir with
  | error e => exact iff_of_true (validLaunch_error e) (Or.inl ⟨e, rfl⟩)
  | ok u =>
    rw [validLaunch_ok (by simp), ServerArgs.valid_assign_iff]
    simp

lemma validLaunch_runWorkerMain_iff (args : WorkerArgs) :
    ValidLaunch (runWorkerMain args) ↔ args.Sound := by
  obtain ⟨env, henv⟩ := getEnv_ok args.env
  have hlaunch : runWorkerMain args =
      .ok ([Process.workerMain args.workerId].map (·, args.assign env {})) := by
    simp only [runWorkerMain, TrainConfig.new_eq, henv, bind, Except.bind, pure, Except.pure,
      List.map_cons, List.map_nil]
  rw [hlaunch, validLaunch_ok (by simp), WorkerArgs.valid_assign_iff]

/-- An entry point launches valid configurations only, exactly on the options that satisfy the
constraints themselves, or where the checkpoint directory cannot be made. -/
theorem launched_valid_iff (mkdir : String → Except LaunchError Unit) (train : TrainArgs)
    (server : ServerArgs) (worker : WorkerArgs) :
    (ValidLaunch (trainMain mkdir train) ↔
      (∃ e, mkdir train.checkpointDir = .error e) ∨ train.Sound) ∧
    (ValidLaunch (runServerMain mkdir server) ↔
      (∃ e, mkdir server.checkpointDir = .error e) ∨ server.Sound) ∧
    (ValidLaunch (runWorkerMain worker) ↔ worker.Sound) :=
  ⟨validLaunch_trainMain_iff mkdir train, validLaunch_runServerMain_iff mkdir server,
    validLaunch_runWorkerMain_iff worker⟩

/-- A quorum of nine among four workers, a momentum of one, and minibatches of no rows. -/
theorem invalid_launched :
    ¬ ValidLaunch (trainMain (fun _ => .ok ()) { minReadyWorkers := 9 }) ∧
    ¬ ValidLaunch (runServerMain (fun _ => .ok ()) { momentum := 1 }) ∧
    ¬ ValidLaunch (runWorkerMain { workerId := 0, minibatchSize := 0 }) := by
  refine ⟨?_, ?_, ?_⟩
  · intro h
    rcases (validLaunch_trainMain_iff _ _).mp h with ⟨e, he⟩ | hs
    · cases he
    · exact absurd hs.quorum (by decide)
  · intro h
    rcases (validLaunch_runServerMain_iff _ _).mp h with ⟨e, he⟩ | hs
    · cases he
    · exact absurd hs.momentum (by decide +kernel)
  · intro h
    have hs := (validLaunch_runWorkerMain_iff _).mp h
    exact absurd hs.minibatchSize (by decide)

end DistributedRL
