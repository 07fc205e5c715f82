import DistributedRL.Server.HeartbeatMonitor
import DistributedRL.Server.WeightStore

/-!
# The gradient aggregator

`GradientAggregator` of `server/connection_handler.py`. The part of `submit` that runs under the
aggregator's lock is one function of the state; what it does after releasing the lock belongs to
the thread that runs it.
-/

namespace DistributedRL

/-- A connection of the server, in order of acceptance. -/
abbrev ConnId := ℕ

/-- A pushed delta. The connection it came over and its number among the messages of that
connection identify it in statements; the code keeps only `grads`. -/
structure Delta (α : Type*) where
  conn : ConnId
  seq : ℕ
  grads : Payload α

/-- What identifies a delta. -/
def Delta.id {α : Type*} (δ : Delta α) : ConnId × ℕ := (δ.conn, δ.seq)

/-- The part of `TrainConfig` that the aggregator reads. -/
structure AggregatorConfig where
  minReadyWorkers : ℤ
  checkpointInterval : ℤ

/-- What `submit` takes out of the aggregator when the threshold is met: `grads_list`,
`round_norms` and `round_sockets`. -/
structure Round (α : Type*) where
  deltas : List (Delta α)
  norms : Dict WorkerId α
  sockets : Dict WorkerId ConnId

/-- `GradientAggregator`, without its lock and its references to other objects. -/
structure GradientAggregator (α : Type*) where
  buffer : Dict WorkerId (Delta α)
  norms : Dict WorkerId α
  sockets : Dict WorkerId ConnId
  lastCheckpointStep : ℕ

section Norm

variable {α : Type*} [Scalar α]

/-- `np.sum(np.square(arr))` -/
def sumSquares (arr : NDArray α) : α := (arr.data.map fun x => x * x).sum

/-- `_grad_norm`, which squares all values of the dict -/
def gradNorm (sqrt : α → α) : Payload α → Except PyError α
  | .dict grads => .ok (sqrt (grads.values.map sumSquares).sum)
  | .mixed _ _ => .error .typeError
  | .other => .error .attributeError

end Norm

namespace GradientAggregator

variable {α : Type*}

/-- `GradientAggregator.__init__` -/
def init (globalStep : ℕ) : GradientAggregator α := ⟨∅, ∅, ∅, globalStep⟩

/-- `GradientAggregator.register_socket` -/
def registerSocket (agg : GradientAggregator α) (w : WorkerId) (c : ConnId) :
    GradientAggregator α :=
  { agg with sockets := agg.sockets.set w c }

/-- `GradientAggregator.unregister` -/
def unregister (agg : GradientAggregator α) (w : WorkerId) : GradientAggregator α :=
  { agg with
    sockets := agg.sockets.erase w, buffer := agg.buffer.erase w, norms := agg.norms.erase w }

/-- `min_ready` in `submit` -/
def minReady (config : Option AggregatorConfig) : ℤ :=
  config.elim 0 AggregatorConfig.minReadyWorkers

/-- `waiting_on` in `submit` -/
def waitingOn (hb : HeartbeatMonitor) (agg : GradientAggregator α) : List WorkerId :=
  (hb.aliveWorkers.filter (· ∈ agg.sockets.keys)).filter (· ∉ agg.buffer.keys)

/-- `ready_count` in `submit` -/
def readyCount (hb : HeartbeatMonitor) (agg : GradientAggregator α) : ℕ :=
  (agg.buffer.keys.filter (· ∈ hb.aliveWorkers)).length

/-- `should_apply` in `submit` -/
def ShouldApply (config : Option AggregatorConfig) (hb : HeartbeatMonitor)
    (agg : GradientAggregator α) : Prop :=
  if minReady config ≤ 0 then agg.waitingOn hb = [] else minReady config ≤ agg.readyCount hb

instance (config : Option AggregatorConfig) (hb : HeartbeatMonitor) (agg : GradientAggregator α) :
    Decidable (agg.ShouldApply config hb) :=
  inferInstanceAs (Decidable (if minReady config ≤ 0 then _ else _))

/-- The buffer with one more delta, and its norm. -/
def enter (agg : GradientAggregator α) (w : WorkerId) (δ : Delta α) (norm : α) :
    GradientAggregator α :=
  { agg with buffer := agg.buffer.set w δ, norms := agg.norms.set w norm }

/-- The aggregator once a round has been taken out of it. -/
def clear (agg : GradientAggregator α) : GradientAggregator α :=
  { agg with buffer := ∅, norms := ∅ }

/-- The round that is taken out. -/
def round (agg : GradientAggregator α) : Round α := ⟨agg.buffer.values, agg.norms, agg.sockets⟩

/-- The locked part of `GradientAggregator.submit`: the state it leaves, and the round if one is
due. The delta stays in the buffer if `_grad_norm` raises. -/
def submit [Scalar α] (config : Option AggregatorConfig) (sqrt : α → α) (hb : HeartbeatMonitor)
    (agg : GradientAggregator α) (w : WorkerId) (δ : Delta α) :
    GradientAggregator α × Except PyError (Option (Round α)) :=
  match gradNorm sqrt δ.grads with
  | .error e => ({ agg with buffer := agg.buffer.set w δ }, .error e)
  | .ok norm =>
    let agg' := agg.enter w δ norm
    if agg'.ShouldApply config hb then (agg'.clear, .ok (some agg'.round)) else (agg', .ok none)

/-- The test of `GradientAggregator._maybe_checkpoint`. -/
def CheckpointDue (config : Option AggregatorConfig) (agg : GradientAggregator α) (step : ℕ) :
    Prop :=
  ∃ cfg ∈ config, ¬ ((step : ℤ) - agg.lastCheckpointStep < cfg.checkpointInterval)

instance (config : Option AggregatorConfig) (agg : GradientAggregator α) (step : ℕ) :
    Decidable (agg.CheckpointDue config step) :=
  match config with
  | none => .isFalse (by simp [CheckpointDue])
  | some cfg =>
    decidable_of_iff (¬ ((step : ℤ) - agg.lastCheckpointStep < cfg.checkpointInterval))
      (by simp [CheckpointDue])

/-! ### The barrier -/

variable {config : Option AggregatorConfig} {hb : HeartbeatMonitor} {agg : GradientAggregator α}
  {w v : WorkerId} {δ : Delta α} {norm : α}

/-- The round still waits for `w`: registered, ALIVE, and not in the buffer. -/
def Waits (agg : GradientAggregator α) (hb : HeartbeatMonitor) (w : WorkerId) : Prop :=
  w ∈ agg.sockets.keys ∧ w ∈ hb.aliveWorkers ∧ w ∉ agg.buffer.keys

instance (hb : HeartbeatMonitor) (agg : GradientAggregator α) (w : WorkerId) :
    Decidable (agg.Waits hb w) :=
  inferInstanceAs (Decidable (_ ∧ _ ∧ _))

lemma mem_waitingOn : w ∈ agg.waitingOn hb ↔ agg.Waits hb w := by
  simp only [waitingOn, List.mem_filter, decide_eq_true_eq, Waits]
  tauto

/-- In synchronous mode a round is due when it waits for nobody. -/
lemma shouldApply_sync (h : minReady config ≤ 0) :
    agg.ShouldApply config hb ↔ ∀ w, ¬ agg.Waits hb w := by
  rw [ShouldApply, if_pos h, List.eq_nil_iff_forall_not_mem]
  simp only [mem_waitingOn]

lemma mem_buffer_enter : v ∈ (agg.enter w δ norm).buffer.keys ↔ v = w ∨ v ∈ agg.buffer.keys :=
  Dict.mem_keys_set

lemma mem_norms_enter : v ∈ (agg.enter w δ norm).norms.keys ↔ v = w ∨ v ∈ agg.norms.keys :=
  Dict.mem_keys_set

@[simp] lemma sockets_enter : (agg.enter w δ norm).sockets = agg.sockets := rfl

@[simp] lemma get?_buffer_enter :
    (agg.enter w δ norm).buffer.get? v = if v = w then some δ else agg.buffer.get? v :=
  Dict.get?_set ..

@[simp] lemma buffer_clear : agg.clear.buffer = ∅ := rfl
@[simp] lemma norms_clear : agg.clear.norms = ∅ := rfl
@[simp] lemma sockets_clear : agg.clear.sockets = agg.sockets := rfl
@[simp] lemma deltas_round : agg.round.deltas = agg.buffer.values := rfl
@[simp] lemma sockets_round : agg.round.sockets = agg.sockets := rfl

@[simp] lemma get?_sockets_registerSocket {c : ConnId} : (agg.registerSocket w c).sockets.get? v =
    if v = w then some c else agg.sockets.get? v :=
  Dict.get?_set ..

@[simp] lemma buffer_registerSocket {c : ConnId} : (agg.registerSocket w c).buffer = agg.buffer :=
  rfl

@[simp] lemma norms_registerSocket {c : ConnId} : (agg.registerSocket w c).norms = agg.norms := rfl

@[simp] lemma get?_sockets_unregister :
    (agg.unregister w).sockets.get? v = if v = w then none else agg.sockets.get? v :=
  Dict.get?_erase ..

@[simp] lemma get?_buffer_unregister :
    (agg.unregister w).buffer.get? v = if v = w then none else agg.buffer.get? v :=
  Dict.get?_erase ..

end GradientAggregator

end DistributedRL
