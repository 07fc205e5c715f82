import DistributedRL.Server.AllOrNothing
import DistributedRL.Server.Rules

/-!
# The lock of the weight store

The server with the store's lock. What `WeightStore` does inside `with self.lock` takes many steps
here: `apply_gradients` updates one parameter in each of them, and the copies of `get_weights` and
`save_checkpoint` are made parameter by parameter. All the other threads go on in between, as far
as they do not need the lock themselves.

`Locked.atomic` is the server in which a thread does all this at once, when it releases the lock.
Every run of the server with the lock is a run of that one.
-/

namespace DistributedRL

variable {α : Type*}

/-! ### Sections -/

/-- Where a thread stands inside `with self.lock`. -/
inductive Critical (α : Type*)
  /-- in `get_weights`: the parameters left to copy, and the copies -/
  | getWeights (names : List String) (copy : Weights α)
  /-- in `get_step`: what has been read -/
  | getStep (step : Option ℕ)
  /-- in the loop of `apply_gradients`: the parameters left to update -/
  | applyGradients (gradsList : List (Payload α)) (names : List String)
  /-- after `self.global_step += 1` -/
  | applied
  /-- `apply_gradients` has raised -/
  | raised
  /-- in `save_checkpoint`, at the copy of the weights -/
  | saveWeights (names : List String) (weights : Weights α)
  /-- at the copy of the momentum buffers -/
  | saveBuffers (weights : Weights α) (names : List String) (buffers : Weights α)
  /-- before the file is written -/
  | saveDump (checkpoint : Checkpoint α)

/-- The thread that holds the lock, and where it stands. `before` is the store as the thread has
found it; it is kept for the history alone. -/
structure Held (α : Type*) where
  conn : ConnId
  before : WeightStore α
  point : Critical α

/-- What `get_weights` has returned to the thread of a connection, and the step of the store. -/
structure Pulled (α : Type*) where
  conn : ConnId
  weights : Weights α
  version : ℕ

/-- The server with the lock of its store. No step reads `pulled`, which is a record, newest first.
-/
structure Locked (α : Type*) where
  sys : System α
  held : Option (Held α)
  pulled : List (Pulled α)

/-- What can happen next: something that does not need the lock; a thread takes the lock; the one
that holds it takes a step, returns from the section, or is told that the disk is full. -/
inductive LockedAction (α : Type*)
  | other (a : Action α)
  | acquire (c : ConnId)
  | turn
  | release
  | abort

/-- The thread is about to enter a section. -/
def Handler.NeedsLock : Handler α → Bool
  | .dispatch m => m.type = .pullWeights
  | .beaten _ | .apply _ | .getStep _ | .checkpointSave => true
  | _ => false

namespace System

/-- The action is one of a thread that cannot go on without the lock. -/
def NeedsLock (s : System α) : Action α → Bool
  | .run c _ | .fail c => (s.conns c).handler.NeedsLock
  | _ => false

/-- The section that the thread enters. -/
def critical (s : System α) (c : ConnId) : Option (Critical α) :=
  match (s.conns c).handler, (s.conns c).workerId with
  | .dispatch m, some _ =>
    if m.type = .pullWeights then some (.getWeights s.store.weights.keys ∅) else none
  | .beaten _, some _ => some (.getStep none)
  | .apply r, _ => some (.applyGradients (r.deltas.map Delta.grads) s.store.weights.keys)
  | .getStep _, _ => some (.getStep none)
  | .checkpointSave, _ => some (.saveWeights s.store.weights.keys ∅)
  | _, _ => none

/-- The copy of one more parameter. -/
def copyParam (d : Weights α) (name : String) (copy : Weights α) : Weights α :=
  (d.get? name).elim copy (copy.set name)

/-- One step inside a section, and the section after it. -/
def turn [Scalar α] (s : System α) : Critical α → Option (System α × Critical α)
  | .getWeights (name :: names) copy =>
    some (s, .getWeights names (copyParam s.store.weights name copy))
  | .getStep none => some (s, .getStep (some s.store.globalStep))
  | .applyGradients gradsList (name :: names) =>
    match WeightStore.applyParam gradsList name s.store with
    | (st, .ok _) => some ({ s with store := st }, .applyGradients gradsList names)
    | (st, .error _) => some ({ s with store := st }, .raised)
  | .applyGradients _ [] =>
    some ({ s with store := { s.store with globalStep := s.store.globalStep + 1 } }, .applied)
  | .saveWeights (name :: names) weights =>
    some (s, .saveWeights names (copyParam s.store.weights name weights))
  | .saveWeights [] weights => some (s, .saveBuffers weights s.store.momentumBuffers.keys ∅)
  | .saveBuffers weights (name :: names) buffers =>
    some (s, .saveBuffers weights names (copyParam s.store.momentumBuffers name buffers))
  | .saveBuffers weights [] buffers =>
    some (s, .saveDump ⟨weights, buffers, s.store.globalStep, s.store.baseLr, s.store.momentum⟩)
  | _ => none

/-- The thread leaves the section, and goes on with what the section has returned. -/
def release [Zero α] (env : ServerEnv α) (s : System α) (h : Held α) : Option (System α) :=
  match h.point, (s.conns h.conn).handler, (s.conns h.conn).workerId with
  | .getWeights [] copy, _, _ => some (s.startReply env h.conn (.weightsResponse copy))
  | .getStep (some step), .beaten m, some w =>
    some ({ s with metrics := .heartbeat w step (m.episodeReward.getD 0) m.extra :: s.metrics
      }.startReply env h.conn .heartbeatAck)
  | .getStep (some step), .getStep r, _ => some (s.ackNext env h.conn r step r.sockets.values)
  | .applied, .apply r, _ =>
    some ({ s with history := s.history.apply r h.before s.store }.goto h.conn (.getStep r))
  | .raised, _, _ => some (s.quit h.conn)
  | .saveDump k, _, _ => some ({ s with checkpoints := k :: s.checkpoints }.goto h.conn .recv)
  | _, _, _ => none

end System

namespace Locked

/-- The server as `server_main` starts it on a store. -/
def init (store : WeightStore α) (timeout : ℚ) : Locked α := ⟨.init store timeout, none, []⟩

/-- The record of a section that returns. -/
def recordPull (s : Locked α) (h : Held α) : List (Pulled α) :=
  match h.point with
  | .getWeights [] copy => ⟨h.conn, copy, s.sys.store.globalStep⟩ :: s.pulled
  | _ => s.pulled

/-- The transition function of the server with the lock. -/
def step [Scalar α] (env : ServerEnv α) (s : Locked α) : LockedAction α → Option (Locked α)
  | .other a =>
    if s.sys.NeedsLock a then none else (s.sys.step env a).map fun sys => { s with sys := sys }
  | .acquire c =>
    match s.held with
    | none => (s.sys.critical c).map fun x => { s with held := some ⟨c, s.sys.store, x⟩ }
    | some _ => none
  | .turn => s.held.bind fun h => (s.sys.turn h.point).map fun p =>
    { s with sys := p.1, held := some { h with point := p.2 } }
  | .release => s.held.bind fun h => (s.sys.release env h).map fun sys =>
    { s with sys := sys, held := none, pulled := s.recordPull h }
  | .abort => s.held.bind fun h =>
    match h.point with
    | .saveDump _ => some { s with sys := s.sys.quit h.conn, held := none }
    | _ => none

/-- The server as if the section in progress had not begun. -/
def atomic (s : Locked α) : System α :=
  match s.held with
  | none => s.sys
  | some h => { s.sys with store := h.before }

end Locked

/-! ### Steps that do not need the lock -/

namespace System

variable [Scalar α] {env : ServerEnv α} {s s' : System α} {a : Action α}

omit [Scalar α] in
lemma receive_withStore (st : WeightStore α) (c : ConnId) :
    { s with store := st }.receive c =
      (s.receive c).map fun s' => { s' with store := st } := by
  simp only [receive]
  split
  · rfl
  · split
    · rfl
    · split <;> rfl

lemma submit_withStore (st : WeightStore α) (c : ConnId) (w : WorkerId) (g : Payload α) :
    { s with store := st }.submit env c w g = { s.submit env c w g with store := st } := by
  have hdelta : { s with store := st }.delta c g = s.delta c g := rfl
  simp only [submit, hdelta]
  split <;> rfl

lemma advance_withStore (st : WeightStore α) {c : ConnId} (now : ℚ)
    (h : (s.conns c).handler.NeedsLock = false) :
    { s with store := st }.advance env c now =
      (s.advance env c now).map fun s' => { s' with store := st } := by
  simp only [advance]
  split
  · exact receive_withStore st c
  · rfl
  · rfl
  · next m w hh _ =>
    simp only [Option.map_some, Option.some.injEq, dispatch]
    split
    · next ht => simp [hh, Handler.NeedsLock, ht] at h
    · cases m.gradients with
      | none => rfl
      | some g => exact submit_withStore st c w g
    · rfl
    · rfl
  all_goals first | rfl | simp_all [Handler.NeedsLock]

omit [Scalar α] in
lemma write_withStore (st : WeightStore α) (c : ConnId) (n : ℕ) :
    { s with store := st }.write env c n =
      (s.write env c n).map fun s' => { s' with store := st } := by
  have hwritable : ∀ d, { s with store := st }.Writable d ↔ s.Writable d := fun d => Iff.rfl
  simp only [write, hwritable]
  split
  · split_ifs <;> rfl
  · split_ifs <;> rfl
  · rfl

omit [Scalar α] in
lemma osError_withStore (st : WeightStore α) (c : ConnId) :
    { s with store := st }.osError env c =
      (s.osError env c).map fun s' => { s' with store := st } := by
  have hbroken : ∀ d, { s with store := st }.Broken d ↔ s.Broken d := fun d => Iff.rfl
  simp only [osError, hbroken]
  split
  · split_ifs <;> rfl
  · split_ifs <;> rfl
  · split_ifs <;> rfl
  · rfl
  · rfl

/-- Such a step does not depend on the store, and leaves it alone. -/
lemma step_withStore (st : WeightStore α) (h : s.NeedsLock a = false) :
    { s with store := st }.step env a =
      (s.step env a).map fun s' => { s' with store := st } := by
  cases a with
  | accept c => simp only [step]; split <;> rfl
  | arrive c x =>
    simp only [step]
    split
    · rfl
    · split_ifs <;> rfl
  | hangup c => simp only [step]; split <;> rfl
  | scan now => rfl
  | run c now => exact advance_withStore st now h
  | write c n => exact write_withStore st c n
  | fail c => exact osError_withStore st c

end System

end DistributedRL
