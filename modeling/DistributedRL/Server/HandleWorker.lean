import DistributedRL.Comms.Protocol
import DistributedRL.Server.GradientAggregator
import Mathlib.Logic.Function.Basic

/-!
# The server

The weight store, the aggregator, the heartbeat monitor and one `handle_worker` thread for every
connection. A thread is a program counter; between two of its steps any other thread may run. What
the source does under one lock is one step, and `sendall` takes as many steps as it makes partial
sends.

`History` records what has happened. No step reads it.
-/

namespace DistributedRL

/-! ### Messages -/

/-- `MessageType`, and any other tag. -/
inductive MessageType
  | pushGradients | pullWeights | weightsResponse | ack | heartbeat | heartbeatAck
  | unknown (tag : String)
  deriving DecidableEq

/-- A message to the server, with the keys `handle_worker` reads; `extra` are the other ones. -/
structure Message (α : Type*) where
  type : MessageType
  workerId : Option WorkerId
  gradients : Option (Payload α)
  episodeReward : Option α
  extra : Dict String α

/-- One frame as it reaches `handle_worker`. `unreadable` raises in `pickle.loads` or at
`msg["type"]`. -/
inductive Received (α : Type*)
  | unreadable
  | message (m : Message α)

/-- A message from the server. -/
inductive Response (α : Type*)
  | weightsResponse (weights : Weights α)
  | ack (globalStep : ℕ)
  | heartbeatAck

/-- A call of the metrics emitter. -/
inductive MetricsEvent (α : Type*)
  | weightUpdate (step : ℕ) (norms : Dict WorkerId α) (statuses : Dict WorkerId Liveness)
  | heartbeat (w : WorkerId) (step : ℕ) (reward : α) (extra : Dict String α)

/-! ### State -/

/-- Where a thread of `handle_worker` stands. -/
inductive Handler (α : Type*)
  /-- not accepted yet -/
  | absent
  /-- in `recv_message` -/
  | recv
  /-- before `heartbeat_monitor.register` -/
  | register (m : Message α)
  /-- before `aggregator.register_socket` -/
  | registerSocket (m : Message α)
  /-- at the test of `mtype` -/
  | dispatch (m : Message α)
  /-- in `send_message(sock, resp)`, with the bytes still to send -/
  | reply (resp : Response α) (rest : List UInt8)
  /-- after `heartbeat_monitor.beat` -/
  | beaten (m : Message α)
  /-- in `submit`, before `apply_gradients` -/
  | apply (r : Round α)
  /-- in `submit`, before `get_step` -/
  | getStep (r : Round α)
  /-- in the ACK loop of `submit`: the sockets still to serve, and the bytes still to send to the
  first of them -/
  | acks (r : Round α) (step : ℕ) (todo : List ConnId) (rest : List UInt8)
  /-- before `metrics.weight_update` -/
  | emit (r : Round α) (step : ℕ)
  /-- in `_maybe_checkpoint`, before its test -/
  | checkpoint (step : ℕ)
  /-- before `self.last_checkpoint_step = step` -/
  | checkpointAssign (step : ℕ)
  /-- before `save_checkpoint` -/
  | checkpointSave
  /-- in the `finally` block, before `mark_dead` -/
  | markDead
  /-- before `unregister` -/
  | unregister
  /-- before `sock.close` -/
  | close
  /-- the thread has ended -/
  | done

/-- A connection: its thread, the thread's variable `worker_id`, the frames received and not yet
read, how many have been read, whether the peer has hung up, whether a send to it has raised, and
the bytes written to the peer. -/
structure Conn (α : Type*) where
  handler : Handler α
  workerId : Option WorkerId
  inbox : List (Received α)
  received : ℕ
  eof : Bool
  reset : Bool
  written : List UInt8

/-- A connection before it is accepted. -/
def Conn.init (α : Type*) : Conn α := ⟨.absent, none, [], 0, false, false, []⟩

/-- A completed `apply_gradients`. -/
structure Applied (α : Type*) where
  deltas : List (Delta α)
  before : WeightStore α
  after : WeightStore α

/-- A completely written ACK: to whom, for which deltas, and the step it carries. -/
structure Acked (α : Type*) where
  conn : ConnId
  deltas : List (Delta α)
  step : ℕ

/-- The past, newest first. -/
structure History (α : Type*) where
  accepted : List (Delta α)
  applied : List (Applied α)
  acked : List (Acked α)
  registrations : List (WorkerId × ConnId)

namespace History

variable {α : Type*}

/-- A delta has been put into the buffer. -/
def accept (h : History α) (δ : Delta α) : History α := { h with accepted := δ :: h.accepted }

/-- `apply_gradients` has returned. -/
def apply (h : History α) (r : Round α) (before after : WeightStore α) : History α :=
  { h with applied := ⟨r.deltas, before, after⟩ :: h.applied }

/-- The last byte of an ACK has been written. -/
def ack (h : History α) (d : ConnId) (r : Round α) (step : ℕ) : History α :=
  { h with acked := ⟨d, r.deltas, step⟩ :: h.acked }

/-- A connection has registered its socket. -/
def register (h : History α) (w : WorkerId) (c : ConnId) : History α :=
  { h with registrations := (w, c) :: h.registrations }

end History

/-- What the server is configured with. `pickle` covers the messages it sends. -/
structure ServerEnv (α : Type*) where
  config : Option AggregatorConfig
  sqrt : α → α
  pickle : Pickle (Response α)

/-- The server's state. -/
structure System (α : Type*) where
  store : WeightStore α
  agg : GradientAggregator α
  hb : HeartbeatMonitor
  conns : ConnId → Conn α
  metrics : List (MetricsEvent α)
  checkpoints : List (Checkpoint α)
  history : History α

/-- What can happen next: the listener accepts, a frame or a hang-up arrives, the monitor scans, a
thread takes a step, sends `n` more bytes, or is told that its connection (or the disk) is gone. -/
inductive Action (α : Type*)
  | accept (c : ConnId)
  | arrive (c : ConnId) (x : Received α)
  | hangup (c : ConnId)
  | scan (now : ℚ)
  | run (c : ConnId) (now : ℚ)
  | write (c : ConnId) (n : ℕ)
  | fail (c : ConnId)

namespace System

variable {α : Type*}

/-- The server as `server_main` starts it on a store. -/
def init (store : WeightStore α) (timeout : ℚ) : System α where
  store := store
  agg := .init store.globalStep
  hb := .init timeout
  conns _ := Conn.init α
  metrics := []
  checkpoints := []
  history := ⟨[], [], [], []⟩

/-- Replace the record of a connection. -/
def setConn (s : System α) (c : ConnId) (k : Conn α) : System α :=
  { s with conns := Function.update s.conns c k }

/-- Move a thread. -/
def goto (s : System α) (c : ConnId) (h : Handler α) : System α :=
  s.setConn c { s.conns c with handler := h }

/-- Append to what has been written to a connection. -/
def send (s : System α) (c : ConnId) (bytes : List UInt8) : System α :=
  s.setConn c { s.conns c with written := (s.conns c).written ++ bytes }

/-- Where a thread goes when it leaves the loop: the `finally` block. -/
def exit (s : System α) (c : ConnId) : Handler α :=
  if (s.conns c).workerId.isSome then .markDead else .close

/-- Leave the loop. -/
abbrev quit (s : System α) (c : ConnId) : System α := s.goto c (s.exit c)

/-- Where a thread stands at the start of `send_message(sock, resp)`: the payload is pickled and
its length packed before a byte is sent. -/
def replying (env : ServerEnv α) (s : System α) (c : ConnId) (resp : Response α) : Handler α :=
  match frame env.pickle resp with
  | .ok bytes => .reply resp bytes
  | .error _ => s.exit c

/-- Start `send_message(sock, resp)`. -/
abbrev startReply (env : ServerEnv α) (s : System α) (c : ConnId) (resp : Response α) : System α :=
  s.goto c (s.replying env c resp)

/-- Where a thread stands in the ACK loop of `submit`, the sockets of `todo` being left. -/
def acking (env : ServerEnv α) (s : System α) (c : ConnId) (r : Round α) (step : ℕ) :
    List ConnId → Handler α
  | [] => .emit r step
  | d :: todo =>
    match frame env.pickle (.ack step) with
    | .ok bytes => .acks r step (d :: todo) bytes
    | .error _ => s.exit c

/-- Go on with the ACK loop of `submit`. -/
abbrev ackNext (env : ServerEnv α) (s : System α) (c : ConnId) (r : Round α) (step : ℕ)
    (todo : List ConnId) : System α :=
  s.goto c (s.acking env c r step todo)

/-- `recv_message` returns, and `worker_id` is set if it was not. -/
def receive (s : System α) (c : ConnId) : Option (System α) :=
  match (s.conns c).inbox with
  | [] => none
  | x :: rest =>
    let k := { s.conns c with inbox := rest, received := (s.conns c).received + 1 }
    match x with
    | .unreadable => some ((s.setConn c k).quit c)
    | .message m =>
      match k.workerId, m.workerId with
      | some _, _ => some (s.setConn c { k with handler := .dispatch m })
      | none, some w => some (s.setConn c { k with workerId := some w, handler := .register m })
      | none, none => some (s.setConn c { k with handler := .close })

/-- The delta in the message that the thread of `c` has read last. -/
def delta (s : System α) (c : ConnId) (grads : Payload α) : Delta α :=
  ⟨c, (s.conns c).received, grads⟩

/-- `aggregator.submit(worker_id, msg["gradients"])`, up to the release of the aggregator's lock. -/
def submit [Scalar α] (env : ServerEnv α) (s : System α) (c : ConnId) (w : WorkerId)
    (grads : Payload α) : System α :=
  match s.agg.submit env.config env.sqrt s.hb w (s.delta c grads) with
  | (agg, .error _) => { s with agg := agg, history := s.history.accept (s.delta c grads) }.quit c
  | (agg, .ok none) =>
    { s with agg := agg, history := s.history.accept (s.delta c grads) }.goto c .recv
  | (agg, .ok (some r)) =>
    { s with agg := agg, history := s.history.accept (s.delta c grads) }.goto c (.apply r)

/-- The branches on `mtype`. -/
def dispatch [Scalar α] (env : ServerEnv α) (s : System α) (c : ConnId) (w : WorkerId)
    (m : Message α) (now : ℚ) : System α :=
  match m.type with
  | .pullWeights => s.startReply env c (.weightsResponse s.store.weights)
  | .pushGradients => m.gradients.elim (s.quit c) (s.submit env c w)
  | .heartbeat => { s with hb := s.hb.beat w now }.goto c (.beaten m)
  | _ => s.goto c .recv

/-- The rest of the HEARTBEAT branch. -/
def heartbeat [Zero α] (env : ServerEnv α) (s : System α) (c : ConnId) (w : WorkerId)
    (m : Message α) : System α :=
  { s with
    metrics := .heartbeat w s.store.globalStep (m.episodeReward.getD 0) m.extra :: s.metrics
    }.startReply env c .heartbeatAck

/-- `weight_store.apply_gradients(grads_list)` -/
def applyGradients [Scalar α] (s : System α) (c : ConnId) (r : Round α) : System α :=
  match s.store.applyGradients (r.deltas.map Delta.grads) with
  | (st, .ok _) =>
    { s with store := st, history := s.history.apply r s.store st }.goto c (.getStep r)
  | (st, .error _) => { s with store := st }.quit c

/-- The step of a thread that neither sends nor waits. -/
def advance [Scalar α] (env : ServerEnv α) (s : System α) (c : ConnId) (now : ℚ) :
    Option (System α) :=
  match (s.conns c).handler, (s.conns c).workerId with
  | .recv, _ => s.receive c
  | .register m, some w => some ({ s with hb := s.hb.register w now }.goto c (.registerSocket m))
  | .registerSocket m, some w =>
    some ({ s with
      agg := s.agg.registerSocket w c, history := s.history.register w c }.goto c (.dispatch m))
  | .dispatch m, some w => some (s.dispatch env c w m now)
  | .beaten m, some w => some (s.heartbeat env c w m)
  | .apply r, _ => some (s.applyGradients c r)
  | .getStep r, _ => some (s.ackNext env c r s.store.globalStep r.sockets.values)
  | .emit r step, _ =>
    some ({ s with metrics := .weightUpdate step r.norms s.hb.snapshot :: s.metrics }.goto c
      (.checkpoint step))
  | .checkpoint step, _ =>
    some (s.goto c (if s.agg.CheckpointDue env.config step then .checkpointAssign step else .recv))
  | .checkpointAssign step, _ =>
    some ({ s with agg := { s.agg with lastCheckpointStep := step } }.goto c .checkpointSave)
  | .checkpointSave, _ =>
    some ({ s with checkpoints := s.store.checkpoint :: s.checkpoints }.goto c .recv)
  | .markDead, some w => some ({ s with hb := s.hb.markDead w }.goto c .unregister)
  | .unregister, some w => some ({ s with agg := s.agg.unregister w }.goto c .close)
  | .close, _ => some (s.goto c .done)
  | _, _ => none

/-- Nothing can be written to a socket that has been closed or has raised in a send. -/
def Writable (s : System α) (d : ConnId) : Prop :=
  (s.conns d).reset = false ∧ ¬ (s.conns d).handler matches .done

instance (s : System α) (d : ConnId) : Decidable (s.Writable d) :=
  inferInstanceAs (Decidable (_ ∧ _))

/-- A partial send of `n` bytes by the thread of `c`. -/
def write (env : ServerEnv α) (s : System α) (c : ConnId) (n : ℕ) : Option (System α) :=
  match (s.conns c).handler with
  | .reply resp rest =>
    if ¬ s.Writable c then none
    else if 0 < n ∧ n < rest.length then
      some ((s.send c (rest.take n)).goto c (.reply resp (rest.drop n)))
    else if n = rest.length then some ((s.send c rest).goto c .recv)
    else none
  | .acks r step (d :: todo) rest =>
    if ¬ s.Writable d then none
    else if 0 < n ∧ n < rest.length then
      some ((s.send d (rest.take n)).goto c (.acks r step (d :: todo) (rest.drop n)))
    else if n = rest.length then
      some ({ s.send d rest with history := s.history.ack d r step }.ackNext env c r step todo)
    else none
  | _ => none

/-- A send to `d` can raise: the peer is gone, or its own thread has closed the socket. -/
def Broken (s : System α) (d : ConnId) : Prop :=
  (s.conns d).eof = true ∨ (s.conns d).handler matches .done

instance (s : System α) (d : ConnId) : Decidable (s.Broken d) :=
  inferInstanceAs (Decidable (_ ∨ _))

/-- A send to `d` raises; so will every later one. -/
def reset (s : System α) (d : ConnId) : System α := s.setConn d { s.conns d with reset := true }

/-- An exception of the operating system. In the ACK loop it is swallowed; elsewhere it ends the
connection. -/
def osError (env : ServerEnv α) (s : System α) (c : ConnId) : Option (System α) :=
  match (s.conns c).handler with
  | .recv => if (s.conns c).eof then some (s.quit c) else none
  | .reply _ _ => if (s.conns c).eof then some ((s.reset c).quit c) else none
  | .acks r step (d :: todo) _ =>
    if s.Broken d then some ((s.reset d).ackNext env c r step todo) else none
  | .checkpointSave => some (s.quit c)
  | _ => none

/-- The transition function of the server. -/
def step [Scalar α] (env : ServerEnv α) (s : System α) : Action α → Option (System α)
  | .accept c =>
    match (s.conns c).handler with
    | .absent => some (s.goto c .recv)
    | _ => none
  | .arrive c x =>
    match (s.conns c).handler with
    | .absent => none
    | _ =>
      if (s.conns c).eof then none
      else some (s.setConn c { s.conns c with inbox := (s.conns c).inbox ++ [x] })
  | .hangup c =>
    match (s.conns c).handler with
    | .absent => none
    | _ => some (s.setConn c { s.conns c with eof := true })
  | .scan now => some { s with hb := s.hb.scan now }
  | .run c now => s.advance env c now
  | .write c n => s.write env c n
  | .fail c => s.osError env c

end System

end DistributedRL
