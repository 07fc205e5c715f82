import DistributedRL.Server.HandleWorker

/-!
# The rules of the server

`Rule` is the transition function seen as a relation, one constructor for each thing a thread or
the outside can do. Invariants are proved by cases on it.
-/

namespace DistributedRL

variable {α : Type*}

namespace System

variable (s : System α) (c d : ConnId) (h : Handler α) (k : Conn α) (bytes : List UInt8)

/-! ### Frame lemmas -/

@[simp] lemma conns_setConn :
    (s.setConn c k).conns d = if d = c then k else s.conns d := by
  simp only [setConn, Function.update_apply]

@[simp] lemma handler_goto :
    ((s.goto c h).conns d).handler = if d = c then h else (s.conns d).handler := by
  rw [goto, conns_setConn]; split_ifs <;> rfl

@[simp] lemma workerId_goto : ((s.goto c h).conns d).workerId = (s.conns d).workerId := by
  rw [goto, conns_setConn]; split_ifs with e <;> simp [e]

@[simp] lemma inbox_goto : ((s.goto c h).conns d).inbox = (s.conns d).inbox := by
  rw [goto, conns_setConn]; split_ifs with e <;> simp [e]

@[simp] lemma received_goto : ((s.goto c h).conns d).received = (s.conns d).received := by
  rw [goto, conns_setConn]; split_ifs with e <;> simp [e]

@[simp] lemma eof_goto : ((s.goto c h).conns d).eof = (s.conns d).eof := by
  rw [goto, conns_setConn]; split_ifs with e <;> simp [e]

@[simp] lemma written_goto : ((s.goto c h).conns d).written = (s.conns d).written := by
  rw [goto, conns_setConn]; split_ifs with e <;> simp [e]

@[simp] lemma handler_send : ((s.send c bytes).conns d).handler = (s.conns d).handler := by
  rw [send, conns_setConn]; split_ifs with e <;> simp [e]

@[simp] lemma workerId_send : ((s.send c bytes).conns d).workerId = (s.conns d).workerId := by
  rw [send, conns_setConn]; split_ifs with e <;> simp [e]

@[simp] lemma inbox_send : ((s.send c bytes).conns d).inbox = (s.conns d).inbox := by
  rw [send, conns_setConn]; split_ifs with e <;> simp [e]

@[simp] lemma received_send : ((s.send c bytes).conns d).received = (s.conns d).received := by
  rw [send, conns_setConn]; split_ifs with e <;> simp [e]

@[simp] lemma eof_send : ((s.send c bytes).conns d).eof = (s.conns d).eof := by
  rw [send, conns_setConn]; split_ifs with e <;> simp [e]

@[simp] lemma reset_goto : ((s.goto c h).conns d).reset = (s.conns d).reset := by
  rw [goto, conns_setConn]; split_ifs with e <;> simp [e]

@[simp] lemma reset_send : ((s.send c bytes).conns d).reset = (s.conns d).reset := by
  rw [send, conns_setConn]; split_ifs with e <;> simp [e]

@[simp] lemma handler_reset : ((s.reset c).conns d).handler = (s.conns d).handler := by
  rw [reset, conns_setConn]; split_ifs with e <;> simp [e]

@[simp] lemma workerId_reset : ((s.reset c).conns d).workerId = (s.conns d).workerId := by
  rw [reset, conns_setConn]; split_ifs with e <;> simp [e]

@[simp] lemma inbox_reset : ((s.reset c).conns d).inbox = (s.conns d).inbox := by
  rw [reset, conns_setConn]; split_ifs with e <;> simp [e]

@[simp] lemma received_reset : ((s.reset c).conns d).received = (s.conns d).received := by
  rw [reset, conns_setConn]; split_ifs with e <;> simp [e]

@[simp] lemma eof_reset : ((s.reset c).conns d).eof = (s.conns d).eof := by
  rw [reset, conns_setConn]; split_ifs with e <;> simp [e]

@[simp] lemma reset_reset :
    ((s.reset c).conns d).reset = if d = c then true else (s.conns d).reset := by
  rw [reset, conns_setConn]; split_ifs <;> rfl

@[simp] lemma written_reset : ((s.reset c).conns d).written = (s.conns d).written := by
  rw [reset, conns_setConn]; split_ifs with e <;> simp [e]

@[simp] lemma written_send : ((s.send c bytes).conns d).written =
    if d = c then (s.conns d).written ++ bytes else (s.conns d).written := by
  rw [send, conns_setConn]; split_ifs with e <;> simp [e]

/-! ### Where a thread can go -/

lemma exit_cases : s.exit c = .markDead ∨ s.exit c = .close := by
  rw [exit]
  split_ifs
  · exact Or.inl rfl
  · exact Or.inr rfl

lemma replying_cases (env : ServerEnv α) (resp : Response α) :
    (∃ bytes, frame env.pickle resp = .ok bytes ∧ s.replying env c resp = .reply resp bytes) ∨
      s.replying env c resp = s.exit c := by
  rw [replying]
  split
  · next bytes hb => exact Or.inl ⟨bytes, hb, rfl⟩
  · exact Or.inr rfl

lemma acking_cases (env : ServerEnv α) (r : Round α) (step : ℕ) (todo : List ConnId) :
    (todo = [] ∧ s.acking env c r step todo = .emit r step) ∨
      (todo ≠ [] ∧ ∃ bytes, frame env.pickle (.ack step) = .ok bytes ∧
        s.acking env c r step todo = .acks r step todo bytes) ∨
      s.acking env c r step todo = s.exit c := by
  cases todo with
  | nil => exact Or.inl ⟨rfl, rfl⟩
  | cons d todo =>
    rw [acking]
    split
    · next bytes hb => exact Or.inr (Or.inl ⟨by simp, bytes, hb, rfl⟩)
    · exact Or.inr (Or.inr rfl)

@[simp] lemma exit_ne_apply (r : Round α) : s.exit c ≠ .apply r := by
  rcases s.exit_cases c with h | h <;> simp [h]

@[simp] lemma replying_ne_apply (env : ServerEnv α) (resp : Response α) (r : Round α) :
    s.replying env c resp ≠ .apply r := by
  rcases s.replying_cases c env resp with ⟨_, -, h⟩ | h <;> simp [h]

@[simp] lemma acking_ne_apply (env : ServerEnv α) (r' : Round α) (step : ℕ) (todo : List ConnId)
    (r : Round α) : s.acking env c r' step todo ≠ .apply r := by
  rcases s.acking_cases c env r' step todo with ⟨-, h⟩ | ⟨-, _, -, h⟩ | h <;> simp [h]

/-! ### What stays the same -/

@[simp] lemma agg_setConn : (s.setConn c k).agg = s.agg := rfl
@[simp] lemma hb_setConn : (s.setConn c k).hb = s.hb := rfl
@[simp] lemma store_setConn : (s.setConn c k).store = s.store := rfl
@[simp] lemma history_setConn : (s.setConn c k).history = s.history := rfl
@[simp] lemma agg_goto : (s.goto c h).agg = s.agg := rfl
@[simp] lemma hb_goto : (s.goto c h).hb = s.hb := rfl
@[simp] lemma store_goto : (s.goto c h).store = s.store := rfl
@[simp] lemma history_goto : (s.goto c h).history = s.history := rfl
@[simp] lemma agg_send : (s.send c bytes).agg = s.agg := rfl
@[simp] lemma hb_send : (s.send c bytes).hb = s.hb := rfl
@[simp] lemma store_send : (s.send c bytes).store = s.store := rfl
@[simp] lemma history_send : (s.send c bytes).history = s.history := rfl
@[simp] lemma agg_reset : (s.reset c).agg = s.agg := rfl
@[simp] lemma hb_reset : (s.reset c).hb = s.hb := rfl
@[simp] lemma store_reset : (s.reset c).store = s.store := rfl
@[simp] lemma history_reset : (s.reset c).history = s.history := rfl

end System

/-! ### The rules -/

variable [Scalar α] {env : ServerEnv α} {s s' : System α} {a : Action α}

/-- One step of the server. -/
inductive Rule (env : ServerEnv α) (s : System α) : Action α → System α → Prop
  | accept {c} (h : (s.conns c).handler = .absent) : Rule env s (.accept c) (s.goto c .recv)
  | arrive {c x} (h : (s.conns c).handler ≠ .absent) (he : (s.conns c).eof = false) :
    Rule env s (.arrive c x)
      (s.setConn c { s.conns c with inbox := (s.conns c).inbox ++ [x] })
  | hangup {c} (h : (s.conns c).handler ≠ .absent) :
    Rule env s (.hangup c) (s.setConn c { s.conns c with eof := true })
  | scan {now} : Rule env s (.scan now) { s with hb := s.hb.scan now }
  | unreadable {c now rest} (h : (s.conns c).handler = .recv)
      (hi : (s.conns c).inbox = .unreadable :: rest) :
    Rule env s (.run c now) ((s.setConn c { s.conns c with
      inbox := rest, received := (s.conns c).received + 1 }).quit c)
  | anonymous {c now m rest} (h : (s.conns c).handler = .recv)
      (hi : (s.conns c).inbox = .message m :: rest) (hw : (s.conns c).workerId = none)
      (hm : m.workerId = none) :
    Rule env s (.run c now) (s.setConn c { s.conns c with
      inbox := rest, received := (s.conns c).received + 1, handler := .close })
  | identify {c now m rest w} (h : (s.conns c).handler = .recv)
      (hi : (s.conns c).inbox = .message m :: rest) (hw : (s.conns c).workerId = none)
      (hm : m.workerId = some w) :
    Rule env s (.run c now) (s.setConn c { s.conns c with
      inbox := rest, received := (s.conns c).received + 1, workerId := some w,
      handler := .register m })
  | next {c now m rest w} (h : (s.conns c).handler = .recv)
      (hi : (s.conns c).inbox = .message m :: rest) (hw : (s.conns c).workerId = some w) :
    Rule env s (.run c now) (s.setConn c { s.conns c with
      inbox := rest, received := (s.conns c).received + 1, handler := .dispatch m })
  | register {c now m w} (h : (s.conns c).handler = .register m)
      (hw : (s.conns c).workerId = some w) :
    Rule env s (.run c now) ({ s with hb := s.hb.register w now }.goto c (.registerSocket m))
  | registerSocket {c now m w} (h : (s.conns c).handler = .registerSocket m)
      (hw : (s.conns c).workerId = some w) :
    Rule env s (.run c now) ({ s with
      agg := s.agg.registerSocket w c, history := s.history.register w c }.goto c (.dispatch m))
  | pull {c now m w} (h : (s.conns c).handler = .dispatch m)
      (hw : (s.conns c).workerId = some w) (ht : m.type = .pullWeights) :
    Rule env s (.run c now) (s.startReply env c (.weightsResponse s.store.weights))
  | keyError {c now m w} (h : (s.conns c).handler = .dispatch m)
      (hw : (s.conns c).workerId = some w) (ht : m.type = .pushGradients)
      (hg : m.gradients = none) :
    Rule env s (.run c now) (s.quit c)
  | raised {c now m w g e} (h : (s.conns c).handler = .dispatch m)
      (hw : (s.conns c).workerId = some w) (ht : m.type = .pushGradients)
      (hg : m.gradients = some g) (hn : gradNorm env.sqrt g = .error e) :
    Rule env s (.run c now) ({ s with
      agg := { s.agg with buffer := s.agg.buffer.set w (s.delta c g) },
      history := s.history.accept (s.delta c g) }.quit c)
  | buffered {c now m w g norm} (h : (s.conns c).handler = .dispatch m)
      (hw : (s.conns c).workerId = some w) (ht : m.type = .pushGradients)
      (hg : m.gradients = some g) (hn : gradNorm env.sqrt g = .ok norm)
      (hs : ¬ (s.agg.enter w (s.delta c g) norm).ShouldApply env.config s.hb) :
    Rule env s (.run c now) ({ s with
      agg := s.agg.enter w (s.delta c g) norm,
      history := s.history.accept (s.delta c g) }.goto c .recv)
  | fired {c now m w g norm} (h : (s.conns c).handler = .dispatch m)
      (hw : (s.conns c).workerId = some w) (ht : m.type = .pushGradients)
      (hg : m.gradients = some g) (hn : gradNorm env.sqrt g = .ok norm)
      (hs : (s.agg.enter w (s.delta c g) norm).ShouldApply env.config s.hb) :
    Rule env s (.run c now) ({ s with
      agg := (s.agg.enter w (s.delta c g) norm).clear,
      history := s.history.accept (s.delta c g) }.goto c
        (.apply (s.agg.enter w (s.delta c g) norm).round))
  | beat {c now m w} (h : (s.conns c).handler = .dispatch m)
      (hw : (s.conns c).workerId = some w) (ht : m.type = .heartbeat) :
    Rule env s (.run c now) ({ s with hb := s.hb.beat w now }.goto c (.beaten m))
  | ignored {c now m w} (h : (s.conns c).handler = .dispatch m)
      (hw : (s.conns c).workerId = some w) (ht : m.type ≠ .pullWeights)
      (ht' : m.type ≠ .pushGradients) (ht'' : m.type ≠ .heartbeat) :
    Rule env s (.run c now) (s.goto c .recv)
  | heartbeat {c now m w} (h : (s.conns c).handler = .beaten m)
      (hw : (s.conns c).workerId = some w) :
    Rule env s (.run c now) (s.heartbeat env c w m)
  | applied {c now r st} (h : (s.conns c).handler = .apply r)
      (ha : s.store.applyGradients (r.deltas.map Delta.grads) = (st, .ok ())) :
    Rule env s (.run c now) ({ s with
      store := st, history := s.history.apply r s.store st }.goto c (.getStep r))
  | applyRaised {c now r st e} (h : (s.conns c).handler = .apply r)
      (ha : s.store.applyGradients (r.deltas.map Delta.grads) = (st, .error e)) :
    Rule env s (.run c now) ({ s with store := st }.quit c)
  | getStep {c now r} (h : (s.conns c).handler = .getStep r) :
    Rule env s (.run c now) (s.ackNext env c r s.store.globalStep r.sockets.values)
  | replyPart {c n resp rest} (h : (s.conns c).handler = .reply resp rest) (hd : s.Writable c)
      (hn : 0 < n) (hl : n < rest.length) :
    Rule env s (.write c n) ((s.send c (rest.take n)).goto c (.reply resp (rest.drop n)))
  | replyEnd {c resp rest} (h : (s.conns c).handler = .reply resp rest) (hd : s.Writable c) :
    Rule env s (.write c rest.length) ((s.send c rest).goto c .recv)
  | ackPart {c n r step d todo rest} (h : (s.conns c).handler = .acks r step (d :: todo) rest)
      (hd : s.Writable d) (hn : 0 < n) (hl : n < rest.length) :
    Rule env s (.write c n)
      ((s.send d (rest.take n)).goto c (.acks r step (d :: todo) (rest.drop n)))
  | ackEnd {c r step d todo rest} (h : (s.conns c).handler = .acks r step (d :: todo) rest)
      (hd : s.Writable d) :
    Rule env s (.write c rest.length)
      ({ s.send d rest with history := s.history.ack d r step }.ackNext env c r step todo)
  | emit {c now r step} (h : (s.conns c).handler = .emit r step) :
    Rule env s (.run c now)
      ({ s with metrics := .weightUpdate step r.norms s.hb.snapshot :: s.metrics }.goto c
        (.checkpoint step))
  | checkpoint {c now step} (h : (s.conns c).handler = .checkpoint step) :
    Rule env s (.run c now)
      (s.goto c (if s.agg.CheckpointDue env.config step then .checkpointAssign step else .recv))
  | checkpointAssign {c now step} (h : (s.conns c).handler = .checkpointAssign step) :
    Rule env s (.run c now)
      ({ s with agg := { s.agg with lastCheckpointStep := step } }.goto c .checkpointSave)
  | checkpointSave {c now} (h : (s.conns c).handler = .checkpointSave) :
    Rule env s (.run c now)
      ({ s with checkpoints := s.store.checkpoint :: s.checkpoints }.goto c .recv)
  | markDead {c now w} (h : (s.conns c).handler = .markDead)
      (hw : (s.conns c).workerId = some w) :
    Rule env s (.run c now) ({ s with hb := s.hb.markDead w }.goto c .unregister)
  | unregister {c now w} (h : (s.conns c).handler = .unregister)
      (hw : (s.conns c).workerId = some w) :
    Rule env s (.run c now) ({ s with agg := s.agg.unregister w }.goto c .close)
  | close {c now} (h : (s.conns c).handler = .close) : Rule env s (.run c now) (s.goto c .done)
  | recvFail {c} (h : (s.conns c).handler = .recv) (he : (s.conns c).eof = true) :
    Rule env s (.fail c) (s.quit c)
  | replyFail {c resp rest} (h : (s.conns c).handler = .reply resp rest)
      (he : (s.conns c).eof = true) :
    Rule env s (.fail c) ((s.reset c).quit c)
  | ackFail {c r step d todo rest} (h : (s.conns c).handler = .acks r step (d :: todo) rest)
      (hb : s.Broken d) :
    Rule env s (.fail c) ((s.reset d).ackNext env c r step todo)
  | saveFail {c} (h : (s.conns c).handler = .checkpointSave) : Rule env s (.fail c) (s.quit c)

/-- The connection whose thread or peer acts. -/
def Action.conn : Action α → Option ConnId
  | .accept c | .arrive c _ | .hangup c | .run c _ | .write c _ | .fail c => some c
  | .scan _ => none

/-- A step moves no thread but the one that takes it. -/
lemma Rule.handler_of_ne {d : ConnId} (h : Rule env s a s') (hd : a.conn ≠ some d) :
    (s'.conns d).handler = (s.conns d).handler := by
  cases h
  case scan => rfl
  all_goals
    have hne := Ne.symm fun e => hd (congrArg some e)
    simp [hne, System.heartbeat]

lemma Rule.actor_workerId {d : ConnId} {w : WorkerId} (h : Rule env s a s')
    (hd : a.conn = some d) (hw : (s.conns d).workerId = some w) :
    (s'.conns d).workerId = some w := by
  cases h <;> cases hd <;> simp_all [System.heartbeat]

lemma Rule.workerId_of_ne {d : ConnId} (h : Rule env s a s') (hd : a.conn ≠ some d) :
    (s'.conns d).workerId = (s.conns d).workerId := by
  cases h
  case scan => rfl
  all_goals
    have hne := Ne.symm fun e => hd (congrArg some e)
    simp [hne, System.heartbeat]

/-- A thread sets `worker_id` once. -/
lemma Rule.workerId {d : ConnId} {w : WorkerId} (h : Rule env s a s')
    (hw : (s.conns d).workerId = some w) : (s'.conns d).workerId = some w := by
  by_cases hd : a.conn = some d
  · exact h.actor_workerId hd hw
  · rwa [h.workerId_of_ne hd]

/-- `worker_id` changes only where a first message is read. -/
lemma Rule.workerId_cases (hr : Rule env s a s') (d : ConnId) :
    (s'.conns d).workerId = (s.conns d).workerId ∨
      ∃ m rest w, (s.conns d).inbox = .message m :: rest ∧ m.workerId = some w ∧
        (s'.conns d).workerId = some w ∧ (s'.conns d).handler = .register m := by
  cases hr
  case identify c now m rest w h hi hw hm =>
    by_cases hd : d = c
    · subst hd
      exact Or.inr ⟨m, rest, w, hi, hm, by simp, by simp⟩
    · exact Or.inl (by simp [hd])
  case scan => exact Or.inl rfl
  all_goals
    left
    simp only [System.heartbeat, System.workerId_goto, System.workerId_send, System.workerId_reset,
      System.conns_setConn]
    try split_ifs with hd <;> simp [hd]

lemma Rule.actor_inbox_of {d : ConnId} {x : Received α} (hr : Rule env s a s')
    (ha : a.conn = some d) (h : x ∈ (s'.conns d).inbox) :
    x ∈ (s.conns d).inbox ∨ a = .arrive d x := by
  cases hr <;> cases ha
  case arrive y _ _ =>
    simp only [System.conns_setConn, if_true, List.mem_append, List.mem_singleton] at h
    exact h.imp_right fun hx => by rw [hx]
  case unreadable now rest hh hi =>
    exact Or.inl (by rw [hi]; exact List.mem_cons_of_mem _ (by simpa using h))
  case anonymous now m rest hm hh hi hw =>
    exact Or.inl (by rw [hi]; exact List.mem_cons_of_mem _ (by simpa using h))
  case identify now m rest w hm hh hi hw =>
    exact Or.inl (by rw [hi]; exact List.mem_cons_of_mem _ (by simpa using h))
  case next now m rest w hh hi hw =>
    exact Or.inl (by rw [hi]; exact List.mem_cons_of_mem _ (by simpa using h))
  all_goals exact Or.inl (by simpa [System.heartbeat] using h)

lemma Rule.inbox_of_ne {d : ConnId} (hr : Rule env s a s') (ha : a.conn ≠ some d) :
    (s'.conns d).inbox = (s.conns d).inbox := by
  cases hr
  case scan => rfl
  all_goals
    have hne := Ne.symm fun e => ha (congrArg some e)
    simp [hne, System.heartbeat]

/-- What is in an inbox was there before or has just arrived. -/
lemma Rule.inbox_of {d : ConnId} {x : Received α} (hr : Rule env s a s')
    (h : x ∈ (s'.conns d).inbox) :
    x ∈ (s.conns d).inbox ∨ a = .arrive d x := by
  by_cases ha : a.conn = some d
  · exact hr.actor_inbox_of ha h
  · exact Or.inl (hr.inbox_of_ne ha ▸ h)

/-- A thread is done with its round, whether or not `apply_gradients` has raised. -/
structure Rule.Stores (s : System α) (a : Action α) (s' : System α) (t : ConnId) (r : Round α) :
    Prop where
  action : ∃ now, a = .run t now
  handler : (s.conns t).handler = .apply r
  next : ∀ r', (s'.conns t).handler ≠ .apply r'
  store : s'.store = (s.store.applyGradients (r.deltas.map Delta.grads)).1

/-- Only a round that is applied changes the store. -/
lemma Rule.store_of (hr : Rule env s a s') :
    s'.store = s.store ∨ ∃ t r, Rule.Stores s a s' t r := by
  cases hr
  case applied c now r st h hok =>
    exact Or.inr ⟨c, r, ⟨now, rfl⟩, h, by simp, by simp [hok]⟩
  case applyRaised c now r st e h hok =>
    exact Or.inr ⟨c, r, ⟨now, rfl⟩, h, by simp, by simp [hok]⟩
  all_goals exact Or.inl rfl

namespace System

variable {c : ConnId}

lemma rule_of_receive {now : ℚ} (hh : (s.conns c).handler = .recv)
    (h : s.receive c = some s') : Rule env s (.run c now) s' := by
  simp only [receive] at h
  split at h
  · cases h
  · next x rest hi =>
    split at h
    · cases h
      exact .unreadable hh hi
    · next m =>
      split at h
      · next hw => cases h; exact .next hh hi hw
      · next hw hm => cases h; exact .identify hh hi hw hm
      · next hw hm => cases h; exact .anonymous hh hi hw hm

lemma rule_of_submit {now : ℚ} {m : Message α} {w : WorkerId} {g : Payload α}
    (hh : (s.conns c).handler = .dispatch m) (hw : (s.conns c).workerId = some w)
    (ht : m.type = .pushGradients) (hg : m.gradients = some g) :
    Rule env s (.run c now) (s.submit env c w g) := by
  simp only [submit, GradientAggregator.submit]
  have hgrads : (s.delta c g).grads = g := rfl
  rw [hgrads]
  cases hn : gradNorm env.sqrt g with
  | error e => exact .raised hh hw ht hg hn
  | ok norm =>
    dsimp only
    split_ifs with hs
    · exact .fired hh hw ht hg hn hs
    · exact .buffered hh hw ht hg hn hs

lemma rule_of_dispatch {now : ℚ} {m : Message α} {w : WorkerId}
    (hh : (s.conns c).handler = .dispatch m) (hw : (s.conns c).workerId = some w) :
    Rule env s (.run c now) (s.dispatch env c w m now) := by
  simp only [dispatch]
  split
  · next ht => exact .pull hh hw ht
  · next ht =>
    cases hg : m.gradients with
    | none => exact .keyError hh hw ht hg
    | some g => exact rule_of_submit hh hw ht hg
  · next ht => exact .beat hh hw ht
  · next ht ht' ht'' => exact .ignored hh hw ht ht' ht''

lemma rule_of_applyGradients {now : ℚ} {r : Round α} (hh : (s.conns c).handler = .apply r) :
    Rule env s (.run c now) (s.applyGradients c r) := by
  simp only [applyGradients]
  split
  · next st ha => exact .applied hh ha
  · next st e ha => exact .applyRaised hh ha

lemma rule_of_advance {now : ℚ} (h : s.advance env c now = some s') :
    Rule env s (.run c now) s' := by
  simp only [advance] at h
  split at h <;> first | cases h | skip
  · next hh => exact rule_of_receive hh h
  · next hh hw => exact .register hh hw
  · next hh hw => exact .registerSocket hh hw
  · next hh hw => exact rule_of_dispatch hh hw
  · next hh hw => exact .heartbeat hh hw
  · next hh => exact rule_of_applyGradients hh
  · next hh => exact .getStep hh
  · next hh => exact .emit hh
  · next hh => exact .checkpoint hh
  · next hh => exact .checkpointAssign hh
  · next hh => exact .checkpointSave hh
  · next hh hw => exact .markDead hh hw
  · next hh hw => exact .unregister hh hw
  · next hh => exact .close hh

lemma rule_of_write {n : ℕ} (h : s.write env c n = some s') : Rule env s (.write c n) s' := by
  simp only [write] at h
  split at h
  · next resp rest hh =>
    split_ifs at h with hd hn he
    · cases h; exact .replyPart hh hd hn.1 hn.2
    · cases h; subst he; exact .replyEnd hh hd
  · next r step d todo rest hh =>
    split_ifs at h with hd hn he
    · cases h; exact .ackPart hh hd hn.1 hn.2
    · cases h; subst he; exact .ackEnd hh hd
  · cases h

lemma rule_of_osError (h : s.osError env c = some s') : Rule env s (.fail c) s' := by
  simp only [osError] at h
  split at h
  · next hh => split_ifs at h with he; cases h; exact .recvFail hh he
  · next hh => split_ifs at h with he; cases h; exact .replyFail hh he
  · next hh => split_ifs at h with hb; cases h; exact .ackFail hh hb
  · next hh => cases h; exact .saveFail hh
  · cases h

/-- Every step of the server is by one of the rules. -/
lemma rule_of_step (h : s.step env a = some s') : Rule env s a s' := by
  cases a with
  | accept c =>
    simp only [step] at h
    split at h
    · next hh => cases h; exact .accept hh
    · cases h
  | arrive c x =>
    simp only [step] at h
    split at h
    · cases h
    · next hh =>
      split_ifs at h with he
      cases h
      exact .arrive hh (by simpa using he)
  | hangup c =>
    simp only [step] at h
    split at h
    · cases h
    · next hh => cases h; exact .hangup hh
  | scan now => cases h; exact .scan
  | run c now => exact rule_of_advance h
  | write c n => exact rule_of_write h
  | fail c => exact rule_of_osError h

end System

end DistributedRL
