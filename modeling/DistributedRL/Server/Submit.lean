import DistributedRL.Server.AllOrNothing
import DistributedRL.Worker.Updates

/-!
# The end of `submit`

What a thread does after `apply_gradients`: it reads the step, sends the ACKs, emits the metric and
goes through `_maybe_checkpoint`. Each of these is a step of its own, and other threads may apply
rounds in between.
-/

namespace DistributedRL

variable {α : Type*}

namespace Handler

/-- The round that the thread has applied and whose metric it has not emitted. -/
def finishing : Handler α → Option (Round α)
  | .getStep r | .acks r _ _ _ | .emit r _ => some r
  | _ => none

/-- The step that the thread has read, while it needs it. -/
def stepRead : Handler α → Option ℕ
  | .acks _ step _ _ | .emit _ step | .checkpoint step | .checkpointAssign step => some step
  | _ => none

end Handler

/-- The step that the metric of a round carries. -/
def MetricsEvent.updateStep : MetricsEvent α → Option ℕ
  | .weightUpdate step _ _ => some step
  | .heartbeat _ _ _ _ => none

namespace System

/-- The steps in the metrics of the rounds so far. -/
def reported (s : System α) : List ℕ := s.metrics.filterMap MetricsEvent.updateStep

variable {s : System α} {c d : ConnId} {r r' : Round α} {step k : ℕ} {todo : List ConnId}
  {env : ServerEnv α}

@[simp] lemma finishing_exit (s : System α) (c : ConnId) : (s.exit c).finishing = none := by
  rcases s.exit_cases c with h | h <;> rw [h] <;> rfl

@[simp] lemma stepRead_exit (s : System α) (c : ConnId) : (s.exit c).stepRead = none := by
  rcases s.exit_cases c with h | h <;> rw [h] <;> rfl

@[simp] lemma finishing_replying (s : System α) (c : ConnId) (resp : Response α) :
    (s.replying env c resp).finishing = none := by
  rcases s.replying_cases c env resp with ⟨_, -, h⟩ | h <;> rw [h]
  · rfl
  · exact s.finishing_exit c

@[simp] lemma stepRead_replying (s : System α) (c : ConnId) (resp : Response α) :
    (s.replying env c resp).stepRead = none := by
  rcases s.replying_cases c env resp with ⟨_, -, h⟩ | h <;> rw [h]
  · rfl
  · exact s.stepRead_exit c

lemma of_finishing_acking (h : (s.acking env c r step todo).finishing = some r') : r = r' := by
  rcases s.acking_cases c env r step todo with ⟨-, he⟩ | ⟨-, _, -, he⟩ | he <;> rw [he] at h
  · exact Option.some.inj h
  · exact Option.some.inj h
  · simp at h

lemma of_stepRead_acking (h : (s.acking env c r step todo).stepRead = some k) : step = k := by
  rcases s.acking_cases c env r step todo with ⟨-, he⟩ | ⟨-, _, -, he⟩ | he <;> rw [he] at h
  · exact Option.some.inj h
  · exact Option.some.inj h
  · simp at h

/-- If the ACK can be framed, the thread goes through the ACK loop with its round and its step. -/
lemma acking_of_frame {bytes : List UInt8} (hb : frame env.pickle (.ack step) = .ok bytes) :
    (s.acking env c r step todo).finishing = some r ∧
      (s.acking env c r step todo).stepRead = some step := by
  cases todo with
  | nil => exact ⟨rfl, rfl⟩
  | cons d todo =>
    rw [acking, hb]
    exact ⟨rfl, rfl⟩

end System

/-! ### Steps of the thread -/

variable [Scalar α] {env : ServerEnv α} {s s' : System α} {a : Action α} {t : ConnId}
  {r : Round α} {k : ℕ}

/-- The thread of `t` emits the metric of the round `r`, with the step `k`. -/
structure Rule.Emits (s : System α) (a : Action α) (s' : System α) (t : ConnId) (r : Round α)
    (k : ℕ) : Prop where
  action : ∃ now, a = .run t now
  handler : (s.conns t).handler = .emit r k
  next : (s'.conns t).handler = .checkpoint k
  reported : s'.reported = k :: s.reported

lemma Rule.reported_of (hr : Rule env s a s') : s'.reported = s.reported ∨
    ∃ t r k, Rule.Emits s a s' t r k := by
  cases hr
  case emit c now r step h => exact Or.inr ⟨c, r, step, ⟨now, rfl⟩, h, by simp, rfl⟩
  all_goals exact Or.inl rfl

/-- Rounds that have been applied stay so. -/
lemma Rule.applied_mono (hr : Rule env s a s') {x : Applied α} (hx : x ∈ s.history.applied) :
    x ∈ s'.history.applied := by
  cases hr
  case applied => exact List.mem_cons_of_mem _ hx
  all_goals exact hx

lemma Rule.actor_finishing_of (hr : Rule env s a s') (ha : a.conn = some t)
    (h : (s'.conns t).handler.finishing = some r) :
    (s.conns t).handler.finishing = some r ∨ Rule.Applies s a s' t r := by
  cases hr <;> cases ha
  case arrive => exact Or.inl (by simpa using h)
  case hangup => exact Or.inl (by simpa using h)
  case applied now r' st hap hh =>
    simp only [System.handler_goto, if_true, Handler.finishing, Option.some.injEq] at h
    subst h
    exact Or.inr ⟨⟨now, rfl⟩, hh, hap, by simp, rfl⟩
  case getStep now r' hh =>
    rw [System.handler_goto, if_pos rfl] at h
    exact Or.inl (by rw [hh, ← System.of_finishing_acking h]; rfl)
  case ackPart n r' step e todo rest hd hn hl hh =>
    rw [System.handler_goto, if_pos rfl] at h
    exact Or.inl (by rw [hh]; exact h)
  case ackEnd r' step e todo rest hd hh =>
    rw [System.handler_goto, if_pos rfl] at h
    exact Or.inl (by rw [hh, ← System.of_finishing_acking h]; rfl)
  case ackFail r' step e todo rest hb hh =>
    rw [System.handler_goto, if_pos rfl] at h
    exact Or.inl (by rw [hh, ← System.of_finishing_acking h]; rfl)
  case checkpoint now step hh =>
    rw [System.handler_goto, if_pos rfl] at h
    split_ifs at h <;> cases h
  all_goals
    simp only [System.handler_goto, System.conns_setConn, System.heartbeat, if_true,
      System.finishing_exit, System.finishing_replying, reduceCtorEq] at h
    try cases h

/-- A thread finishes a round if it did before, or has just applied it. -/
lemma Rule.finishing_of (hr : Rule env s a s') (h : (s'.conns t).handler.finishing = some r) :
    (s.conns t).handler.finishing = some r ∨ Rule.Applies s a s' t r := by
  by_cases ha : a.conn = some t
  · exact hr.actor_finishing_of ha h
  · exact Or.inl (hr.handler_of_ne ha ▸ h)

lemma Rule.actor_stepRead_of (hr : Rule env s a s') (ha : a.conn = some t)
    (h : (s'.conns t).handler.stepRead = some k) :
    (s.conns t).handler.stepRead = some k ∨
      ∃ now r, a = .run t now ∧ (s.conns t).handler = .getStep r ∧ k = s.store.globalStep := by
  cases hr <;> cases ha
  case arrive => exact Or.inl (by simpa using h)
  case hangup => exact Or.inl (by simpa using h)
  case getStep now r' hh =>
    rw [System.handler_goto, if_pos rfl] at h
    exact Or.inr ⟨now, r', rfl, hh, (System.of_stepRead_acking h).symm⟩
  case ackPart n r' step e todo rest hd hn hl hh =>
    rw [System.handler_goto, if_pos rfl] at h
    exact Or.inl (by rw [hh]; exact h)
  case ackEnd r' step e todo rest hd hh =>
    rw [System.handler_goto, if_pos rfl] at h
    exact Or.inl (by rw [hh, ← System.of_stepRead_acking h]; rfl)
  case ackFail r' step e todo rest hb hh =>
    rw [System.handler_goto, if_pos rfl] at h
    exact Or.inl (by rw [hh, ← System.of_stepRead_acking h]; rfl)
  case emit now r' step hh =>
    rw [System.handler_goto, if_pos rfl] at h
    exact Or.inl (by rw [hh]; exact h)
  case checkpoint now step hh =>
    rw [System.handler_goto, if_pos rfl] at h
    split_ifs at h
    · exact Or.inl (by rw [hh]; exact h)
    · cases h
  all_goals
    simp only [System.handler_goto, System.conns_setConn, System.heartbeat, if_true,
      System.stepRead_exit, System.stepRead_replying, reduceCtorEq] at h
    try cases h

/-- A thread reads its step once, right after it has applied its round. -/
lemma Rule.stepRead_of (hr : Rule env s a s') (h : (s'.conns t).handler.stepRead = some k) :
    (s.conns t).handler.stepRead = some k ∨
      ∃ now r, a = .run t now ∧ (s.conns t).handler = .getStep r ∧ k = s.store.globalStep := by
  by_cases ha : a.conn = some t
  · exact hr.actor_stepRead_of ha h
  · exact Or.inl (hr.handler_of_ne ha ▸ h)

/-- Every ACK that is being sent can be framed, and so can the one of the next round. -/
structure System.Framed (env : ServerEnv α) (s : System α) (a : Action α) : Prop where
  next : s.AckFits env a
  sending : ∀ t k, (s.conns t).handler.stepRead = some k →
    ∃ bytes, frame env.pickle (.ack k) = .ok bytes

lemma Rule.actor_getStep_next (hr : Rule env s a s') (ha : a.conn = some t)
    (hf : s.Framed env a) (h : (s.conns t).handler = .getStep r) :
    (s'.conns t).handler = .getStep r ∨ (s'.conns t).handler.finishing = some r ∧
      (s'.conns t).handler.stepRead = some s.store.globalStep := by
  have hfit := hf.next
  cases hr <;> cases ha
  case getStep now r' hh =>
    obtain rfl : r' = r := Handler.getStep.inj (hh.symm.trans h)
    simp only [System.AckFits, hh] at hfit
    cases hb : frame env.pickle (.ack s.store.globalStep) with
    | error e =>
      rw [hb] at hfit
      cases hfit
    | ok bytes =>
      rw [System.handler_goto, if_pos rfl]
      exact Or.inr (System.acking_of_frame hb)
  all_goals simp_all

/-- A thread that has applied its round reads the step of the store. -/
lemma Rule.getStep_next (hr : Rule env s a s') (hf : s.Framed env a)
    (h : (s.conns t).handler = .getStep r) : (s'.conns t).handler = .getStep r ∨
      (s'.conns t).handler.finishing = some r ∧
        (s'.conns t).handler.stepRead = some s.store.globalStep := by
  by_cases ha : a.conn = some t
  · exact hr.actor_getStep_next ha hf h
  · exact Or.inl (hr.handler_of_ne ha ▸ h)

lemma Rule.actor_acks_next (hr : Rule env s a s') (ha : a.conn = some t) {bytes : List UInt8}
    (hb : frame env.pickle (.ack k) = .ok bytes) {todo : List ConnId} {rest : List UInt8}
    (h : (s.conns t).handler = .acks r k todo rest) :
    (s'.conns t).handler.finishing = some r ∧ (s'.conns t).handler.stepRead = some k := by
  cases hr <;> cases ha
  case ackPart n r' step e todo' rest' hd hn hl hh =>
    rw [hh] at h
    cases h
    rw [System.handler_goto, if_pos rfl]
    exact ⟨rfl, rfl⟩
  case ackEnd r' step e todo' rest' hd hh =>
    rw [hh] at h
    cases h
    rw [System.handler_goto, if_pos rfl]
    exact System.acking_of_frame hb
  case ackFail r' step e todo' rest' hb' hh =>
    rw [hh] at h
    cases h
    rw [System.handler_goto, if_pos rfl]
    exact System.acking_of_frame hb
  all_goals simp_all [Handler.finishing, Handler.stepRead]

lemma Rule.actor_emit_next (hr : Rule env s a s') (ha : a.conn = some t)
    (h : (s.conns t).handler = .emit r k) :
    (s'.conns t).handler = .emit r k ∨ Rule.Emits s a s' t r k := by
  cases hr <;> cases ha
  case emit now r' step hh =>
    rw [hh] at h
    cases h
    exact Or.inr ⟨⟨now, rfl⟩, hh, by simp, rfl⟩
  all_goals simp_all

/-- A thread in the ACK loop stays with its round and its step until it emits the metric. -/
lemma Rule.reporting_next (hr : Rule env s a s') (hf : s.Framed env a)
    (h : (s.conns t).handler.finishing = some r) (hk : (s.conns t).handler.stepRead = some k) :
    (s'.conns t).handler.finishing = some r ∧ (s'.conns t).handler.stepRead = some k ∨
      Rule.Emits s a s' t r k := by
  by_cases ha : a.conn = some t
  · obtain ⟨bytes, hb⟩ := hf.sending t k hk
    cases hh : (s.conns t).handler <;> rw [hh] at h hk <;> cases h <;> cases hk
    · exact Or.inl (hr.actor_acks_next ha hb hh)
    · rcases hr.actor_emit_next ha hh with he | he
      · exact Or.inl (by rw [he]; exact ⟨rfl, rfl⟩)
      · exact Or.inr he
  · rw [hr.handler_of_ne ha]
    exact Or.inl ⟨h, hk⟩

/-- A thread finishes its round until it emits the metric. -/
lemma Rule.finishing_next (hr : Rule env s a s') (hf : s.Framed env a)
    (h : (s.conns t).handler.finishing = some r) :
    (s'.conns t).handler.finishing = some r ∨ ∃ k, Rule.Emits s a s' t r k := by
  cases hk : (s.conns t).handler.stepRead with
  | some k =>
    rcases hr.reporting_next hf h hk with he | he
    · exact Or.inl he.1
    · exact Or.inr ⟨k, he⟩
  | none =>
    cases hh : (s.conns t).handler <;> rw [hh] at h hk <;> cases h <;> cases hk
    rcases hr.getStep_next hf hh with he | he
    · exact Or.inl (by rw [he]; rfl)
    · exact Or.inl he.1

lemma Rule.actor_checkpoint_next (hr : Rule env s a s') (ha : a.conn = some t)
    (h : (s.conns t).handler = .checkpoint k) :
    (s'.conns t).handler.stepRead = some k ∨ ¬ s.agg.CheckpointDue env.config k := by
  cases hr <;> cases ha
  case checkpoint now step hh =>
    rw [hh] at h
    cases h
    rw [System.handler_goto, if_pos rfl]
    split_ifs with hdue
    · exact Or.inl rfl
    · exact Or.inr hdue
  all_goals simp_all [Handler.stepRead]

lemma Rule.actor_checkpointAssign_next (hr : Rule env s a s') (ha : a.conn = some t)
    (h : (s.conns t).handler = .checkpointAssign k) :
    (s'.conns t).handler.stepRead = some k ∨ (s'.conns t).handler = .checkpointSave := by
  cases hr <;> cases ha <;> simp_all [Handler.stepRead]

/-- A thread keeps the step that it has read until it finds that no checkpoint is due, or has noted
the step and is about to save. -/
lemma Rule.stepRead_next (hr : Rule env s a s') (hf : s.Framed env a)
    (h : (s.conns t).handler.stepRead = some k) : (s'.conns t).handler.stepRead = some k ∨
      ¬ s.agg.CheckpointDue env.config k ∨ (s'.conns t).handler = .checkpointSave := by
  by_cases ha : a.conn = some t
  · cases hh : (s.conns t).handler <;> rw [hh] at h <;> cases h
    · obtain ⟨bytes, hb⟩ := hf.sending t k (by rw [hh]; rfl)
      exact Or.inl (hr.actor_acks_next ha hb hh).2
    · rcases hr.actor_emit_next ha hh with he | he
      · exact Or.inl (by rw [he]; rfl)
      · exact Or.inl (by rw [he.next]; rfl)
    · exact (hr.actor_checkpoint_next ha hh).imp_right Or.inl
    · exact (hr.actor_checkpointAssign_next ha hh).imp_right Or.inr
  · exact Or.inl (hr.handler_of_ne ha ▸ h)

/-- `last_checkpoint_step` changes where a thread notes its step and goes on to save. -/
lemma Rule.last_of (hr : Rule env s a s') :
    s'.agg.lastCheckpointStep = s.agg.lastCheckpointStep ∨
      ∃ t k, (s.conns t).handler.stepRead = some k ∧ (s'.conns t).handler = .checkpointSave ∧
        s'.agg.lastCheckpointStep = k := by
  cases hr
  case checkpointAssign c now step h =>
    exact Or.inr ⟨c, step, by rw [h]; rfl, by simp, rfl⟩
  all_goals exact Or.inl rfl

/-- The condition on one step that no save raises. -/
def System.SaveSucceeds (s : System α) : Action α → Prop
  | .fail c => ¬ ((s.conns c).handler matches .checkpointSave)
  | _ => True

instance (s : System α) : (a : Action α) → Decidable (s.SaveSucceeds a)
  | .fail c => inferInstanceAs (Decidable (¬ ((s.conns c).handler matches .checkpointSave)))
  | .accept _ | .arrive _ _ | .hangup _ | .scan _ | .run _ _ | .write _ _ => .isTrue trivial

lemma Rule.actor_save_next (hr : Rule env s a s') (ha : a.conn = some t) (hs : s.SaveSucceeds a)
    (h : (s.conns t).handler = .checkpointSave) : (s'.conns t).handler = .checkpointSave ∨
      s'.checkpoints = s.store.checkpoint :: s.checkpoints := by
  cases hr <;> cases ha
  case checkpointSave now hh => exact Or.inr rfl
  case saveFail hh => simp [System.SaveSucceeds, h] at hs
  all_goals simp_all

/-- A thread that is about to save does. -/
lemma Rule.save_next (hr : Rule env s a s') (hs : s.SaveSucceeds a)
    (h : (s.conns t).handler = .checkpointSave) : (s'.conns t).handler = .checkpointSave ∨
      s'.checkpoints = s.store.checkpoint :: s.checkpoints := by
  by_cases ha : a.conn = some t
  · exact hr.actor_save_next ha hs h
  · exact Or.inl (hr.handler_of_ne ha ▸ h)

/-- As long as ACKs can be framed, the steps that threads have read can. -/
lemma Rule.framed_of (hr : Rule env s a s') (hf : s.Framed env a)
    (h : (s'.conns t).handler.stepRead = some k) :
    ∃ bytes, frame env.pickle (.ack k) = .ok bytes := by
  rcases hr.stepRead_of h with hold | ⟨now, r, rfl, hh, rfl⟩
  · exact hf.sending t k hold
  · have hfit := hf.next
    simp only [System.AckFits, hh] at hfit
    cases hb : frame env.pickle (.ack s.store.globalStep) with
    | error e =>
      rw [hb] at hfit
      cases hfit
    | ok bytes => exact ⟨bytes, rfl⟩

end DistributedRL
