import DistributedRL.Server.Scenario
import DistributedRL.Worker.Steady

/-!
# Anonymous connections

Connections that never deliver a message with a worker id: health checks, port scans, peers that
send garbage. The rest of the server cannot tell whether they have been there.
-/

namespace DistributedRL

variable {α : Type*}

namespace System

/-- The server as if the connections in `A` had never been accepted. -/
def without (A : Set ConnId) [DecidablePred (· ∈ A)] (s : System α) : System α :=
  { s with conns := fun c => if c ∈ A then .init α else s.conns c }

section

variable {A : Set ConnId} [DecidablePred (· ∈ A)] {s : System α} {c d : ConnId}

lemma conns_without (hc : c ∉ A) : (s.without A).conns c = s.conns c := if_neg hc

lemma without_init (st : WeightStore α) (timeout : ℚ) :
    (init st timeout).without A = init st timeout := by
  simp [without, init]

/-- A record of a connection outside `A`. -/
lemma without_setConn (hc : c ∉ A) (k : Conn α) :
    (s.setConn c k).without A = (s.without A).setConn c k := by
  have hconns : ((s.setConn c k).without A).conns = ((s.without A).setConn c k).conns := by
    funext d
    simp only [without, conns_setConn]
    by_cases hdc : d = c
    · rw [hdc, if_neg hc, if_pos rfl, if_pos rfl]
    · rw [if_neg hdc, if_neg hdc]
  exact congrArg (fun conns => { s with conns := conns }) hconns

lemma without_goto (hc : c ∉ A) (h : Handler α) :
    (s.goto c h).without A = (s.without A).goto c h := by
  rw [goto, without_setConn hc, goto, conns_without hc]

lemma without_send (hc : c ∉ A) (bytes : List UInt8) :
    (s.send c bytes).without A = (s.without A).send c bytes := by
  rw [send, without_setConn hc, send, conns_without hc]

lemma without_reset (hc : c ∉ A) : (s.reset c).without A = (s.without A).reset c := by
  rw [reset, without_setConn hc, reset, conns_without hc]

lemma exit_without (hc : c ∉ A) : (s.without A).exit c = s.exit c := by
  rw [exit, exit, conns_without hc]

lemma replying_without (hc : c ∉ A) (env : ServerEnv α) (resp : Response α) :
    (s.without A).replying env c resp = s.replying env c resp := by
  rw [replying, replying, exit_without hc]

lemma acking_without (hc : c ∉ A) (env : ServerEnv α) (r : Round α) (step : ℕ)
    (todo : List ConnId) :
    (s.without A).acking env c r step todo = s.acking env c r step todo := by
  cases todo with
  | nil => rfl
  | cons d todo => rw [acking, acking, exit_without hc]

lemma receive_without (hc : c ∉ A) :
    (s.without A).receive c = (s.receive c).map (without A) := by
  simp only [receive, conns_without hc]
  cases (s.conns c).inbox with
  | nil => rfl
  | cons x rest =>
    cases x with
    | unreadable =>
      simp only [Option.map_some, quit, without_goto hc, without_setConn hc]
      rw [← without_setConn hc, exit_without hc]
    | message m =>
      simp only
      split <;> simp only [Option.map_some, without_setConn hc]

lemma startReply_without (hc : c ∉ A) (env : ServerEnv α) (resp : Response α) :
    (s.without A).startReply env c resp = (s.startReply env c resp).without A := by
  rw [startReply, startReply, without_goto hc, replying_without hc]

lemma quit_without (hc : c ∉ A) : (s.without A).quit c = (s.quit c).without A := by
  rw [quit, quit, without_goto hc, exit_without hc]

lemma ackNext_without (hc : c ∉ A) (env : ServerEnv α) (r : Round α) (step : ℕ)
    (todo : List ConnId) :
    (s.without A).ackNext env c r step todo = (s.ackNext env c r step todo).without A := by
  rw [ackNext, ackNext, without_goto hc, acking_without hc]

variable [Scalar α] {env : ServerEnv α}

lemma submit_without (hc : c ∉ A) (w : WorkerId) (grads : Payload α) :
    (s.without A).submit env c w grads = (s.submit env c w grads).without A := by
  have hdelta : (s.without A).delta c grads = s.delta c grads := by
    rw [delta, delta, conns_without hc]
  have hsubmit : (s.without A).agg.submit env.config env.sqrt (s.without A).hb w
      (s.delta c grads) = s.agg.submit env.config env.sqrt s.hb w (s.delta c grads) := rfl
  simp only [submit, hdelta, hsubmit]
  split
  · exact quit_without (s := { s with agg := _, history := _ }) hc
  · exact (without_goto (s := { s with agg := _, history := _ }) hc _).symm
  · exact (without_goto (s := { s with agg := _, history := _ }) hc _).symm

lemma dispatch_without (hc : c ∉ A) (w : WorkerId) (m : Message α) (now : ℚ) :
    (s.without A).dispatch env c w m now = (s.dispatch env c w m now).without A := by
  simp only [dispatch]
  split
  · exact startReply_without hc env _
  · cases m.gradients with
    | none => exact quit_without hc
    | some g => exact submit_without hc w g
  · exact (without_goto (s := { s with hb := s.hb.beat w now }) hc _).symm
  · exact (without_goto hc _).symm

lemma heartbeat_without (hc : c ∉ A) (w : WorkerId) (m : Message α) :
    (s.without A).heartbeat env c w m = (s.heartbeat env c w m).without A :=
  startReply_without (s := { s with
    metrics := .heartbeat w s.store.globalStep (m.episodeReward.getD 0) m.extra :: s.metrics }) hc
    env _

lemma applyGradients_without (hc : c ∉ A) (r : Round α) :
    (s.without A).applyGradients c r = (s.applyGradients c r).without A := by
  have hstore : (s.without A).store = s.store := rfl
  simp only [applyGradients, hstore]
  split
  · exact (without_goto (s := { s with store := _, history := _ }) hc _).symm
  · exact quit_without (s := { s with store := _ }) hc

/-- A thread outside `A` takes the same steps. -/
lemma advance_without (hc : c ∉ A) (now : ℚ) :
    (s.without A).advance env c now = (s.advance env c now).map (without A) := by
  have hstore : (s.without A).store = s.store := rfl
  have hagg : (s.without A).agg = s.agg := rfl
  simp only [advance, conns_without hc]
  split
  · exact receive_without hc
  all_goals simp only [Option.map_some, Option.map_none, Option.some.injEq]
  · exact (without_goto (s := { s with hb := _ }) hc _).symm
  · exact (without_goto (s := { s with agg := _, history := _ }) hc _).symm
  · exact dispatch_without hc _ _ now
  · exact heartbeat_without hc _ _
  · exact applyGradients_without hc _
  · exact ackNext_without hc env _ _ _
  · next r step _ =>
    exact (without_goto (s := { s with
      metrics := .weightUpdate step r.norms s.hb.snapshot :: s.metrics }) hc _).symm
  · exact (without_goto hc _).symm
  · exact (without_goto (s := { s with agg := _ }) hc _).symm
  · exact (without_goto (s := { s with
      checkpoints := s.store.checkpoint :: s.checkpoints }) hc _).symm
  · exact (without_goto (s := { s with hb := _ }) hc _).symm
  · exact (without_goto (s := { s with agg := _ }) hc _).symm
  · exact (without_goto hc _).symm

omit [Scalar α] in
lemma writable_without (hd : d ∉ A) : (s.without A).Writable d ↔ s.Writable d := by
  rw [Writable, Writable, conns_without hd]

omit [Scalar α] in
lemma broken_without (hd : d ∉ A) : (s.without A).Broken d ↔ s.Broken d := by
  rw [Broken, Broken, conns_without hd]

omit [Scalar α] in
lemma write_without (hc : c ∉ A) (howed : ∀ d ∈ (s.conns c).handler.owed, d ∉ A) (n : ℕ) :
    (s.without A).write env c n = (s.write env c n).map (without A) := by
  simp only [write, conns_without hc]
  split
  · simp only [writable_without hc]
    split_ifs
    · simp only [Option.map_some, without_goto hc, without_send hc]
    · simp only [Option.map_some, without_goto hc, without_send hc]
    · rfl
    · rfl
  · next r step d todo rest hh =>
    have hd : d ∉ A := howed d (by rw [hh]; exact List.mem_cons_self)
    simp only [writable_without hd]
    split_ifs
    · simp only [Option.map_some, without_goto hc, without_send hd]
    · rw [Option.map_some, Option.some.injEq, ← without_send hd]
      exact ackNext_without (s := { s.send d rest with history := s.history.ack d r step }) hc env _
        _ _
    · rfl
    · rfl
  · rfl

omit [Scalar α] in
lemma osError_without (hc : c ∉ A) (howed : ∀ d ∈ (s.conns c).handler.owed, d ∉ A) :
    (s.without A).osError env c = (s.osError env c).map (without A) := by
  simp only [osError, conns_without hc]
  split
  · split_ifs
    · rw [Option.map_some, quit_without hc]
    · rfl
  · split_ifs
    · rw [Option.map_some, ← without_reset hc, quit_without hc]
    · rfl
  · next r step d todo rest hh =>
    have hd : d ∉ A := howed d (by rw [hh]; exact List.mem_cons_self)
    simp only [broken_without hd]
    split_ifs
    · rw [Option.map_some, ← without_reset hd, ackNext_without hc]
    · rfl
  · rw [Option.map_some, quit_without hc]
  · rfl

/-- What the other connections and the monitor do, they do in the same way. -/
lemma step_without {a : Action α} (ha : ∀ c, a.conn = some c → c ∉ A)
    (howed : ∀ t, ∀ d ∈ (s.conns t).handler.owed, d ∉ A) :
    (s.without A).step env a = (s.step env a).map (without A) := by
  cases a with
  | accept c =>
    have hc := ha c rfl
    simp only [step, conns_without hc]
    split
    · rw [Option.map_some, without_goto hc]
    · rfl
  | arrive c x =>
    have hc := ha c rfl
    simp only [step, conns_without hc]
    split
    · rfl
    · split_ifs
      · rfl
      · rw [Option.map_some, without_setConn hc]
  | hangup c =>
    have hc := ha c rfl
    simp only [step, conns_without hc]
    split
    · rfl
    · rw [Option.map_some, without_setConn hc]
  | scan now => rfl
  | run c now => exact advance_without (ha c rfl) now
  | write c n => exact write_without (ha c rfl) (howed c) n
  | fail c => exact osError_without (ha c rfl) (howed c)

omit [Scalar α] in
/-- A record of a connection in `A`. -/
lemma without_setConn_of_mem (hc : c ∈ A) (k : Conn α) :
    (s.setConn c k).without A = s.without A := by
  have hconns : ((s.setConn c k).without A).conns = (s.without A).conns := by
    funext d
    simp only [without, conns_setConn]
    by_cases hdc : d = c
    · rw [hdc, if_pos hc, if_pos hc]
    · rw [if_neg hdc]
  exact congrArg (fun conns => { s with conns := conns }) hconns

omit [Scalar α] in
lemma without_goto_of_mem (hc : c ∈ A) (h : Handler α) :
    (s.goto c h).without A = s.without A :=
  without_setConn_of_mem hc _

end

end System

/-! ### What anonymous connections do -/

/-- No message with a worker id arrives on a connection in `A`. -/
def Action.AnonymousOn (A : Set ConnId) : Action α → Prop
  | .arrive c (.message m) => c ∈ A → m.workerId = none
  | _ => True

instance (A : Set ConnId) [DecidablePred (· ∈ A)] :
    ∀ a : Action α, Decidable (a.AnonymousOn A)
  | .arrive c (.message m) => inferInstanceAs (Decidable (c ∈ A → m.workerId = none))
  | .arrive _ .unreadable | .accept _ | .hangup _ | .scan _ | .run _ _ | .write _ _ | .fail _ =>
    .isTrue trivial

/-- The connections in `A` are waiting for a first message or have ended, and nobody else has got
hold of them. -/
structure System.Unseen (A : Set ConnId) (s : System α) : Prop where
  workerId : ∀ c ∈ A, (s.conns c).workerId = none
  nameless : ∀ c ∈ A, (s.conns c).handler.Nameless
  inbox : ∀ c ∈ A, ∀ m, .message m ∈ (s.conns c).inbox → m.workerId = none
  sockets : ∀ d ∈ s.agg.sockets.values, d ∉ A
  owed : ∀ t, ∀ d ∈ (s.conns t).handler.owed, d ∉ A

lemma System.unseen_init (A : Set ConnId) (st : WeightStore α) (timeout : ℚ) :
    (init st timeout).Unseen A where
  workerId _ _ := rfl
  nameless _ _ := rfl
  inbox _ _ _ h := by cases h
  sockets _ h := by cases h
  owed _ _ h := by cases h

section

variable [Scalar α] {env : ServerEnv α} {A : Set ConnId} {s s' : System α} {a : Action α}
  {c d t : ConnId}

/-- Only a connection with a worker id is registered. -/
lemma Rule.sockets_of (hr : Rule env s a s') (h : d ∈ s'.agg.sockets.values) :
    d ∈ s.agg.sockets.values ∨ ∃ w, (s.conns d).workerId = some w := by
  cases hr
  case registerSocket c now m w hh hw =>
    obtain ⟨v, hv⟩ := Dict.mem_values_iff.mp h
    by_cases hvw : v = w
    · subst hvw
      obtain rfl : c = d := by simpa using hv
      exact Or.inr ⟨v, hw⟩
    · exact Or.inl (Dict.mem_values_iff.mpr ⟨v, by simpa [hvw] using hv⟩)
  case unregister c now w hh hw =>
    obtain ⟨v, hv⟩ := Dict.mem_values_iff.mp h
    refine Or.inl (Dict.mem_values_iff.mpr ⟨v, ?_⟩)
    by_cases hvw : v = w
    · subst hvw
      simp at hv
    · simpa [hvw] using hv
  all_goals exact Or.inl h

lemma Rule.actor_owed_sub (hr : Rule env s a s') (ha : a.conn = some t)
    (h : d ∈ (s'.conns t).handler.owed) :
    d ∈ (s.conns t).handler.owed ∨ d ∈ s.agg.sockets.values := by
  cases hr <;> cases ha
  case arrive => exact Or.inl (by simpa using h)
  case hangup => exact Or.inl (by simpa using h)
  case fired now m w g norm ht hg hn hh hw hsub => exact Or.inr (by simpa [Handler.owed] using h)
  case applied now r st hst hh => exact Or.inl (by rw [hh]; simpa [Handler.owed] using h)
  case getStep now r hh =>
    simp only [System.handler_goto, if_true] at h
    rcases s.owed_acking t env r s.store.globalStep r.sockets.values with he | he <;> rw [he] at h
    · exact Or.inl (by rw [hh]; exact h)
    · cases h
  case ackPart n r step e todo rest he hn hl hh =>
    exact Or.inl (by rw [hh]; simpa [Handler.owed] using h)
  case ackEnd r step e todo rest he hh =>
    simp only [System.handler_goto, if_true] at h
    rcases System.owed_acking { s.send e rest with history := s.history.ack e r step } t env r step
      todo with ho | ho <;> rw [ho] at h
    · exact Or.inl (by rw [hh]; exact List.mem_cons_of_mem _ h)
    · cases h
  case ackFail r step e todo rest he hh =>
    simp only [System.handler_goto, if_true] at h
    rcases (s.reset e).owed_acking t env r step todo with ho | ho <;> rw [ho] at h
    · exact Or.inl (by rw [hh]; exact List.mem_cons_of_mem _ h)
    · cases h
  case checkpoint now step hh =>
    simp only [System.handler_goto, if_true] at h
    split_ifs at h <;> cases h
  -- the other ones owe nothing
  all_goals
    simp only [System.handler_goto, System.conns_setConn, System.heartbeat, if_true,
      System.owed_exit, System.owed_replying] at h
    cases h

/-- An ACK is owed to whoever was owed it before, or is registered. -/
lemma Rule.owed_sub (hr : Rule env s a s') (h : d ∈ (s'.conns t).handler.owed) :
    d ∈ (s.conns t).handler.owed ∨ d ∈ s.agg.sockets.values := by
  by_cases ha : a.conn = some t
  · exact hr.actor_owed_sub ha h
  · exact Or.inl (hr.handler_of_ne ha ▸ h)

namespace System

/-- A connection that nothing with a worker id has reached does not get one. -/
lemma Unseen.workerId_step (hs : s.Unseen A) (hr : Rule env s a s') (hc : c ∈ A) :
    (s'.conns c).workerId = none := by
  rcases hr.workerId_cases c with he | ⟨m, rest, w, hi, hm, -, -⟩
  · rw [he]
    exact hs.workerId c hc
  · have hnone := hs.inbox c hc m (by rw [hi]; exact List.mem_cons_self)
    rw [hm] at hnone
    cases hnone

lemma Unseen.step (hs : s.Unseen A) (ha : a.AnonymousOn A) (hr : Rule env s a s') :
    s'.Unseen A where
  workerId c hc := hs.workerId_step hr hc
  nameless c hc := hr.nameless (fun _ => hs.nameless c hc) (hs.workerId_step hr hc)
  inbox c hc m hm := by
    rcases hr.inbox_of hm with hold | rfl
    · exact hs.inbox c hc m hold
    · exact ha hc
  sockets d hd := by
    rcases hr.sockets_of hd with hold | ⟨w, hw⟩
    · exact hs.sockets d hold
    · intro hA
      rw [hs.workerId d hA] at hw
      cases hw
  owed t d hd := by
    rcases hr.owed_sub hd with hold | hold
    · exact hs.owed t d hold
    · exact hs.sockets d hold

/-- Nothing shows of what a connection in `A` does. -/
lemma Unseen.hidden [DecidablePred (· ∈ A)] (hs : s.Unseen A) (hr : Rule env s a s')
    (hc : a.conn = some c) (hA : c ∈ A) : s'.without A = s.without A := by
  have hw := hs.workerId c hA
  have hn := hs.nameless c hA
  cases hr <;> cases hc
  case accept => exact without_goto_of_mem hA _
  case arrive => exact without_setConn_of_mem hA _
  case hangup => exact without_setConn_of_mem hA _
  case unreadable => rw [quit, without_goto_of_mem hA, without_setConn_of_mem hA]
  case anonymous => exact without_setConn_of_mem hA _
  case identify => exact without_setConn_of_mem hA _
  case recvFail => exact without_goto_of_mem hA _
  case close => exact without_goto_of_mem hA _
  all_goals simp_all [Handler.Nameless]

end System

end

/-! ### Two runs -/

/-- The action is not one of a connection in `A`. -/
def Action.outside (A : Set ConnId) [DecidablePred (· ∈ A)] (a : Action α) : Bool :=
  a.conn.all fun c => decide (c ∉ A)

/-- The tables, the record of the run, and the connections outside `A` with all that has been
written to them are the same in `s` and in `t`, where nothing has ever connected from `A`. The
connections in `A` are not those of identified workers. -/
structure System.SameOutside (A : Set ConnId) (s t : System α) : Prop where
  store : t.store = s.store
  agg : t.agg = s.agg
  hb : t.hb = s.hb
  metrics : t.metrics = s.metrics
  checkpoints : t.checkpoints = s.checkpoints
  history : t.history = s.history
  conns : ∀ c ∉ A, t.conns c = s.conns c
  never : ∀ c ∈ A, t.conns c = .init α
  anonymous : ∀ c ∈ A, (s.conns c).workerId = none

lemma System.Unseen.sameOutside {A : Set ConnId} [DecidablePred (· ∈ A)] {s : System α}
    (h : s.Unseen A) : s.SameOutside A (s.without A) where
  store := rfl
  agg := rfl
  hb := rfl
  metrics := rfl
  checkpoints := rfl
  history := rfl
  conns _ hc := conns_without hc
  never _ hc := if_pos hc
  anonymous := h.workerId

variable [Scalar α] {env : ServerEnv α} {st : WeightStore α} {timeout : ℚ} {s : System α}
  {as : List (Action α)}

/-- Connections that never deliver a message with a worker id can be deleted from a run, wherever in
it they were opened and closed. At every point the rest is as it was. -/
theorem anonymous_unnoticed {A : Set ConnId} [DecidablePred (· ∈ A)]
    (hanon : ∀ a ∈ as, a.AnonymousOn A)
    (h : runAll (System.step env) (.init st timeout) as = some s) :
    ∀ bs, bs <+: as → ∃ t t', runAll (System.step env) (.init st timeout) bs = some t ∧
      runAll (System.step env) (.init st timeout) (bs.filter (Action.outside A)) = some t' ∧
      t.SameOutside A t' := by
  intro bs hb
  obtain ⟨t, ht⟩ := exists_runAll_of_isPrefix h hb
  have hok : ∀ a ∈ bs, a.AnonymousOn A := fun a ha => hanon a (hb.subset ha)
  have hinit := System.unseen_init A st timeout
  have hkeep : ∀ {s a s'}, System.Unseen A s → Action.AnonymousOn A a →
      s.step env a = some s' → System.Unseen A s' :=
    fun hs ha hstep => hs.step ha (System.rule_of_step hstep)
  have hunseen : t.Unseen A := runAll_invariant hkeep hinit hok ht
  have hhidden : ∀ {s a s'}, System.Unseen A s → Action.AnonymousOn A a →
      Action.outside A a = false → s.step env a = some s' → s'.without A = s.without A := by
    intro s a s' hs _ hout hstep
    cases hc : a.conn with
    | none => simp [Action.outside, hc] at hout
    | some c =>
      have hA : c ∈ A := by simpa [Action.outside, hc] using hout
      exact hs.hidden (System.rule_of_step hstep) hc hA
  have hvisible : ∀ {s a s'}, System.Unseen A s → Action.AnonymousOn A a →
      Action.outside A a = true → s.step env a = some s' →
      (s.without A).step env a = some (s'.without A) := by
    intro s a s' hs _ hout hstep
    have hc : ∀ c, a.conn = some c → c ∉ A := fun c hc => by simpa [Action.outside, hc] using hout
    rw [System.step_without hc hs.owed, hstep]
    rfl
  have hrun := runAll_filter hkeep hhidden hvisible hinit hok ht
  rw [System.without_init] at hrun
  exact ⟨t, _, ht, hrun, hunseen.sameOutside⟩

namespace Scenario

/-- Worker `1` connects, pushes and is acknowledged, while connection `7` is opened and closed,
connection `8` sends what does not unpickle, and connection `9` a push without a worker id. -/
def probed : List (Action ℚ) :=
  [.accept 7] ++ connect 0 1 (push 1) ++ [.hangup 7, .accept 8, .arrive 8 .unreadable, .run 0 0,
    .run 8 0, .accept 9, .fail 7, .run 0 0, .run 8 0, .run 7 0,
    .arrive 9 (.message ⟨.pushGradients, none, some (.dict (single 5)), none, ∅⟩), .run 9 0,
    .run 0 0, .run 9 0]

/-- The probes come from the connections above `6`. -/
def probes : Set ConnId := {c | 6 < c}

instance : DecidablePred (· ∈ probes) := fun c => inferInstanceAs (Decidable (6 < c))

end Scenario

open Scenario

/-- The first round of worker `1` is the same without them. -/
theorem probed_unnoticed : ∃ t t' : System ℚ,
    runAll (System.step syncEnv) start probed = some t ∧
    runAll (System.step syncEnv) start (probed.filter (Action.outside probes)) = some t' ∧
    t.SameOutside probes t' := by
  have hsome : (runAll (System.step syncEnv) start probed).isSome := by decide +kernel
  obtain ⟨s, hs⟩ := Option.isSome_iff_exists.mp hsome
  exact anonymous_unnoticed (by decide +kernel) hs probed List.prefix_rfl

end DistributedRL
