import DistributedRL.Worker.Acks

/-!
# Steady runs

Runs in which no worker hangs up or is marked DEAD. Whoever has registered stays registered and
ALIVE, so in synchronous mode every completed round covers every registered worker.
-/

namespace DistributedRL

variable {α : Type*}

namespace Handler

/-- The thread has not read a worker id, or has ended without one. -/
def Nameless : Handler α → Bool
  | .absent | .recv | .close | .done => true
  | _ => false

/-- The thread is past `mark_dead`, or has closed its socket. -/
def Shut : Handler α → Bool
  | .unregister | .close | .done => true
  | _ => false

end Handler

/-- The condition on one step that no worker hangs up and none is marked DEAD. -/
def Cluster.Steady (s : Cluster α) (a : ClusterAction α) (s' : Cluster α) : Prop :=
  (∀ c, a ≠ .leave c) ∧ ∀ w ∈ s.sys.hb.aliveWorkers, w ∈ s'.sys.hb.aliveWorkers

/-- The invariant of steady runs. -/
structure System.SteadyInv (s : System α) : Prop where
  nameless : ∀ d, (s.conns d).workerId = none → (s.conns d).handler.Nameless
  running : ∀ d w, (s.conns d).workerId = some w → (s.conns d).handler.Shut = false
  announced : ∀ d w, (s.conns d).workerId = some w →
    (∃ m, (s.conns d).handler = .register m) ∨ w ∈ s.hb.aliveWorkers
  alive : ∀ w ∈ s.agg.sockets.keys, w ∈ s.hb.aliveWorkers
  eof : ∀ d, (s.conns d).eof = false

lemma System.steadyInv_init (st : WeightStore α) (timeout : ℚ) : (init st timeout).SteadyInv where
  nameless _ _ := rfl
  running _ _ h := by cases h
  announced _ _ h := by cases h
  alive _ h := by cases h
  eof _ := rfl

section Rules

variable [Scalar α] {env : ServerEnv α} {s s' : System α} {a : Action α} {c d : ConnId}
  {w : WorkerId}

lemma Rule.actor_nameless (hr : Rule env s a s') (ha : a.conn = some d)
    (h : (s.conns d).workerId = none → (s.conns d).handler.Nameless)
    (hw : (s'.conns d).workerId = none) : (s'.conns d).handler.Nameless := by
  have hw₀ : (s.conns d).workerId = none := by
    cases hd : (s.conns d).workerId with
    | none => rfl
    | some v => rw [hr.workerId hd] at hw; cases hw
  have hn := h hw₀
  have hexit : ∀ s : System α, (s.conns d).workerId = none → (s.exit d).Nameless := by
    intro s hs
    rw [System.exit, hs]
    rfl
  cases hr <;> cases ha
  case unreadable now rest hh hi => simpa using hexit _ (by simpa using hw₀)
  case recvFail hh he => simpa using hexit _ hw₀
  all_goals simp_all [Handler.Nameless]

/-- A thread without a worker id waits for a first message, or has ended. -/
lemma Rule.nameless (hr : Rule env s a s')
    (h : (s.conns d).workerId = none → (s.conns d).handler.Nameless)
    (hw : (s'.conns d).workerId = none) : (s'.conns d).handler.Nameless := by
  by_cases ha : a.conn = some d
  · exact hr.actor_nameless ha h hw
  · rw [hr.handler_of_ne ha]
    exact h (hr.workerId_of_ne ha ▸ hw)

omit [Scalar α] in
lemma System.shut_exit (hw : (s.conns d).workerId = some w) : (s.exit d).Shut = false := by
  rw [exit, hw]
  rfl

omit [Scalar α] in
lemma System.shut_replying (hw : (s.conns d).workerId = some w) (resp : Response α) :
    (s.replying env d resp).Shut = false := by
  rcases s.replying_cases d env resp with ⟨_, -, h⟩ | h <;> rw [h]
  · rfl
  · exact shut_exit hw

omit [Scalar α] in
lemma System.shut_acking (hw : (s.conns d).workerId = some w) (r : Round α) (step : ℕ)
    (todo : List ConnId) : (s.acking env d r step todo).Shut = false := by
  rcases s.acking_cases d env r step todo with ⟨-, h⟩ | ⟨-, _, -, h⟩ | h <;> rw [h]
  · rfl
  · rfl
  · exact shut_exit hw

lemma Rule.actor_running (hr : Rule env s a s') (ha : a.conn = some d)
    (h : (s.conns d).handler.Shut = false)
    (hdead : (s.conns d).handler = .markDead → w ∈ s'.hb.aliveWorkers)
    (hw : (s.conns d).workerId = some w) : (s'.conns d).handler.Shut = false := by
  cases hr <;> cases ha
  case arrive => simpa using h
  case hangup => simpa using h
  case markDead now v hh hv =>
    obtain ⟨hne, -⟩ := HeartbeatMonitor.alive_markDead.mp (hdead hh)
    exact absurd (Option.some.inj (hw.symm.trans hv)) hne
  case checkpoint now step hh =>
    simp only [System.handler_goto, if_true]
    split_ifs <;> rfl
  all_goals
    simp only [System.handler_goto, System.conns_setConn, System.heartbeat, if_true]
    first
      | rfl
      | exact System.shut_exit (by simpa using hw)
      | exact System.shut_replying (by simpa using hw) _
      | exact System.shut_acking (by simpa using hw) ..
      | simp_all [Handler.Shut]

lemma Rule.actor_registers (hr : Rule env s a s') (ha : a.conn = some d) {m : Message α}
    (h : (s.conns d).handler = .register m) (hw : (s.conns d).workerId = some w) :
    (s'.conns d).handler = .register m ∨ w ∈ s'.hb.aliveWorkers := by
  cases hr <;> cases ha
  case arrive => exact Or.inl (by simpa using h)
  case hangup => exact Or.inl (by simpa using h)
  case register now m' v hh hv =>
    refine Or.inr (HeartbeatMonitor.alive_register.mpr (Or.inl ?_))
    exact Option.some.inj (hw.symm.trans hv)
  all_goals simp_all

/-- An identified worker is ALIVE once its thread has registered it with the monitor. -/
lemma Rule.announced (hr : Rule env s a s')
    (halive : ∀ w ∈ s.hb.aliveWorkers, w ∈ s'.hb.aliveWorkers)
    (h : ∀ w, (s.conns d).workerId = some w →
      (∃ m, (s.conns d).handler = .register m) ∨ w ∈ s.hb.aliveWorkers)
    (hw : (s'.conns d).workerId = some w) :
    (∃ m, (s'.conns d).handler = .register m) ∨ w ∈ s'.hb.aliveWorkers := by
  rcases hr.workerId_cases d with he | ⟨m, -, -, -, -, -, hm⟩
  · rcases h w (he ▸ hw) with ⟨m, hm⟩ | hw'
    · by_cases ha : a.conn = some d
      · exact (hr.actor_registers ha hm (he ▸ hw)).imp_left fun h => ⟨m, h⟩
      · exact Or.inl ⟨m, by rw [hr.handler_of_ne ha, hm]⟩
    · exact Or.inr (halive w hw')
  · exact Or.inl ⟨m, hm⟩

/-- A worker is registered if it was before, or has just registered its socket. -/
lemma Rule.registered_of (hr : Rule env s a s') (h : w ∈ s'.agg.sockets.keys) :
    w ∈ s.agg.sockets.keys ∨
      ∃ c m, (s.conns c).handler = .registerSocket m ∧ (s.conns c).workerId = some w := by
  cases hr
  case registerSocket c now m v hh hv =>
    rcases Dict.mem_keys_set.mp h with rfl | h
    · exact Or.inr ⟨c, m, hh, hv⟩
    · exact Or.inl h
  case unregister c now v hh hv => exact Or.inl (Dict.mem_keys_erase.mp h).1
  all_goals exact Or.inl h

/-- A step that marks nobody DEAD, and is no hang-up, keeps a server steady. -/
lemma Rule.steadyInv (hr : Rule env s a s') (h : s.SteadyInv)
    (hseat : ∀ d w, (s.conns d).workerId = some w → (s.conns d).handler.Seated →
      s.agg.sockets.get? w = some d)
    (hup : ∀ c, a ≠ .hangup c) (halive : ∀ w ∈ s.hb.aliveWorkers, w ∈ s'.hb.aliveWorkers) :
    s'.SteadyInv where
  nameless d := hr.nameless (h.nameless d)
  running d w hw := by
    by_cases ha : a.conn = some d
    · rcases hr.workerId_cases d with he | ⟨m, -, -, -, -, -, hm⟩
      · have hw₀ : (s.conns d).workerId = some w := he ▸ hw
        refine hr.actor_running ha (h.running d w hw₀) (fun hdead => halive w ?_) hw₀
        exact h.alive w (Dict.mem_keys_iff.mpr ⟨d, hseat d w hw₀ (by rw [hdead]; rfl)⟩)
      · rw [hm]; rfl
    · rw [hr.handler_of_ne ha]
      exact h.running d w (hr.workerId_of_ne ha ▸ hw)
  announced d w hw := hr.announced halive (h.announced d) hw
  alive w hw := by
    rcases hr.registered_of hw with hw | ⟨c, m, hm, hc⟩
    · exact halive w (h.alive w hw)
    · refine halive w ((h.announced c w hc).resolve_left ?_)
      rintro ⟨m', hm'⟩
      rw [hm] at hm'
      cases hm'
  eof d := by
    have he := h.eof d
    cases hr
    case hangup c _ => exact absurd rfl (hup c)
    case scan => exact he
    all_goals
      simp only [System.heartbeat, System.eof_goto, System.eof_send, System.eof_reset,
        System.conns_setConn]
      first
        | exact he
        | split_ifs with hd <;> simp_all

end Rules

/-! ### Runs -/

namespace Cluster

variable [Scalar α] {env : ServerEnv α} {ids : ConnId → WorkerId} {s s' : Cluster α}
  {a : ClusterAction α} {d : ConnId}

/-- In synchronous mode, a round of a steady server covers every registered worker. -/
lemma covers_of_sync (hsync : GradientAggregator.minReady env.config ≤ 0)
    (h : s.sys.SteadyInv) (a : ClusterAction α) : s.Covers env a := by
  cases a with
  | server a =>
    cases a with
    | run c now =>
      simp only [Covers, System.Covers]
      split
      · next m w hh hw =>
        rintro ⟨-, g, norm, -, -, happly⟩ v hv
        rw [GradientAggregator.shouldApply_sync hsync] at happly
        by_contra hne
        refine happly v ⟨hv, h.alive v hv, ?_⟩
        rwa [GradientAggregator.mem_buffer_enter]
      · trivial
    | _ => trivial
  | _ => trivial

lemma rule_of_steady (hstep : s.step env ids a = some s') (h : s.Steady a s') :
    s'.sys = s.sys ∨ ∃ b, Rule env s.sys b s'.sys ∧ ∀ c, b ≠ .hangup c := by
  cases rule_of_step hstep with
  | connect hp hs => exact Or.inr ⟨_, System.rule_of_step hs, fun c h => by cases h⟩
  | request hp hl hs => exact Or.inr ⟨_, System.rule_of_step hs, fun c h => by cases h⟩
  | receive hp hl hf => exact Or.inl rfl
  | leave hp hs => exact absurd rfl (h.1 _)
  | server hi hs => exact Or.inr ⟨_, System.rule_of_step hs, fun c h => by subst h; cases hi⟩

lemma steadyInv_step (hsound : s.Sound env ids) (h : s.sys.SteadyInv)
    (hstep : s.step env ids a = some s') (hk : s.Steady a s') : s'.sys.SteadyInv := by
  rcases rule_of_steady hstep hk with he | ⟨b, hr, hup⟩
  · rw [he]; exact h
  · exact hr.steadyInv h hsound.seated hup hk.2

/-- In a steady run, who has registered stays registered. -/
lemma registered_step (hids : Function.Injective ids) (hsound : s.Sound env ids)
    (h : s.sys.SteadyInv) (hstep : s.step env ids a = some s')
    (hd : d ∈ s.sys.agg.sockets.values) : d ∈ s'.sys.agg.sockets.values := by
  rcases sys_of_step hstep with he | ⟨b, -, hb⟩
  · rwa [he]
  obtain ⟨w, hw⟩ := Dict.mem_values_iff.mp hd
  have hown := hsound.sends.own w d hw
  refine Dict.mem_values_iff.mpr ⟨w, ?_⟩
  have hr := System.rule_of_step hb
  clear hstep hb
  generalize s'.sys = sys at hr
  cases hr
  case registerSocket c now m v hh hv =>
    by_cases hwv : w = v
    · subst hwv
      obtain rfl := hids ((hsound.identity c w hv).symm.trans (hsound.identity d w hown))
      simp
    · simpa [hwv] using hw
  case unregister c now v hh hv =>
    have hshut := h.running c v hv
    rw [hh] at hshut
    cases hshut
  all_goals exact hw

/-- The invariants of steady runs in synchronous mode. -/
lemma steady_of_reach {ok : Cluster α → ClusterAction α → Cluster α → Prop} {st : WeightStore α}
    {timeout : ℚ} (hids : Function.Injective ids) (hp : env.pickle.Lawful)
    (hsync : GradientAggregator.minReady env.config ≤ 0)
    (h : Reach (Cluster.step env ids) ok (.init st timeout) s)
    (hok : ∀ {s a s'}, ok s a s' → s.Steady a s') : s.Tracked env ids ∧ s.sys.SteadyInv := by
  refine h.invariant (P := fun s => s.Tracked env ids ∧ s.sys.SteadyInv)
    ⟨tracked_init env ids st timeout, System.steadyInv_init st timeout⟩ ?_
  rintro s a s' ⟨htr, hsteady⟩ hstep hk
  exact ⟨htr.step hids hp hstep (covers_of_sync hsync hsteady a),
    steadyInv_step htr.sound hsteady hstep (hok hk)⟩

end Cluster

end DistributedRL
