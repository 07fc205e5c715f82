import DistributedRL.Server.Barrier
import Mathlib.Data.List.Find

/-!
# The registry and reconnects

The aggregator and the monitor keep their tables by worker id, while a cleanup belongs to a
connection. If a worker reconnects before its old thread has ended, the old thread's cleanup takes
away what the new connection has registered. This module states when a cleanup is harmless, and
what the tables then say about the connections.
-/

namespace DistributedRL

variable {α : Type*}

/-! ### Where threads stand -/

namespace Handler

/-- The thread is in the loop, past the registration of its socket. -/
def InLoop : Handler α → Bool
  | .absent | .register _ | .registerSocket _ | .markDead | .unregister | .close | .done => false
  | _ => true

/-- The thread has not come to register its socket yet. -/
def Early : Handler α → Bool
  | .absent | .register _ | .registerSocket _ => true
  | _ => false

/-- The thread is inside the registration or the cleanup sequence. -/
def InTransit : Handler α → Bool
  | .register _ | .registerSocket _ | .markDead | .unregister | .close => true
  | _ => false

/-- The thread has not announced its worker to the monitor yet. -/
def Unannounced : Handler α → Bool
  | .register _ => true
  | _ => false

/-- The thread has identified itself and its connection is open: it is not in the cleanup. -/
def Open : Handler α → Bool
  | .register _ | .registerSocket _ => true
  | h => h.InLoop

end Handler

/-- What a step can do to a connection that does not register or unregister its socket. -/
structure Conn.Moves (k k' : Conn α) : Prop where
  workerId : ∀ w, k.workerId = some w → k'.workerId = some w
  enters : k'.handler.InLoop → k'.workerId = k.workerId ∧ (k.handler.InLoop ∨ k.handler = .absent)
  leaves : k.handler.InLoop → k'.handler.InLoop ∨ k'.handler.Leaving ∨ k.workerId = none
  leaving : k.handler.Leaving → k'.handler.Leaving
  early : k'.handler.Early → k.handler.Early ∨ k.workerId = none
  absent : k'.handler = .absent → k.handler = .absent ∧ k'.workerId = k.workerId

lemma Conn.Moves.of_eq {k k' : Conn α} (hh : k'.handler = k.handler)
    (hw : k'.workerId = k.workerId) : k.Moves k' := by
  constructor <;> simp_all

/-- A thread that is in the loop stays in it or leaves it. -/
lemma Conn.Moves.of_inLoop {k k' : Conn α} (hl : k.handler.InLoop)
    (hw : k'.workerId = k.workerId)
    (hl' : k'.handler.InLoop ∨ k'.handler.Leaving ∨ k.workerId = none ∧ k'.handler = .close) :
    k.Moves k' := by
  have hfrom : ¬ k.handler.Leaving := by
    cases hk : k.handler <;> simp_all [Handler.InLoop, Handler.Leaving]
  have hto : ¬ k'.handler.Early ∧ k'.handler ≠ .absent := by
    rcases hl' with hl' | hl' | ⟨-, hl'⟩
    · cases hk : k'.handler <;> simp_all [Handler.InLoop, Handler.Early]
    · cases hk : k'.handler <;> simp_all [Handler.Leaving, Handler.Early]
    · simp [hl', Handler.Early]
  refine ⟨fun w h => hw.trans h, fun _ => ⟨hw, Or.inl hl⟩, ?_, fun h => absurd h hfrom,
    fun h => absurd h hto.1, fun h => absurd h hto.2⟩
  intro _
  rcases hl' with hl' | hl' | ⟨hw, -⟩
  · exact Or.inl hl'
  · exact Or.inr (Or.inl hl')
  · exact Or.inr (Or.inr hw)

namespace System

/-- A thread that serves `w` is in the first part of its cleanup. -/
def LeavingFor (s : System α) (w : WorkerId) : Prop :=
  ∃ d, (s.conns d).workerId = some w ∧ (s.conns d).handler.Leaving

/-- The most recently registered connection of `w` whose thread is still in the loop. -/
def latest (s : System α) (w : WorkerId) : Option ConnId :=
  (s.history.registrations.find? fun p =>
    p.1 = w ∧ (s.conns p.2).handler.InLoop).map Prod.snd

/-! ### Tables and threads that agree -/

/-- No thread is inside the registration or the cleanup sequence. -/
def Settled (s : System α) : Prop := ∀ c, ¬ (s.conns c).handler.InTransit

/-- A thread that has identified itself as `w` is still running. -/
def Running (s : System α) (w : WorkerId) (c : ConnId) : Prop :=
  (s.conns c).workerId = some w ∧ (s.conns c).handler ≠ .done

/-- The tables agree with the running threads and with each other. -/
structure RegistryExact (s : System α) : Prop where
  sockets_latest : ∀ w, s.agg.sockets.get? w = s.latest w
  sockets_running : ∀ w, w ∈ s.agg.sockets.keys ↔ ∃ c, s.Running w c
  norms_buffer : ∀ w, w ∈ s.agg.norms.keys ↔ w ∈ s.agg.buffer.keys
  buffer_sockets : ∀ w ∈ s.agg.buffer.keys, w ∈ s.agg.sockets.keys

/-- A cleanup step of one connection takes nothing away from another open connection: neither its
socket, nor its pending delta, nor, once it has announced itself, its ALIVE status. -/
def CleanupSafe (s : System α) (a : Action α) (s' : System α) : Prop :=
  ∀ c now, a = .run c now → (s.conns c).handler.Leaving →
    ∀ d ≠ c, (s.conns d).handler.Open → ∀ w, (s.conns d).workerId = some w →
      (s.agg.sockets.get? w = some d → s'.agg.sockets.get? w = some d) ∧
      (∀ δ, s.agg.buffer.get? w = some δ → δ.conn = d → s'.agg.buffer.get? w = some δ) ∧
      (¬ (s.conns d).handler.Unannounced →
        s.hb.status.get? w = some .alive → s'.hb.status.get? w = some .alive)

/-- The condition on one step under which a cleanup is harmless: at `mark_dead` no other open
connection has announced the same worker to the monitor, at `unregister` none has registered its
socket. -/
def CleansOwn (s : System α) : Action α → Prop
  | .run c _ =>
    match (s.conns c).handler, (s.conns c).workerId with
    | .markDead, some w =>
      ∀ d ≠ c, (s.conns d).workerId = some w → (s.conns d).handler.Open →
        (s.conns d).handler.Unannounced
    | .unregister, some w =>
      ∀ d ≠ c, (s.conns d).workerId = some w → ¬ (s.conns d).handler.InLoop
    | _, _ => True
  | _ => True

/-! ### Invariants -/

/-- What holds of the sockets at any moment, also while threads register or clean up. -/
structure SocketsInv (s : System α) : Prop where
  absent : ∀ c, (s.conns c).handler = .absent → (s.conns c).workerId = none
  inLoop : ∀ c w, (s.conns c).handler.InLoop → (s.conns c).workerId = some w →
    (w, c) ∈ s.history.registrations
  registered : ∀ w c, (w, c) ∈ s.history.registrations →
    (s.conns c).workerId = some w ∧ ¬ (s.conns c).handler.Early
  sockets : ∀ w d, s.agg.sockets.get? w = some d → (w, d) ∈ s.history.registrations
  latest : ∀ w, s.LeavingFor w ∨ s.agg.sockets.get? w = s.latest w

/-- What holds of the buffer and the norms at any moment. -/
structure BufferInv (s : System α) : Prop where
  registered : ∀ w δ, s.agg.buffer.get? w = some δ → (w, δ.conn) ∈ s.history.registrations
  norms : ∀ w, s.LeavingFor w ∨ (w ∈ s.agg.norms.keys ↔ w ∈ s.agg.buffer.keys)
  sockets : ∀ w, s.LeavingFor w ∨ (w ∈ s.agg.buffer.keys → w ∈ s.agg.sockets.keys)

variable {s s' : System α}

/-- The registered connection of `w` that is in the loop can be found. -/
lemma exists_latest {w : WorkerId} {c : ConnId} (hr : (w, c) ∈ s.history.registrations)
    (hl : (s.conns c).handler.InLoop) : ∃ d, s.latest w = some d := by
  simp only [latest, Option.map_eq_some_iff]
  cases hf : s.history.registrations.find? fun p => p.1 = w ∧ (s.conns p.2).handler.InLoop with
  | none => exact absurd (List.find?_eq_none.mp hf _ hr) (by simp [hl])
  | some p => exact ⟨p.2, p, rfl, rfl⟩

lemma of_latest {w : WorkerId} {d : ConnId} (h : s.latest w = some d) :
    (w, d) ∈ s.history.registrations ∧ (s.conns d).handler.InLoop := by
  simp only [latest, Option.map_eq_some_iff] at h
  obtain ⟨⟨w', d'⟩, hp, rfl⟩ := h
  have hfound := List.find?_some hp
  simp only [decide_eq_true_eq] at hfound
  obtain ⟨rfl, hl⟩ := hfound
  exact ⟨List.mem_of_find?_eq_some hp, hl⟩

/-- `latest` depends on which registered connections of `w` are in the loop. -/
lemma latest_congr {w : WorkerId} (hr : s'.history.registrations = s.history.registrations)
    (hl : ∀ d, (w, d) ∈ s.history.registrations →
      (s'.conns d).handler.InLoop = (s.conns d).handler.InLoop) : s'.latest w = s.latest w := by
  rw [latest, latest, hr]
  congr 1
  apply List.find?_congr
  rintro ⟨v, d⟩ hp
  by_cases hv : v = w
  · subst hv
    simp [hl d hp]
  · simp [hv]

lemma leavingFor_of_moves (hm : ∀ d, (s.conns d).Moves (s'.conns d)) {w : WorkerId}
    (h : s.LeavingFor w) : s'.LeavingFor w := by
  obtain ⟨d, hw, hd⟩ := h
  exact ⟨d, (hm d).workerId w hw, (hm d).leaving hd⟩

/-- A registered connection stays in the loop, or it is on its way out. -/
lemma SocketsInv.inLoop_eq (hs : s.SocketsInv) {w : WorkerId} {d : ConnId}
    (hm : (s.conns d).Moves (s'.conns d)) (hn : ¬ s'.LeavingFor w)
    (hr : (w, d) ∈ s.history.registrations) :
    (s'.conns d).handler.InLoop = (s.conns d).handler.InLoop := by
  obtain ⟨hw, hearly⟩ := hs.registered w d hr
  rw [Bool.eq_iff_iff]
  constructor
  · intro h
    rcases (hm.enters h).2 with h | h
    · exact h
    · simp [h, Handler.Early] at hearly
  · intro h
    rcases hm.leaves h with h | h | h
    · exact h
    · exact absurd ⟨d, hm.workerId w hw, h⟩ hn
    · rw [hw] at h
      cases h

lemma SocketsInv.frame (hs : s.SocketsInv) (hm : ∀ d, (s.conns d).Moves (s'.conns d))
    (hsock : s'.agg.sockets = s.agg.sockets)
    (hreg : s'.history.registrations = s.history.registrations) : s'.SocketsInv where
  absent c h := by
    obtain ⟨h, hw⟩ := (hm c).absent h
    rw [hw]
    exact hs.absent c h
  inLoop c w hl hw := by
    obtain ⟨hw', h | h⟩ := (hm c).enters hl
    · rw [hw'] at hw
      rw [hreg]
      exact hs.inLoop c w h hw
    · rw [hw', hs.absent c h] at hw
      cases hw
  registered w c h := by
    rw [hreg] at h
    obtain ⟨hw, he⟩ := hs.registered w c h
    refine ⟨(hm c).workerId w hw, ?_⟩
    intro he'
    rcases (hm c).early he' with h | h
    · exact he h
    · rw [hw] at h
      cases h
  sockets w d h := by
    rw [hsock] at h
    rw [hreg]
    exact hs.sockets w d h
  latest w := by
    by_cases hn : s'.LeavingFor w
    · exact Or.inl hn
    · rw [hsock, latest_congr hreg fun d hr => hs.inLoop_eq (hm d) hn hr]
      rcases hs.latest w with h | h
      · exact absurd (leavingFor_of_moves hm h) hn
      · exact Or.inr h

lemma BufferInv.frame (hb : s.BufferInv) (hl : ∀ w, s.LeavingFor w → s'.LeavingFor w)
    (hbuf : s'.agg.buffer = s.agg.buffer) (hnorms : s'.agg.norms = s.agg.norms)
    (hsock : ∀ w ∈ s.agg.sockets.keys, w ∈ s'.agg.sockets.keys)
    (hreg : ∀ p ∈ s.history.registrations, p ∈ s'.history.registrations) : s'.BufferInv where
  registered w δ h := by
    rw [hbuf] at h
    exact hreg _ (hb.registered w δ h)
  norms w := by
    rw [hbuf, hnorms]
    exact (hb.norms w).imp_left (hl w)
  sockets w := by
    rw [hbuf]
    exact (hb.sockets w).imp (hl w) fun h hw => hsock w (h hw)

lemma inLoop_or_exit (s : System α) (c : ConnId) :
    (s.exit c).Leaving ∨ (s.conns c).workerId = none ∧ s.exit c = .close := by
  simp only [exit]
  cases (s.conns c).workerId with
  | none => exact Or.inr ⟨rfl, rfl⟩
  | some w => exact Or.inl rfl

lemma inLoop_or_replying (env : ServerEnv α) (s : System α) (c : ConnId) (resp : Response α) :
    (s.replying env c resp).InLoop ∨ (s.replying env c resp).Leaving ∨
      (s.conns c).workerId = none ∧ s.replying env c resp = .close := by
  simp only [replying]
  split
  · exact Or.inl rfl
  · exact Or.inr (inLoop_or_exit s c)

lemma inLoop_or_acking (env : ServerEnv α) (s : System α) (c : ConnId) (r : Round α) (step : ℕ)
    (todo : List ConnId) :
    (s.acking env c r step todo).InLoop ∨ (s.acking env c r step todo).Leaving ∨
      (s.conns c).workerId = none ∧ s.acking env c r step todo = .close := by
  cases todo with
  | nil => exact Or.inl rfl
  | cons d todo =>
    simp only [acking]
    split
    · exact Or.inl rfl
    · exact Or.inr (inLoop_or_exit s c)

end System

/-! ### Steps -/

section Steps

variable [Scalar α] {env : ServerEnv α} {s s' : System α} {a : Action α}

/-- How a step moves the acting connection, unless it registers or unregisters its socket. -/
lemma Rule.actor_moves {c : ConnId} (hr : Rule env s a s') (ha : a.conn = some c) :
    (s.conns c).Moves (s'.conns c) ∨ ∃ now, a = .run c now ∧
      ((∃ m, (s.conns c).handler = .registerSocket m) ∨ (s.conns c).handler = .unregister) := by
  cases hr <;> cases ha
  case registerSocket now m w h hw =>
    exact Or.inr ⟨now, rfl, Or.inl ⟨m, h⟩⟩
  case unregister now w h hw =>
    exact Or.inr ⟨now, rfl, Or.inr h⟩
  case arrive h he =>
    exact Or.inl (.of_eq (by simp) (by simp))
  case hangup h =>
    exact Or.inl (.of_eq (by simp) (by simp))
  case accept h =>
    exact Or.inl (by constructor <;> simp [h, Handler.InLoop, Handler.Leaving, Handler.Early])
  case identify hm h hi hw =>
    exact Or.inl (by constructor <;> simp [h, hw, Handler.InLoop, Handler.Leaving])
  case register h hw =>
    exact Or.inl (by constructor <;> simp [h, Handler.InLoop, Handler.Leaving, Handler.Early])
  case markDead h hw =>
    exact Or.inl (by constructor <;> simp [h, Handler.InLoop, Handler.Leaving, Handler.Early])
  case close h =>
    exact Or.inl (by constructor <;> simp [h, Handler.InLoop, Handler.Leaving, Handler.Early])
  case unreadable h hi =>
    refine Or.inl (.of_inLoop (by rw [h]; rfl) (by simp) (Or.inr ?_))
    simpa using System.inLoop_or_exit (s.setConn c _) c
  case anonymous hm h hi hw =>
    exact Or.inl (.of_inLoop (by rw [h]; rfl) (by simp) (Or.inr (Or.inr ⟨hw, by simp⟩)))
  case next h hi hw =>
    exact Or.inl (.of_inLoop (by rw [h]; rfl) (by simp) (Or.inl (by simp [Handler.InLoop])))
  case checkpoint h =>
    refine Or.inl (.of_inLoop (by rw [h]; rfl) (by simp) (Or.inl ?_))
    simp only [System.handler_goto, if_true]
    split_ifs <;> rfl
  case ackEnd r step d todo rest hd h =>
    refine Or.inl (.of_inLoop (by rw [h]; rfl) (by simp) ?_)
    have hnext := System.inLoop_or_acking env
      { s.send d rest with history := s.history.ack d r step } c r step todo
    simpa only [System.handler_goto, if_true, System.workerId_send] using hnext
  case replyFail resp rest h he =>
    refine Or.inl (.of_inLoop (by rw [h]; rfl) (by simp) (Or.inr ?_))
    simpa using System.inLoop_or_exit (s.reset c) c
  case ackFail r step d todo rest hb h =>
    refine Or.inl (.of_inLoop (by rw [h]; rfl) (by simp) ?_)
    have hnext := System.inLoop_or_acking env (s.reset d) c r step todo
    simpa only [System.handler_goto, if_true, System.workerId_reset] using hnext
  -- the thread is in the loop, and goes on in it or quits
  all_goals
    refine Or.inl (.of_inLoop (by simp_all [Handler.InLoop]) (by simp [System.heartbeat]) ?_)
    simp only [System.handler_goto, System.heartbeat, if_true]
    first
      | exact Or.inl rfl
      | exact System.inLoop_or_replying ..
      | exact System.inLoop_or_acking ..
      | exact Or.inr (System.inLoop_or_exit ..)

lemma Rule.conn_moves (hr : Rule env s a s') (d : ConnId) :
    (s.conns d).Moves (s'.conns d) ∨ ∃ now, a = .run d now ∧
      ((∃ m, (s.conns d).handler = .registerSocket m) ∨ (s.conns d).handler = .unregister) := by
  by_cases ha : a.conn = some d
  · exact hr.actor_moves ha
  · exact Or.inl (.of_eq (hr.handler_of_ne ha) (hr.workerId_of_ne ha))

/-- A step that is no registration and no `unregister` moves every connection. -/
lemma Rule.all_move (hr : Rule env s a s')
    (hn : ∀ c now, a = .run c now → (∀ m, (s.conns c).handler ≠ .registerSocket m) ∧
      (s.conns c).handler ≠ .unregister) (d : ConnId) : (s.conns d).Moves (s'.conns d) := by
  rcases hr.conn_moves d with h | ⟨now, ha, ⟨m, h⟩ | h⟩
  · exact h
  · exact absurd h ((hn d now ha).1 m)
  · exact absurd h (hn d now ha).2

omit [Scalar α] in
lemma System.SocketsInv.registerSocket {c : ConnId} {m : Message α} {w : WorkerId}
    (hs : s.SocketsInv) (h : (s.conns c).handler = .registerSocket m)
    (hw : (s.conns c).workerId = some w) :
    ({ s with agg := s.agg.registerSocket w c, history := s.history.register w c }.goto c
      (.dispatch m)).SocketsInv := by
  -- a connection registers once
  have hfresh : ∀ v, (v, c) ∉ s.history.registrations := by
    intro v hv
    exact (hs.registered v c hv).2 (by rw [h]; rfl)
  constructor
  · intro d hd
    by_cases hdc : d = c
    · simp [hdc] at hd
    · simpa [hdc] using hs.absent d (by simpa [hdc] using hd)
  · intro d v hl hv
    simp only [System.workerId_goto] at hv
    by_cases hdc : d = c
    · subst hdc
      rw [hw] at hv
      cases hv
      exact List.mem_cons_self
    · exact List.mem_cons_of_mem _ (hs.inLoop d v (by simpa [hdc] using hl) hv)
  · intro v d hd
    rcases List.mem_cons.mp hd with he | hd
    · cases he
      exact ⟨by simpa using hw, by simp [Handler.Early]⟩
    · have hdc : d ≠ c := fun e => hfresh v (e ▸ hd)
      simpa [hdc] using hs.registered v d hd
  · intro v d hd
    simp only [System.agg_goto, GradientAggregator.get?_sockets_registerSocket] at hd
    split_ifs at hd with hvw
    · cases hd
      exact hvw ▸ List.mem_cons_self
    · exact List.mem_cons_of_mem _ (hs.sockets v d hd)
  · intro v
    by_cases hvw : v = w
    · subst hvw
      exact Or.inr (by simp [System.latest, History.register, Handler.InLoop])
    · have hlatest : ({ s with
          agg := s.agg.registerSocket w c, history := s.history.register w c }.goto c
          (.dispatch m)).latest v = s.latest v := by
        have hwv : ¬ w = v := fun e => hvw e.symm
        rw [System.latest, System.latest]
        simp only [System.history_goto, History.register]
        rw [List.find?_cons_of_neg (by simp [hwv])]
        congr 1
        apply List.find?_congr
        rintro ⟨u, d⟩ hd
        have hdc : d ≠ c := fun e => hfresh u (e ▸ hd)
        simp [hdc]
      rcases hs.latest v with ⟨d, hd, hl⟩ | hsock
      · refine Or.inl ⟨d, by simpa using hd, ?_⟩
        have hdc : d ≠ c := by
          rintro rfl
          rw [h] at hl
          cases hl
        simpa [hdc] using hl
      · exact Or.inr (by simpa [hvw, hlatest] using hsock)

omit [Scalar α] in
lemma System.SocketsInv.unregister {c : ConnId} {w : WorkerId}
    (hs : s.SocketsInv) (h : (s.conns c).handler = .unregister)
    (hw : (s.conns c).workerId = some w)
    (hk : ∀ d ≠ c, (s.conns d).workerId = some w → ¬ (s.conns d).handler.InLoop) :
    ({ s with agg := s.agg.unregister w }.goto c .close).SocketsInv := by
  constructor
  · intro d hd
    by_cases hdc : d = c
    · simp [hdc] at hd
    · simpa using hs.absent d (by simpa [hdc] using hd)
  · intro d v hl hv
    by_cases hdc : d = c
    · simp [hdc, Handler.InLoop] at hl
    · exact hs.inLoop d v (by simpa [hdc] using hl) (by simpa using hv)
  · intro v d hd
    obtain ⟨hv, he⟩ := hs.registered v d hd
    refine ⟨by simpa using hv, ?_⟩
    by_cases hdc : d = c
    · simp [hdc, Handler.Early]
    · simpa [hdc] using he
  · intro v d hd
    simp only [System.agg_goto, GradientAggregator.get?_sockets_unregister] at hd
    split_ifs at hd with hvw
    exact hs.sockets v d hd
  · intro v
    by_cases hvw : v = w
    · subst hvw
      -- neither the thread that unregisters nor any other one serves the worker in the loop
      right
      have hnone : ({ s with agg := s.agg.unregister v }.goto c .close).latest v = none := by
        by_contra hsome
        obtain ⟨d, hd⟩ := Option.ne_none_iff_exists'.mp hsome
        obtain ⟨hreg, hl⟩ := System.of_latest hd
        by_cases hdc : d = c
        · simp [hdc, Handler.InLoop] at hl
        · exact hk d hdc (hs.registered v d hreg).1 (by simpa [hdc] using hl)
      simp [hnone]
    · have hlatest : ({ s with agg := s.agg.unregister w }.goto c .close).latest v =
          s.latest v := by
        refine System.latest_congr rfl ?_
        intro d hd
        have hdc : d ≠ c := by
          rintro rfl
          have hv := (hs.registered v d hd).1
          rw [hw] at hv
          cases hv
          exact hvw rfl
        simp [hdc]
      rcases hs.latest v with ⟨d, hd, hl⟩ | hsock
      · refine Or.inl ⟨d, by simpa using hd, ?_⟩
        have hdc : d ≠ c := by
          rintro rfl
          rw [hw] at hd
          cases hd
          exact hvw rfl
        simpa [hdc] using hl
      · exact Or.inr (by simpa [hvw, hlatest] using hsock)

lemma Rule.socketsInv (hr : Rule env s a s') (hs : s.SocketsInv) (hk : s.CleansOwn a) :
    s'.SocketsInv := by
  have hm := hr.all_move
  cases hr
  case registerSocket c now m w h hw => exact hs.registerSocket h hw
  case unregister c now w h hw =>
    simp only [System.CleansOwn, h, hw] at hk
    exact hs.unregister h hw hk
  all_goals
    refine hs.frame (hm ?_) rfl rfl
    intro d now ha
    cases ha <;> simp_all

namespace System

omit [Scalar α] in
/-- The entries of a worker that is unregistered are removed. -/
lemma BufferInv.unregister (hb : s.BufferInv) {c : ConnId} {w : WorkerId}
    (hw : (s.conns c).workerId = some w) :
    ({ s with agg := s.agg.unregister w }.goto c .close).BufferInv := by
  have hleaving : ∀ v ≠ w, s.LeavingFor v →
      ({ s with agg := s.agg.unregister w }.goto c .close).LeavingFor v := by
    rintro v hvw ⟨d, hd, hl⟩
    refine ⟨d, by simpa using hd, ?_⟩
    have hdc : d ≠ c := by
      rintro rfl
      rw [hw] at hd
      cases hd
      exact hvw rfl
    simpa [hdc] using hl
  refine ⟨?_, ?_, ?_⟩
  · intro v δ hv
    simp only [System.agg_goto, GradientAggregator.get?_buffer_unregister] at hv
    split_ifs at hv with hvw
    exact hb.registered v δ hv
  · intro v
    by_cases hvw : v = w
    · exact Or.inr (by simp [GradientAggregator.unregister, hvw])
    · refine (hb.norms v).imp (hleaving v hvw) ?_
      intro h
      simpa [GradientAggregator.unregister, hvw] using h
  · intro v
    by_cases hvw : v = w
    · exact Or.inr (by simp [GradientAggregator.unregister, hvw])
    · refine (hb.sockets v).imp (hleaving v hvw) ?_
      intro h
      simpa [GradientAggregator.unregister, hvw] using h

omit [Scalar α] in
/-- The delta of a raising push stays behind, but its thread is leaving. -/
lemma BufferInv.raised (hb : s.BufferInv) {c : ConnId} {w : WorkerId} {δ : Delta α}
    (hl : ∀ v, s.LeavingFor v → s'.LeavingFor v) (hc : s'.LeavingFor w)
    (hreg : (w, δ.conn) ∈ s.history.registrations)
    (hs' : s' = System.quit { s with
      agg := { s.agg with buffer := s.agg.buffer.set w δ },
      history := s.history.accept δ } c) : s'.BufferInv := by
  subst hs'
  refine ⟨?_, ?_, ?_⟩
  · intro v δ' hv
    simp only [System.agg_goto, Dict.get?_set] at hv
    split_ifs at hv with hvw
    · cases hv
      exact hvw ▸ hreg
    · exact hb.registered v δ' hv
  · intro v
    by_cases hvw : v = w
    · exact Or.inl (hvw ▸ hc)
    · refine (hb.norms v).imp (hl v) ?_
      intro h
      simpa [hvw] using h
  · intro v
    by_cases hvw : v = w
    · exact Or.inl (hvw ▸ hc)
    · refine (hb.sockets v).imp (hl v) ?_
      intro h
      simpa [hvw] using h

end System

lemma Rule.bufferInv (hr : Rule env s a s') (hs : s.SocketsInv) (hb : s.BufferInv) :
    s'.BufferInv := by
  have hm := hr.all_move
  cases hr
  case registerSocket c now m w h hw =>
    refine hb.frame ?_ rfl rfl ?_ ?_
    · intro v hv
      obtain ⟨d, hd, hl⟩ := hv
      refine ⟨d, by simpa using hd, ?_⟩
      have hdc : d ≠ c := by
        rintro rfl
        rw [h] at hl
        cases hl
      simpa [hdc] using hl
    · intro v hv
      exact Dict.mem_keys_set.mpr (Or.inr hv)
    · intro p hp
      exact List.mem_cons_of_mem _ hp
  case unregister c now w h hw => exact hb.unregister hw
  case raised c now m w g e h hw ht hg hn =>
    have hreg := hs.inLoop c w (by rw [h]; rfl) hw
    have hl := fun v (hv : s.LeavingFor v) => System.leavingFor_of_moves
      (hm fun d now ha => by cases ha; simp [h]) hv
    refine hb.raised hl ?_ hreg rfl
    exact ⟨c, by simpa using hw, by simp [System.exit, hw, Handler.Leaving]⟩
  case buffered c now m w g norm h hw ht hg hn hsub =>
    have hreg := hs.inLoop c w (by rw [h]; rfl) hw
    have hl := fun v (hv : s.LeavingFor v) => System.leavingFor_of_moves
      (hm fun d now ha => by cases ha; simp [h]) hv
    refine ⟨?_, ?_, ?_⟩
    · intro v δ hv
      simp only [System.agg_goto, GradientAggregator.get?_buffer_enter] at hv
      split_ifs at hv with hvw
      · cases hv
        exact hvw ▸ hreg
      · exact hb.registered v δ hv
    · intro v
      refine (hb.norms v).imp (hl v) ?_
      intro h
      simp only [System.agg_goto, GradientAggregator.mem_norms_enter,
        GradientAggregator.mem_buffer_enter, h]
    · intro v
      by_cases hvw : v = w
      · subst hvw
        refine (hs.latest v).imp (hl v) ?_
        intro hsock _
        obtain ⟨d, hd⟩ := System.exists_latest hreg (by rw [h]; rfl)
        exact Dict.mem_keys_iff.mpr ⟨d, hsock.trans hd⟩
      · refine (hb.sockets v).imp (hl v) ?_
        intro h
        simpa [GradientAggregator.mem_buffer_enter, hvw] using h
  case fired =>
    refine ⟨?_, fun v => Or.inr ?_, fun v => Or.inr ?_⟩
    · intro v δ hv
      simp at hv
    · simp
    · simp
  all_goals
    refine hb.frame (fun v hv => System.leavingFor_of_moves (hm ?_) hv) rfl rfl
      (fun _ h => h) (fun _ h => h)
    intro d now ha
    cases ha <;> simp_all

/-! ### Cleanups -/

/-- The two steps of a cleanup that meets the condition. -/
lemma Rule.cleanupSafe (hr : Rule env s a s') (hs : s.SocketsInv) (hb : s.BufferInv)
    (hk : s.CleansOwn a) : s.CleanupSafe a s' := by
  rintro c now rfl hc d hdc hopen v hv
  cases hr
  case markDead w h hw =>
    simp only [System.CleansOwn, h, hw] at hk
    refine ⟨fun h => h, fun δ h _ => h, ?_⟩
    intro hann halive
    have hvw : v ≠ w := by
      rintro rfl
      exact hann (hk d hdc hv hopen)
    simpa [HeartbeatMonitor.markDead, hvw] using halive
  case unregister w h hw =>
    simp only [System.CleansOwn, h, hw] at hk
    -- another registered connection of the same worker would be in the loop
    have hother : (v, d) ∈ s.history.registrations → v ≠ w := by
      rintro hreg rfl
      have hearly := (hs.registered v d hreg).2
      have hloop := hk d hdc hv
      cases hd : (s.conns d).handler <;>
        simp_all [Handler.Open, Handler.InLoop, Handler.Early]
    refine ⟨?_, ?_, fun _ halive => halive⟩
    · intro hsock
      simpa [hother (hs.sockets v d hsock)] using hsock
    · intro δ hδ hconn
      simpa [hother (hconn ▸ hb.registered v δ hδ)] using hδ
  all_goals simp_all [Handler.Leaving]

omit [Scalar α] in
/-- The tables are exact where no thread is on its way in or out. -/
lemma System.SocketsInv.exact (hs : s.SocketsInv) (hb : s.BufferInv) (hset : s.Settled) :
    s.RegistryExact := by
  have hno : ∀ w, ¬ s.LeavingFor w := by
    rintro w ⟨d, -, hd⟩
    refine hset d ?_
    cases h : (s.conns d).handler <;> simp_all [Handler.Leaving, Handler.InTransit]
  have hlatest : ∀ w, s.agg.sockets.get? w = s.latest w := fun w =>
    (hs.latest w).resolve_left (hno w)
  refine ⟨hlatest, ?_, fun w => (hb.norms w).resolve_left (hno w),
    fun w => (hb.sockets w).resolve_left (hno w)⟩
  intro w
  rw [Dict.mem_keys_iff, hlatest]
  constructor
  · rintro ⟨c, hc⟩
    obtain ⟨hreg, hl⟩ := System.of_latest hc
    refine ⟨c, (hs.registered w c hreg).1, ?_⟩
    intro hdone
    rw [hdone] at hl
    cases hl
  · rintro ⟨c, hw, hdone⟩
    have hl : (s.conns c).handler.InLoop := by
      have htransit := hset c
      have habs : (s.conns c).handler ≠ .absent := by
        intro h
        rw [hs.absent c h] at hw
        cases hw
      cases h : (s.conns c).handler <;> simp_all [Handler.InLoop, Handler.InTransit]
    exact System.exists_latest (hs.inLoop c w hl hw) hl

end Steps

/-! ### Runs -/

lemma System.socketsInv_init (st : WeightStore α) (timeout : ℚ) :
    (System.init st timeout).SocketsInv where
  absent _ _ := rfl
  inLoop _ _ h := by cases h
  registered _ _ h := by cases h
  sockets _ _ h := by cases h
  latest _ := Or.inr rfl

lemma System.bufferInv_init (st : WeightStore α) (timeout : ℚ) :
    (System.init st timeout).BufferInv where
  registered _ _ h := by cases h
  norms _ := Or.inr Iff.rfl
  sockets _ := Or.inr id

/-- In every run whose cleanups meet the condition, the tables are exact in every settled state,
and the next cleanup takes nothing away from another open connection. -/
theorem registry_safe [Scalar α] {env : ServerEnv α} {st : WeightStore α} {timeout : ℚ}
    {s : System α}
    (h : Reach (System.step env) (fun s a _ => s.CleansOwn a) (.init st timeout) s) :
    (s.Settled → s.RegistryExact) ∧
      ∀ a s', s.step env a = some s' → s.CleansOwn a → s.CleanupSafe a s' := by
  have hinv : s.SocketsInv ∧ s.BufferInv := by
    refine h.invariant (P := fun s => s.SocketsInv ∧ s.BufferInv)
      ⟨System.socketsInv_init st timeout, System.bufferInv_init st timeout⟩ ?_
    intro s a s' ⟨hs, hb⟩ hstep hk
    have hr := System.rule_of_step hstep
    exact ⟨hr.socketsInv hs hk, hr.bufferInv hs hb⟩
  obtain ⟨hs, hb⟩ := hinv
  exact ⟨hs.exact hb, fun a s' hstep hk => (System.rule_of_step hstep).cleanupSafe hs hb hk⟩

/-! ### Two runs -/

namespace Scenario

/-- Worker `0` connects and pulls, twice; then the first connection is found to be dead. -/
def reconnects : List (Action ℚ) :=
  connect 0 0 .pullWeights ++ [.run 0 0, .write 0 4] ++ connect 1 0 .pullWeights ++
    [.run 1 0, .write 1 4] ++ leave 0

/-- Worker `0` connects and pulls, leaves, and comes back over a new connection. -/
def returns : List (Action ℚ) :=
  connect 0 0 .pullWeights ++ [.run 0 0, .write 0 4] ++ leave 0 ++
    connect 1 0 .pullWeights ++ [.run 1 0, .write 1 4]

/-- A check that implies `CleansOwn` in a run of two connections: at a cleanup the other
connection is not accepted yet. -/
def cleansOwn (s : System ℚ) : Action ℚ → Bool
  | .run c _ => !(s.conns c).handler.Leaving ||
      [0, 1].all fun d => d == c || ((s.conns d).handler matches .absent)
  | _ => true

lemma cleansOwn_sound {s : System ℚ} {a : Action ℚ} (h : cleansOwn s a = true)
    (habs : ∀ d, ¬ d < 2 → (s.conns d).handler = .absent) : s.CleansOwn a := by
  cases a with
  | run c now =>
    have hother : (s.conns c).handler.Leaving → ∀ d ≠ c, (s.conns d).handler = .absent := by
      intro hl d hdc
      by_cases hd : d < 2
      · have hmem : d ∈ [0, 1] := by
          simpa using Nat.le_one_iff_eq_zero_or_eq_one.mp (Nat.lt_succ_iff.mp hd)
        simp only [cleansOwn, hl, Bool.not_true, Bool.false_or, List.all_eq_true] at h
        have hd := h d hmem
        simp only [beq_eq_false_iff_ne.mpr hdc, Bool.false_or] at hd
        split at hd
        · assumption
        · cases hd
      · exact habs d hd
    simp only [System.CleansOwn]
    split
    · next hh _ =>
      intro d hdc _ hopen
      rw [hother (by rw [hh]; rfl) d hdc] at hopen
      cases hopen
    · next hh _ =>
      intro d hdc _
      rw [hother (by rw [hh]; rfl) d hdc]
      simp [Handler.InLoop]
    · trivial
  | _ => trivial

end Scenario

open Scenario

/-- The cleanup of the old connection has removed the socket of the new one, whose thread runs. -/
theorem reconnect_unregistered :
    ∃ s, Reach (System.step syncEnv) (fun _ a _ => a.below 2 = true) start s ∧
      s.Settled ∧ ¬ s.RegistryExact := by
  obtain ⟨s, hreach, htransit, hsock, hw, hdone⟩ :=
    Reach.of_script (System.step syncEnv) (fun _ a _ => a.below 2 = true) start reconnects
      (fun _ a _ => a.below 2) (fun _ _ _ h => h)
      (fun s : System ℚ => (∀ c < (2 : ℕ), ¬ (s.conns c).handler.InTransit) ∧
        s.agg.sockets.keys = [] ∧ (s.conns 1).workerId = some 0 ∧ (s.conns 1).handler.InLoop)
      (by decide +kernel)
  have hset : s.Settled := forall_handler_of_scripted (P := fun h => ¬ h.InTransit) hreach id
    (by simp [Handler.InTransit]) htransit
  refine ⟨s, hreach, hset, ?_⟩
  intro hexact
  have hmem := (hexact.sockets_running 0).mpr ⟨1, hw, fun h => by rw [h] at hdone; cases hdone⟩
  rw [hsock] at hmem
  cases hmem

/-- A worker that comes back after its old thread has ended is registered. -/
theorem registry_safe_returns :
    ∃ s, Reach (System.step syncEnv) (fun s a _ => s.CleansOwn a) start s ∧
      s.agg.sockets.get? 0 = some 1 ∧ s.Settled ∧ s.RegistryExact ∧
      ∀ a s', s.step syncEnv a = some s' → s.CleansOwn a → s.CleanupSafe a s' := by
  obtain ⟨s, hreach, htransit, hsock⟩ :=
    Reach.of_script (System.step syncEnv)
      (fun s a _ => cleansOwn s a = true ∧ a.below 2 = true) start returns
      (fun s a _ => cleansOwn s a && a.below 2)
      (fun s a _ h => Bool.and_eq_true_iff.mp h)
      (fun s : System ℚ => (∀ c < (2 : ℕ), ¬ (s.conns c).handler.InTransit) ∧
        s.agg.sockets.get? 0 = some 1)
      (by decide +kernel)
  have hset : s.Settled := forall_handler_of_scripted (P := fun h => ¬ h.InTransit) hreach
    (fun h => h.2) (by simp [Handler.InTransit]) htransit
  have hrun : Reach (System.step syncEnv) (fun s a _ => s.CleansOwn a) start s :=
    hreach.mono_of (P := fun s => ∀ d, ¬ d < 2 → (s.conns d).handler = .absent)
      (fun hr d hd => absent_of_scripted hr (fun h => h.2) hd)
      (fun habs _ h => cleansOwn_sound h.1 habs)
  obtain ⟨hexact, hsafe⟩ := registry_safe hrun
  exact ⟨s, hrun, hsock, hset, hexact hset, hsafe⟩

end DistributedRL
