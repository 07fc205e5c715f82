import DistributedRL.Server.Barrier
import DistributedRL.Server.Submit
import DistributedRL.Worker.LocalUpdate
import DistributedRL.Worker.Members

/-!
# Healthy runs

Runs of a fixed group of workers in which no thread of the server raises: nobody hangs up or is
marked DEAD, what is sent fits into a frame, and the checkpoints can be written. No thread leaves
its loop, and a request that has been sent is being worked on until its answer can be read.
-/

namespace DistributedRL

variable {α : Type*}

/-- The thread has left its loop. -/
def Handler.Quit : Handler α → Bool
  | .markDead | .unregister | .close | .done => true
  | _ => false

/-- What the server may have to send next fits into a frame. -/
structure System.FramesFit (env : ServerEnv α) (s : System α) : Prop where
  weights : ∃ bytes, frame env.pickle (.weightsResponse s.store.weights) = .ok bytes
  ack : ∃ bytes, frame env.pickle (.ack s.store.globalStep) = .ok bytes
  heartbeatAck : ∃ bytes, frame env.pickle .heartbeatAck = .ok bytes

/-- The condition on one step of the cluster that no save raises. -/
def Cluster.SaveSucceeds (s : Cluster α) : ClusterAction α → Prop
  | .server a => s.sys.SaveSucceeds a
  | _ => True

/-- The condition on one step: nobody hangs up or is marked DEAD, the members have all registered
before one of them pushes what it has trained, and nothing raises that the code cannot help. -/
structure Cluster.Healthy [Scalar α] (env : ServerEnv α) (members : Finset ConnId) (s : Cluster α)
    (a : ClusterAction α) (s' : Cluster α) : Prop where
  steady : s.Steady a s'
  trains : s.Trains members a
  saves : s.SaveSucceeds a
  fits : s.sys.FramesFit env

/-- The request of the worker of `d` waits in the inbox or in the buffer, is in the hands of its
thread, is being answered, or has been answered. -/
def Cluster.Pending (ids : ConnId → WorkerId) (s : Cluster α) (d : ConnId) : Prop :=
  (s.sys.conns d).inbox ≠ [] ∨ (s.sys.conns d).handler.held ≠ none ∨
    s.sys.agg.buffer.get? (ids d) ≠ none ∨ (∃ t, (s.sys.conns t).handler.talk t d ≠ none) ∨
    splitFrame (s.unread d) ≠ none

namespace System

variable {env : ServerEnv α} {s : System α} {c d : ConnId}

lemma quit_exit : (s.exit c).Quit := by
  rcases s.exit_cases c with h | h <;> rw [h] <;> rfl

lemma quit_replying_of_fits {resp : Response α}
    (h : ∃ bytes, frame env.pickle resp = .ok bytes) : (s.replying env c resp).Quit = false := by
  obtain ⟨bytes, hb⟩ := h
  simp only [replying, hb]
  rfl

lemma quit_acking_of_fits {r : Round α} {step : ℕ}
    (h : ∃ bytes, frame env.pickle (.ack step) = .ok bytes) (todo : List ConnId) :
    (s.acking env c r step todo).Quit = false := by
  obtain ⟨bytes, hb⟩ := h
  cases todo with
  | nil => rfl
  | cons d todo => simp only [acking, hb]; rfl

/-- A thread that replies and does not quit has something in hand for its worker. -/
lemma talk_replying_of_quit {resp : Response α} (h : (s.replying env c resp).Quit = false) :
    (s.replying env c resp).talk c c ≠ none := by
  rcases s.replying_cases c env resp with ⟨bytes, -, he⟩ | he
  · simp [he]
  · rw [he, quit_exit] at h
    cases h

/-- A thread that goes on with the ACK loop and does not quit has something in hand for whoever is
left. -/
lemma talk_acking_of_quit {r : Round α} {step : ℕ} {todo : List ConnId}
    (h : (s.acking env c r step todo).Quit = false) (hd : d ∈ todo) :
    (s.acking env c r step todo).talk c d ≠ none := by
  rcases s.acking_cases c env r step todo with ⟨rfl, -⟩ | ⟨-, bytes, -, he⟩ | he
  · cases hd
  · rw [he]
    exact Handler.talk_of_owed hd
  · rw [he, quit_exit] at h
    cases h

@[simp] lemma exit_ne_acks (s : System α) (c : ConnId) (r : Round α) (step : ℕ)
    (todo : List ConnId) (rest : List UInt8) : s.exit c ≠ .acks r step todo rest := by
  rcases s.exit_cases c with h | h <;> simp [h]

@[simp] lemma replying_ne_acks (s : System α) (c : ConnId) (resp : Response α) (r : Round α)
    (step : ℕ) (todo : List ConnId) (rest : List UInt8) :
    s.replying env c resp ≠ .acks r step todo rest := by
  rcases s.replying_cases c env resp with ⟨_, -, h⟩ | h <;> simp [h]

/-- The ACK loop goes on as long as an ACK is left. -/
lemma owing_acking {r r' : Round α} {step step' : ℕ} {todo todo' : List ConnId}
    {rest : List UInt8} (h : s.acking env c r step todo = .acks r' step' todo' rest) :
    todo' ≠ [] := by
  rcases s.acking_cases c env r step todo with ⟨-, he⟩ | ⟨hne, bytes, -, he⟩ | he
  · rw [he] at h
    cases h
  · rw [he] at h
    cases h
    exact hne
  · exact absurd (he.symm.trans h) (s.exit_ne_acks c r' step' todo' rest)

end System

namespace Cluster

variable [Scalar α] {env : ServerEnv α} {ids : ConnId → WorkerId} {s s' : Cluster α}
  {sys : System α} {a : ClusterAction α} {b : Action α} {c d t : ConnId}
  {members : Finset ConnId}

/-! ### What becomes of a request -/

lemma Pending.actor_inbox (h : (s.sys.conns d).inbox ≠ []) (hr : Rule env s.sys b sys)
    (ha : b.conn = some d) (hq : (sys.conns d).handler.Quit = false) :
    Pending ids { s with sys := sys } d := by
  cases hr <;> cases ha
  case unreadable => simp [System.quit_exit] at hq
  case anonymous => simp [Handler.Quit] at hq
  case identify => exact Or.inr (Or.inl (by simp [Handler.held]))
  case next => exact Or.inr (Or.inl (by simp [Handler.held]))
  case arrive => exact Or.inl (by simp)
  all_goals exact Or.inl (by simpa [System.heartbeat] using h)

/-- A message that has not been read is left alone or taken into the hands of its thread. -/
lemma Pending.inbox (h : (s.sys.conns d).inbox ≠ []) (hr : Rule env s.sys b sys)
    (hq : ∀ t, (sys.conns t).handler.Quit = false) : Pending ids { s with sys := sys } d := by
  by_cases ha : b.conn = some d
  · exact Pending.actor_inbox h hr ha (hq d)
  · exact Or.inl (by rw [hr.inbox_of_ne ha]; exact h)

lemma Pending.actor_held (hs : s.Sound env ids) (h : (s.sys.conns d).handler.held ≠ none)
    (hr : Rule env s.sys b sys) (ha : b.conn = some d)
    (hq : (sys.conns d).handler.Quit = false) : Pending ids { s with sys := sys } d := by
  cases hr <;> cases ha
  case arrive => exact Or.inr (Or.inl (by simpa using h))
  case hangup => exact Or.inr (Or.inl (by simpa using h))
  case register => exact Or.inr (Or.inl (by simp [Handler.held]))
  case registerSocket => exact Or.inr (Or.inl (by simp [Handler.held]))
  case beat => exact Or.inr (Or.inl (by simp [Handler.held]))
  case pull =>
    simp only [System.handler_goto, if_true] at hq
    exact Or.inr (Or.inr (Or.inr (Or.inl ⟨d, by simpa using System.talk_replying_of_quit hq⟩)))
  case heartbeat =>
    simp only [System.heartbeat, System.handler_goto, if_true] at hq
    exact Or.inr (Or.inr (Or.inr (Or.inl ⟨d, by
      simpa [System.heartbeat] using System.talk_replying_of_quit hq⟩)))
  case buffered now m w g norm ht hg hn hh hw hsub =>
    obtain rfl := hs.identity d w hw
    exact Or.inr (Or.inr (Or.inl (by simp)))
  case fired now m w g norm ht hg hn hh hw hsub =>
    have hd : d ∈ s.sys.agg.sockets.values :=
      Dict.mem_values_iff.mpr ⟨w, hs.seated d w hw (by rw [hh]; rfl)⟩
    exact Or.inr (Or.inr (Or.inr (Or.inl ⟨d, by simp [hd]⟩)))
  case ignored now m w ht ht' ht'' hh hw =>
    obtain ⟨q, -, rfl, -⟩ := (hs.stage d).of_held (m := m) (by simp only [System.view, hh]; rfl)
    cases q <;> contradiction
  case keyError => simp [System.quit_exit] at hq
  case raised => simp [System.quit_exit] at hq
  all_goals simp_all [Handler.held]

/-- A message in the hands of its thread stays there, enters the buffer or is being answered. -/
lemma Pending.held (hs : s.Sound env ids) (h : (s.sys.conns d).handler.held ≠ none)
    (hr : Rule env s.sys b sys) (hq : ∀ t, (sys.conns t).handler.Quit = false) :
    Pending ids { s with sys := sys } d := by
  by_cases ha : b.conn = some d
  · exact Pending.actor_held hs h hr ha (hq d)
  · exact Or.inr (Or.inl (by rw [hr.handler_of_ne ha]; exact h))

/-- A delta in the buffer stays there until its round is completed. -/
lemma Pending.buffered (hs : s.Sound env ids) (hids : Function.Injective ids)
    (h : s.sys.agg.buffer.get? (ids d) ≠ none) (hr : Rule env s.sys b sys)
    (hq : ∀ t, (sys.conns t).handler.Quit = false) : Pending ids { s with sys := sys } d := by
  cases hr
  case raised c now m w g e hh hw ht hg hn =>
    have hqc := hq c
    simp [System.quit_exit] at hqc
  case unregister c now w hh hw =>
    have hqc := hq c
    simp [Handler.Quit] at hqc
  case buffered c now m w g norm hh hw ht hg hn hsub =>
    refine Or.inr (Or.inr (Or.inl ?_))
    by_cases hdw : ids d = w <;> simp [hdw, h]
  case fired c now m w g norm hh hw ht hg hn hsub =>
    obtain ⟨δ, hδ⟩ := Option.ne_none_iff_exists'.mp h
    have hd := hs.registered_of_entry hids hδ
    exact Or.inr (Or.inr (Or.inr (Or.inl ⟨c, by simp [hd]⟩)))
  all_goals exact Or.inr (Or.inr (Or.inl (by simpa [System.heartbeat] using h)))

/-- The bytes that complete a frame make it readable. -/
lemma Sound.split_of_talk (hs : s.Sound env ids) {m : Response α} {rest : List UInt8}
    (h : (s.sys.conns t).handler.talk t d = some (some (m, rest)))
    (hw : (sys.conns d).written = (s.sys.conns d).written ++ rest) :
    splitFrame (Cluster.unread { s with sys := sys } d) ≠ none := by
  obtain ⟨q, -, -, -, ⟨-, hframe, -⟩, -⟩ := (hs.stage d).of_talk (t := t) h
  have hread := splitFrame_append hframe []
  rw [List.append_nil] at hread
  rw [unread, hw, List.drop_append_of_le_length (hs.consumed d)]
  intro hnone
  exact absurd (hread.symm.trans hnone) (by simp)

lemma Pending.actor_talk (hs : s.Sound env ids)
    (hb : ∀ e ∈ (s.sys.conns t).handler.owed, ¬ s.sys.Broken e)
    (h : (s.sys.conns t).handler.talk t d ≠ none) (hr : Rule env s.sys b sys)
    (ha : b.conn = some t) (hq : (sys.conns t).handler.Quit = false) :
    Pending ids { s with sys := sys } d := by
  have htalk : ∀ {sys : System α}, (sys.conns t).handler.talk t d ≠ none →
      Pending ids { s with sys := sys } d := fun h => Or.inr (Or.inr (Or.inr (Or.inl ⟨t, h⟩)))
  have hsplit : ∀ {sys : System α} {m : Response α} {rest : List UInt8},
      (s.sys.conns t).handler.talk t d = some (some (m, rest)) →
      (sys.conns d).written = (s.sys.conns d).written ++ rest →
      Pending ids { s with sys := sys } d := fun h hw =>
    Or.inr (Or.inr (Or.inr (Or.inr (hs.split_of_talk h hw))))
  cases hr <;> cases ha
  case arrive => exact htalk (by simpa using h)
  case hangup => exact htalk (by simpa using h)
  case applied now r st hap hh => exact htalk (by simpa [hh] using h)
  case applyRaised => simp [System.quit_exit] at hq
  case getStep now r hh =>
    have hd : d ∈ r.sockets.values := by
      by_contra hd
      simp [hh, hd] at h
    rw [System.handler_goto, if_pos rfl] at hq
    exact htalk (by simpa using System.talk_acking_of_quit hq hd)
  case replyPart n resp rest hn hl hh hd => exact htalk (by simpa [hh] using h)
  case replyEnd resp rest hh hd =>
    obtain rfl : d = t := by
      by_contra hdt
      simp [hh, hdt] at h
    exact @hsplit _ resp rest (by simp [hh]) (by simp)
  case ackPart n r step e todo rest hd hn hl hh =>
    rw [hh, Handler.talk_acks] at h
    refine htalk ?_
    rw [System.handler_goto, if_pos rfl, Handler.talk_acks]
    split_ifs at h ⊢ <;> simp_all
  case ackEnd r step e todo rest hd hh =>
    by_cases hde : d = e
    · subst hde
      exact @hsplit _ (.ack step) rest (by simp [hh, Handler.talk_acks]) (by simp)
    · have hd : d ∈ todo := by
        by_contra hd
        simp [hh, Handler.talk_acks, hde, hd] at h
      rw [System.handler_goto, if_pos rfl] at hq
      exact htalk (by simpa using System.talk_acking_of_quit hq hd)
  case ackFail r step e todo rest hbr hh => exact absurd hbr (hb e (by simp [hh, Handler.owed]))
  case replyFail => simp [System.quit_exit] at hq
  all_goals simp_all [Handler.talk, Handler.writing, Handler.owed]

/-- Who is being answered goes on being answered, or has been. -/
lemma Pending.talk (hs : s.Sound env ids)
    (hb : ∀ e ∈ (s.sys.conns t).handler.owed, ¬ s.sys.Broken e)
    (h : (s.sys.conns t).handler.talk t d ≠ none) (hr : Rule env s.sys b sys)
    (hq : ∀ t, (sys.conns t).handler.Quit = false) : Pending ids { s with sys := sys } d := by
  by_cases ha : b.conn = some t
  · exact Pending.actor_talk hs hb h hr ha (hq t)
  · exact Or.inr (Or.inr (Or.inr (Or.inl ⟨t, by rw [hr.handler_of_ne ha]; exact h⟩)))

/-- An answer that can be read stays there until it is. -/
lemma Pending.split (hs : s.Sound env ids) (h : splitFrame (s.unread d) ≠ none)
    (hr : Rule env s.sys b sys) : Pending ids { s with sys := sys } d := by
  obtain ⟨⟨payload, rest⟩, hsplit⟩ := Option.ne_none_iff_exists'.mp h
  obtain ⟨-, -, -, -, -, -, hfree, -, -, ht⟩ := (hs.stage d).of_split hsplit
  refine Or.inr (Or.inr (Or.inr (Or.inr ?_)))
  rcases hr.written_of (d := d) with hw | hrep | ⟨t, r, step, todo, rest', hh⟩
  · rwa [unread, hw]
  · exact absurd (hrep.symm.trans (Handler.not_replying_of_free hfree)) (by simp)
  · have hnone := ht t
    simp [System.view, hh, Handler.talk_acks] at hnone

/-- No step of the server loses a request. -/
lemma Pending.server (hs : s.Sound env ids) (hids : Function.Injective ids)
    (hb : ∀ t, ∀ e ∈ (s.sys.conns t).handler.owed, ¬ s.sys.Broken e) (h : s.Pending ids d)
    (hr : Rule env s.sys b sys) (hq : ∀ t, (sys.conns t).handler.Quit = false) :
    Pending ids { s with sys := sys } d := by
  rcases h with h | h | h | ⟨t, h⟩ | h
  · exact Pending.inbox h hr hq
  · exact Pending.held hs h hr hq
  · exact Pending.buffered hs hids h hr hq
  · exact Pending.talk hs (hb t) h hr hq
  · exact Pending.split hs h hr

omit [Scalar α] in
/-- A request is looked for at the server and in what the worker has not read. -/
lemma Pending.congr (h : s.Pending ids d) (hsys : s'.sys = s.sys)
    (hc : (s'.clients d).consumed = (s.clients d).consumed) : s'.Pending ids d := by
  simpa only [Pending, unread, hsys, hc] using h

/-- While no thread quits and no ACK is dropped, no request is lost. -/
lemma pending_step (hs : s.Sound env ids) (hids : Function.Injective ids)
    (hb : ∀ t, ∀ e ∈ (s.sys.conns t).handler.owed, ¬ s.sys.Broken e)
    (h : ∀ d q, (s.clients d).phase = .waiting q → s.Pending ids d)
    (hstep : s.step env ids a = some s') (hk : ∀ c, a ≠ .leave c)
    (hq : ∀ t, (s'.sys.conns t).handler.Quit = false) {q : Request α}
    (hp : (s'.clients d).phase = .waiting q) : s'.Pending ids d := by
  cases rule_of_step hstep with
  | @connect c sys hph hsys =>
    by_cases hdc : d = c
    · subst hdc
      simp at hp
    · simp only [clients_setClient, hdc, if_false] at hp
      exact ((h d q hp).server hs hids hb (System.rule_of_step hsys) hq).congr rfl (by simp [hdc])
  | @request c q' sys hph hl hsys =>
    by_cases hdc : d = c
    · subst hdc
      have hr := System.rule_of_step hsys
      cases hr
      exact Or.inl (by simp)
    · simp only [clients_setClient, hdc, if_false] at hp
      exact ((h d q hp).server hs hids hb (System.rule_of_step hsys) hq).congr rfl (by simp [hdc])
  | @receive c q' payload rest hph hl hf =>
    by_cases hdc : d = c
    · subst hdc
      simp only [clients_setClient, if_true] at hp
      exact absurd hp (decode_ne_waiting _ _ _ _ _)
    · simp only [clients_setClient, hdc, if_false] at hp
      exact (h d q hp).congr rfl (by simp [hdc])
  | leave hph hsys => exact absurd rfl (hk _)
  | server hi hsys => exact (h d q hp).server hs hids hb (System.rule_of_step hsys) hq

/-! ### The invariant -/

/-- The invariant of healthy runs. -/
structure HealthyInv (ids : ConnId → WorkerId) (s : Cluster α) : Prop where
  running : ∀ t, (s.sys.conns t).handler.Quit = false
  owing : ∀ t r step todo rest, (s.sys.conns t).handler = .acks r step todo rest → todo ≠ []
  aligned : s.sys.store.Aligned
  stays : ∀ d, (s.clients d).left = false
  seats : ∀ w d, s.sys.agg.sockets.get? w = some d → (s.clients d).phase ≠ .away
  pending : ∀ d q, (s.clients d).phase = .waiting q → s.Pending ids d
  barrier : s.sys.BarrierInv

omit [Scalar α] in
lemma healthyInv_init (ids : ConnId → WorkerId) {st : WeightStore α} (hst : st.Aligned)
    (timeout : ℚ) : (init st timeout).HealthyInv ids where
  running _ := rfl
  owing _ _ _ _ _ h := by cases h
  aligned := hst
  stays _ := rfl
  seats _ _ h := by cases h
  pending _ _ h := by cases h
  barrier := Or.inr (Or.inl rfl)

/-- The deltas of a round that is about to be applied have the shapes of the weights. -/
lemma Synchronous.wellShaped (h : s.Synchronous env ids) (hg : s.GroupInv members) {r : Round α}
    {δ : Delta α} (hh : (s.sys.conns t).handler = .apply r) (hδ : δ ∈ r.deltas) :
    WellShaped s.sys.store.weights δ.grads := by
  obtain ⟨-, hid, step, g, hp, hgrads⟩ := h.tracked.pushes.pending t r hh δ hδ
  obtain ⟨-, w, model, hbase, hshapes, hdelta⟩ := hg.pushed δ.conn step g hp
  obtain rfl : w = s.sys.store.weights := by
    refine (h.fresh.base δ.conn w hbase).resolve_right ?_
    rintro ⟨-, -, -, hnp⟩
    exact hnp t ⟨r, hh, hid ▸ List.mem_map_of_mem hδ⟩
  rw [hgrads]
  exact wellShaped_weightDelta hshapes hdelta

/-- A round of a group goes through. -/
lemma Synchronous.applies (h : s.Synchronous env ids) (hg : s.GroupInv members)
    (hal : s.sys.store.Aligned) {r : Round α} (hh : (s.sys.conns t).handler = .apply r) :
    ∃ now, s.sys.store.applyGradients (r.deltas.map Delta.grads) = (now, .ok ()) := by
  obtain ⟨δ, hδ, -⟩ := h.tracked.deltas.pending_own t r hh
  have hne : r.deltas.map Delta.grads ≠ [] := List.ne_nil_of_mem (List.mem_map_of_mem hδ)
  obtain ⟨now, hok, -⟩ := WeightStore.applyGradients_wellShaped hal hne fun g hmem => by
    obtain ⟨ε, hε, rfl⟩ := List.mem_map.mp hmem
    exact h.wellShaped hg hh hε
  exact ⟨now, hok⟩

/-- Nothing raises in a thread of a healthy server. -/
lemma Synchronous.actor_running (h : s.Synchronous env ids) (hg : s.GroupInv members)
    (hi : s.HealthyInv ids) (hfits : s.sys.FramesFit env) (hsave : s.sys.SaveSucceeds b)
    (hr : Rule env s.sys b sys) (ha : b.conn = some t) :
    (sys.conns t).handler.Quit = false := by
  have hrun := hi.running t
  have hheld : ∀ {m : Message α}, (s.sys.conns t).handler.held = some m →
      ∃ q : Request α, m = q.message (ids t) := fun {m} hm => by
    obtain ⟨q, -, hq, -⟩ := (h.tracked.sound.stage t).of_held (m := m) hm
    exact ⟨q, hq⟩
  have hinbox : ∀ {x : Received α} {rest : List (Received α)},
      (s.sys.conns t).inbox = x :: rest → ∃ q : Request α, x = .message (q.message (ids t)) :=
    fun hx => by
      obtain ⟨q, -, hq, -⟩ := (h.tracked.sound.stage t).of_inbox hx
      exact ⟨q, hq⟩
  have hfit : ∀ {r step todo rest}, (s.sys.conns t).handler = .acks r step todo rest →
      ∃ bytes, frame env.pickle (.ack step) = .ok bytes := fun {r step todo rest} hh => by
    obtain ⟨d, hd⟩ := List.exists_mem_of_ne_nil _ (hi.owing t r step todo rest hh)
    exact (h.tracked.sound.ackReady h.tracked.pushes).fits t r step todo rest hh d hd
  cases hr <;> cases ha
  case unreadable now rest hh hx =>
    obtain ⟨q, hq⟩ := hinbox hx
    cases hq
  case anonymous now m rest hm hh hx hw =>
    obtain ⟨q, hq⟩ := hinbox hx
    cases hq
    cases q <;> cases hm
  case pull now m w ht hh hw =>
    simpa using System.quit_replying_of_fits hfits.weights
  case keyError now m w ht hgr hh hw =>
    obtain ⟨q, rfl⟩ := hheld (m := m) (by rw [hh]; rfl)
    cases q <;> cases ht
    cases hgr
  case raised now m w g e ht hgr hn hh hw =>
    obtain ⟨q, rfl⟩ := hheld (m := m) (by rw [hh]; rfl)
    cases q <;> cases ht
    cases hgr
    cases hn
  case heartbeat now m w hh hw =>
    simpa [System.heartbeat] using System.quit_replying_of_fits hfits.heartbeatAck
  case applyRaised now r st e hap hh =>
    obtain ⟨now, hok⟩ := h.applies hg hi.aligned hh
    rw [hok] at hap
    cases hap
  case getStep now r hh =>
    simp [System.quit_acking_of_fits hfits.ack]
  case ackEnd r step e todo rest hd hh =>
    simp [System.quit_acking_of_fits (hfit hh)]
  case ackFail r step e todo rest hbr hh =>
    simp [System.quit_acking_of_fits (hfit hh)]
  case checkpoint now step hh =>
    simp only [System.handler_goto, if_true]
    split_ifs <;> rfl
  case recvFail hh he => rw [h.steady.eof t] at he; cases he
  case replyFail resp rest hh he => rw [h.steady.eof t] at he; cases he
  case saveFail hh => exact absurd (by rw [hh]) hsave
  case arrive => simpa using hrun
  case hangup => simpa using hrun
  all_goals simp_all [Handler.Quit]

lemma Synchronous.running (h : s.Synchronous env ids) (hg : s.GroupInv members)
    (hi : s.HealthyInv ids) (hfits : s.sys.FramesFit env) (hsave : s.sys.SaveSucceeds b)
    (hr : Rule env s.sys b sys) (t : ConnId) : (sys.conns t).handler.Quit = false := by
  by_cases ha : b.conn = some t
  · exact h.actor_running hg hi hfits hsave hr ha
  · rw [hr.handler_of_ne ha]
    exact hi.running t

lemma HealthyInv.actor_owing (hi : s.HealthyInv ids) (hr : Rule env s.sys b sys)
    (ha : b.conn = some t) {r : Round α} {step : ℕ} {todo : List ConnId} {rest : List UInt8}
    (h : (sys.conns t).handler = .acks r step todo rest) : todo ≠ [] := by
  have hold := hi.owing t r step todo rest
  cases hr <;> cases ha
  case arrive => exact hold (by simpa using h)
  case hangup => exact hold (by simpa using h)
  case getStep now r' hh => exact System.owing_acking (by simpa using h)
  case ackEnd r' step' e todo' rest' hd hh => exact System.owing_acking (by simpa using h)
  case ackFail r' step' e todo' rest' hbr hh => exact System.owing_acking (by simpa using h)
  case ackPart n r' step' e todo' rest' hd hn hl hh =>
    rw [System.handler_goto, if_pos rfl] at h
    cases h
    exact List.cons_ne_nil _ _
  case checkpoint now step' hh =>
    simp only [System.handler_goto, if_true] at h
    split_ifs at h
  all_goals
    simp only [System.handler_goto, System.conns_setConn, System.heartbeat, if_true,
      System.exit_ne_acks, System.replying_ne_acks, reduceCtorEq] at h

lemma HealthyInv.owing_step (hi : s.HealthyInv ids) (hr : Rule env s.sys b sys) {r : Round α}
    {step : ℕ} {todo : List ConnId} {rest : List UInt8}
    (h : (sys.conns t).handler = .acks r step todo rest) : todo ≠ [] := by
  by_cases ha : b.conn = some t
  · exact hi.actor_owing hr ha h
  · exact hi.owing t r step todo rest (hr.handler_of_ne ha ▸ h)

/-- In synchronous mode, a healthy server keeps its barrier live. -/
lemma HealthyInv.keepsBarrier (hi : s.HealthyInv ids)
    (hsync : GradientAggregator.minReady env.config ≤ 0) (hr : Rule env s.sys b sys)
    (halive : ∀ w ∈ s.sys.hb.aliveWorkers, w ∈ sys.hb.aliveWorkers) :
    s.sys.KeepsBarrier env b := by
  cases b with
  | scan now =>
    cases hr
    rcases hi.barrier with hleave | hempty | ⟨w, hw⟩
    · exact Or.inl hleave
    · exact Or.inr (Or.inl hempty)
    · exact Or.inr (Or.inr ⟨w, hw, (HeartbeatMonitor.alive_scan.mp (halive w hw.2.1)).2⟩)
  | run c now =>
    simp only [System.KeepsBarrier]
    split
    · next w hh hw =>
      have hq := hi.running c
      rw [hh] at hq
      cases hq
    · next m w hh hw =>
      intro _ _ hpos
      exact absurd hpos (not_lt.mpr hsync)
    · trivial
  | _ => trivial

/-- A healthy step makes nobody hang up. -/
lemma left_step (hstep : s.step env ids a = some s') (hk : ∀ c, a ≠ .leave c)
    (h : (s.clients d).left = false) : (s'.clients d).left = false := by
  cases rule_of_step hstep with
  | @connect c sys hp hs => by_cases hdc : d = c <;> simp_all
  | @request c q sys hp hl hs => by_cases hdc : d = c <;> simp_all [Client.call]
  | @receive c q payload rest hp hl hf =>
    by_cases hdc : d = c
    · subst hdc
      simp only [clients_setClient, if_true, decode]
      split
      · next resp _ => cases q <;> cases resp <;> exact h
      · exact h
    · simpa [hdc] using h
  | leave hp hs => exact absurd rfl (hk _)
  | server hi hs => exact h

/-- Who is connected stays connected. -/
lemma present_step (hstep : s.step env ids a = some s') (h : (s.clients d).phase ≠ .away) :
    (s'.clients d).phase ≠ .away := by
  cases rule_of_step hstep with
  | @connect c sys hp hs => by_cases hdc : d = c <;> simp_all
  | @request c q sys hp hl hs => by_cases hdc : d = c <;> simp_all [Client.call]
  | @receive c q payload rest hp hl hf =>
    by_cases hdc : d = c
    · subst hdc
      simp only [clients_setClient, if_true, decode]
      split
      · next resp _ => cases q <;> cases resp <;> simp [Client.finish]
      · simp
    · simpa [hdc] using h
  | @leave c sys hp hs => by_cases hdc : d = c <;> simp_all
  | server hi hs => exact h

/-- Who is registered is connected. -/
lemma HealthyInv.seats_step (hi : s.HealthyInv ids) (hs : s.Sound env ids)
    (hstep : s.step env ids a = some s') {w : WorkerId}
    (h : s'.sys.agg.sockets.get? w = some d) : (s'.clients d).phase ≠ .away := by
  refine present_step hstep ?_
  rcases sys_of_step hstep with he | ⟨b, -, hb⟩
  · exact hi.seats w d (he ▸ h)
  have hr := System.rule_of_step hb
  clear hstep hb
  generalize s'.sys = sys at hr h
  cases hr
  case registerSocket c now m v hh hv =>
    simp only [System.agg_goto, GradientAggregator.get?_sockets_registerSocket] at h
    split_ifs at h
    · cases h
      obtain ⟨q, hp, -⟩ := (hs.stage d).of_held (m := m) (by simp only [System.view, hh]; rfl)
      have hp' : (s.clients d).phase = .waiting q := hp
      rw [hp']
      simp
    · exact hi.seats w d h
  case unregister c now v hh hv =>
    simp only [System.agg_goto, GradientAggregator.get?_sockets_unregister] at h
    split_ifs at h
    exact hi.seats w d h
  all_goals exact hi.seats w d h

lemma HealthyInv.step (hi : s.HealthyInv ids) (h : s.Synchronous env ids)
    (hg : s.GroupInv members) (hids : Function.Injective ids)
    (hsync : GradientAggregator.minReady env.config ≤ 0) (hstep : s.step env ids a = some s')
    (hk : s.Healthy env members a s') : s'.HealthyInv ids := by
  have hleave := hk.steady.1
  have hbroken : ∀ t, ∀ e ∈ (s.sys.conns t).handler.owed, ¬ s.sys.Broken e := fun t e he =>
    h.tracked.sound.not_broken h.steady (h.tracked.registered_of_owed hg he)
  have hrunning : ∀ t, (s'.sys.conns t).handler.Quit = false := by
    intro t
    rcases rule_of_sys hstep (covers_of_sync hsync h.steady a) with he | ⟨b, hr, -, hserver⟩
    · rw [he]
      exact hi.running t
    · refine h.running hg hi hk.fits ?_ hr t
      cases b with
      | fail c =>
        obtain ⟨rfl, -⟩ := hserver rfl
        exact hk.saves
      | _ => trivial
  refine {
    running := hrunning
    owing := ?owing
    aligned := ?aligned
    stays := fun d => left_step hstep hleave (hi.stays d)
    seats := fun w d hd => hi.seats_step h.tracked.sound hstep hd
    pending := fun d q hp =>
      pending_step h.tracked.sound hids hbroken hi.pending hstep hleave hrunning hp
    barrier := ?barrier }
  all_goals
    rcases rule_of_sys hstep (covers_of_sync hsync h.steady a) with he | ⟨b, hr, -, -⟩
    · rw [he]
      first | exact hi.owing | exact hi.aligned | exact hi.barrier
  case owing => exact fun t r step todo rest hh => hi.owing_step hr hh
  case aligned =>
    rcases hr.store_of with he | ⟨t, r, hst⟩
    · rw [he]
      exact hi.aligned
    · rw [hst.store]
      exact (WeightStore.applyGradients_spec _ hi.aligned).1
  case barrier => exact hr.barrierInv hi.barrier (hi.keepsBarrier hsync hr hk.steady.2)

/-- The invariants of healthy runs. -/
structure Sane (env : ServerEnv α) (ids : ConnId → WorkerId) (members : Finset ConnId)
    (s : Cluster α) : Prop where
  sync : s.Synchronous env ids
  group : s.GroupInv members
  healthy : s.HealthyInv ids

lemma sane_of_reach {st : WeightStore α} {timeout : ℚ} (hids : Function.Injective ids)
    (hp : env.pickle.Lawful) (hsync : GradientAggregator.minReady env.config ≤ 0)
    (hst : st.Aligned)
    (h : Reach (Cluster.step env ids) (fun s a s' => s.Healthy env members a s')
      (.init st timeout) s) : s.Sane env ids members := by
  have hgroup : ∀ {s}, Reach (Cluster.step env ids)
      (fun s a s' => s.Healthy env members a s') (.init st timeout) s →
      s.Synchronous env ids ∧ s.GroupInv members := fun hr =>
    group_of_reach hids hp hsync hr fun hk => ⟨hk.steady, hk.trains⟩
  obtain ⟨hs, hg⟩ := hgroup h
  refine ⟨hs, hg, h.invariant_reach (P := fun s => s.HealthyInv ids)
    (healthyInv_init ids hst timeout) ?_⟩
  intro s a s' hr hi hstep hk
  obtain ⟨hs, hg⟩ := hgroup hr
  exact hi.step hs hg hids hsync hstep hk

end Cluster

end DistributedRL
