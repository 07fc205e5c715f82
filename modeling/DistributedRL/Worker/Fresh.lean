import DistributedRL.Worker.Steady

/-!
# Workers that join

In synchronous mode a worker may join between the decision that a round is complete and its
application. It is stale if it pulls in between; otherwise every delta of every round has been
computed against the weights that the round is applied to.
-/

namespace DistributedRL

variable {α : Type*}

/-! ### Deltas from fresh weights -/

section

variable [Scalar α]

/-- The delta was computed from the weights `w`, by a worker that held them when it pushed. -/
def Cluster.ComputedFrom (s : Cluster α) (w : Weights α) (δ : Delta α) : Prop :=
  (δ.seq, some w) ∈ (s.clients δ.conn).bases ∧
    ∃ g model, δ.grads = .dict g ∧ weightDelta w model = .ok g

/-- A round that is about to be applied has been computed from the weights in the store. -/
def Cluster.Fresh (s : Cluster α) : Prop :=
  ∀ t r, (s.sys.conns t).handler = .apply r → ∀ δ ∈ r.deltas,
    s.ComputedFrom s.sys.store.weights δ

/-- A worker pushes the difference between the weights it has pulled and those of its model. -/
def Cluster.PushesTrained (s : Cluster α) : ClusterAction α → Prop
  | .request c (.pushGradients _ g) =>
    ∃ w model, (s.clients c).base = some w ∧ weightDelta w model = .ok g
  | _ => True

/-- The condition on one step: no pull is served while a round is about to be applied. -/
def Cluster.PullsApart (s : Cluster α) : ClusterAction α → Prop
  | .server (.run c _) => ∀ m, (s.sys.conns c).handler = .dispatch m → m.type = .pullWeights →
    ∀ t r, (s.sys.conns t).handler ≠ .apply r
  | _ => True

end

/-! ### Who is registered -/

section Rules

variable [Scalar α] {env : ServerEnv α} {s s' : System α} {a : Action α} {c d : ConnId}

/-- A connection is written to by its own thread, or by one that acknowledges a round. -/
lemma Rule.written_of (hr : Rule env s a s') : (s'.conns d).written = (s.conns d).written ∨
    (s.conns d).handler.Replying ∨
      ∃ t r step todo rest, (s.conns t).handler = .acks r step (d :: todo) rest := by
  cases hr
  case replyPart c n resp rest hh hd hn hl =>
    by_cases hdc : d = c
    · exact Or.inr (Or.inl (by rw [hdc, hh]; rfl))
    · exact Or.inl (by simp [hdc])
  case replyEnd c resp rest hh hd =>
    by_cases hdc : d = c
    · exact Or.inr (Or.inl (by rw [hdc, hh]; rfl))
    · exact Or.inl (by simp [hdc])
  case ackPart c n r step e todo rest hh hd hn hl =>
    by_cases hde : d = e
    · exact Or.inr (Or.inr ⟨c, r, step, todo, rest, hde ▸ hh⟩)
    · exact Or.inl (by simp [hde])
  case ackEnd c r step e todo rest hh hd =>
    by_cases hde : d = e
    · exact Or.inr (Or.inr ⟨c, r, step, todo, rest, hde ▸ hh⟩)
    · exact Or.inl (by simp [hde])
  case scan => exact Or.inl rfl
  all_goals
    left
    simp only [System.heartbeat, System.written_goto, System.written_reset, System.conns_setConn]
    try split_ifs with hdc <;> simp [hdc]

omit [Scalar α] in
lemma System.reply_of_replying {resp resp' : Response α} {rest : List UInt8}
    (h : s.replying env d resp = .reply resp' rest) : resp' = resp := by
  rcases s.replying_cases d env resp with ⟨_, -, he⟩ | he
  · rw [he] at h
    exact (Handler.reply.inj h).1.symm
  · rcases s.exit_cases d with he' | he' <;> rw [he, he'] at h <;> cases h

lemma Rule.actor_reply_of (hr : Rule env s a s') (ha : a.conn = some d) {w : Weights α}
    {rest : List UInt8} (h : (s'.conns d).handler = .reply (.weightsResponse w) rest) :
    (∃ rest', (s.conns d).handler = .reply (.weightsResponse w) rest') ∨
      ∃ now m, a = .run d now ∧ (s.conns d).handler = .dispatch m ∧ m.type = .pullWeights ∧
        w = s.store.weights := by
  have hreply : (s'.conns d).handler.Replying := by rw [h]; rfl
  cases hr <;> cases ha
  case arrive => exact Or.inl ⟨rest, by simpa using h⟩
  case hangup => exact Or.inl ⟨rest, by simpa using h⟩
  case pull now m v ht hh hv =>
    simp only [System.handler_goto, if_true] at h
    exact Or.inr ⟨now, m, rfl, hh, ht, Response.weightsResponse.inj (System.reply_of_replying h)⟩
  case heartbeat now m v hh hv =>
    simp only [System.heartbeat, System.handler_goto, if_true] at h
    cases System.reply_of_replying h
  case replyPart n resp rest' hn hl hh hd =>
    simp only [System.handler_goto, if_true, Handler.reply.injEq] at h
    exact Or.inl ⟨rest', by rw [hh, h.1]⟩
  case checkpoint now step hh =>
    simp only [System.handler_goto, if_true] at h
    split_ifs at h
  all_goals
    simp only [System.handler_goto, System.conns_setConn, if_true, System.replying_exit,
      System.replying_acking, Bool.false_eq_true] at hreply
    try cases hreply

/-- A thread starts to reply with weights where it serves a pull. -/
lemma Rule.reply_of (hr : Rule env s a s') {w : Weights α} {rest : List UInt8}
    (h : (s'.conns d).handler = .reply (.weightsResponse w) rest) :
    (∃ rest', (s.conns d).handler = .reply (.weightsResponse w) rest') ∨
      ∃ now m, a = .run d now ∧ (s.conns d).handler = .dispatch m ∧ m.type = .pullWeights ∧
        w = s.store.weights := by
  by_cases ha : a.conn = some d
  · exact hr.actor_reply_of ha h
  · exact Or.inl ⟨rest, hr.handler_of_ne ha ▸ h⟩

/-- A message that has been dealt with does not come to be in the buffer again. -/
lemma Rule.buffered_of_spent (hr : Rule env s a s') {i : ConnId × ℕ} (hi : s.Spent i)
    (h : s'.Buffered i) : s.Buffered i := by
  obtain ⟨w, δ, hδ, rfl⟩ := h
  rcases hr.entry_of hδ with hδ | ⟨c, g, hsub, rfl⟩
  · exact ⟨w, δ, hδ, rfl⟩
  · obtain ⟨m, hm, -⟩ := hsub.handler
    exact absurd hi (System.not_spent_delta hm g)

/-- It comes to be in a round from the buffer. -/
lemma Rule.pending_of_spent (hr : Rule env s a s') {t : ConnId} {i : ConnId × ℕ}
    (hi : s.Spent i) (h : s'.Pending t i) : s.Buffered i ∨ s.Pending t i := by
  obtain ⟨r, hh, hmem⟩ := h
  rcases hr.apply_of hh with hh | ⟨now, m, w, g, norm, -, hm, -, -, -, -, -, rfl⟩
  · exact Or.inr ⟨r, hh, hmem⟩
  · obtain ⟨δ, hδ, rfl⟩ := List.mem_map.mp hmem
    obtain ⟨v, hv⟩ := Dict.mem_values_iff.mp hδ
    rw [GradientAggregator.get?_buffer_enter] at hv
    split_ifs at hv
    · cases hv
      exact absurd hi (System.not_spent_delta hm g)
    · exact Or.inl ⟨v, δ, hv, rfl⟩

end Rules

/-! ### Who holds weights -/

namespace Cluster

variable [Scalar α] {env : ServerEnv α} {ids : ConnId → WorkerId} {s s' : Cluster α}
  {sys : System α} {a : ClusterAction α} {b : Action α} {c d t : ConnId} {w : Weights α}

/-- The weights `w` are on their way to a worker that has pulled. -/
def Flight (env : ServerEnv α) (s : Cluster α) (d : ConnId) (w : Weights α) : Prop :=
  (∃ rest, (s.sys.conns d).handler = .reply (.weightsResponse w) rest) ∨
    (s.clients d).phase = .waiting .pullWeights ∧ ∃ rest,
      splitFrame (s.unread d) = some (env.pickle.dumps (.weightsResponse w), rest)

/-- The push of a worker has been taken out of the buffer, and its round is no longer about to be
applied. -/
def Taken (s : Cluster α) (d : ConnId) : Prop :=
  (∃ step g, (s.clients d).phase = .waiting (.pushGradients step g)) ∧
    s.sys.Spent (d, (s.clients d).sent) ∧ ¬ s.sys.Buffered (d, (s.clients d).sent) ∧
    ∀ t, ¬ s.sys.Pending t (d, (s.clients d).sent)

/-- Only registered workers hold weights, and those who push hold what they have trained from. -/
structure JoinInv (s : Cluster α) : Prop where
  joined : ∀ d, d ∉ s.sys.agg.sockets.values →
    (s.sys.conns d).written = [] ∧ (s.clients d).base = none
  pushed : ∀ d step g, (s.clients d).phase = .waiting (.pushGradients step g) →
    ∃ w model, (s.clients d).base = some w ∧ weightDelta w model = .ok g ∧
      ((s.clients d).sent, some w) ∈ (s.clients d).bases

/-- Whoever holds weights, or is being sent some, has those of the store, or waits for the ACK of a
round that has been applied. -/
structure FreshInv (env : ServerEnv α) (s : Cluster α) : Prop where
  flight : ∀ d w, s.Flight env d w → w = s.sys.store.weights
  base : ∀ d w, (s.clients d).base = some w → w = s.sys.store.weights ∨ s.Taken d
  applying : ∀ t r, (s.sys.conns t).handler = .apply r →
    (∀ d w, (s.clients d).base = some w → d ∈ r.sockets.values) ∧ ∀ d w, ¬ s.Flight env d w

lemma joinInv_init (st : WeightStore α) (timeout : ℚ) : (init st timeout).JoinInv where
  joined _ _ := ⟨rfl, rfl⟩
  pushed _ _ _ h := by cases h

omit [Scalar α] in
lemma freshInv_init (env : ServerEnv α) (st : WeightStore α) (timeout : ℚ) :
    (init st timeout).FreshInv env where
  flight _ _ h := by
    rcases h with ⟨_, h⟩ | ⟨h, -⟩ <;> cases h
  base _ _ h := by cases h
  applying _ _ h := by cases h

/-- A worker holds weights if it did before, or has just read them. -/
lemma base_of (hstep : s.step env ids a = some s') (h : (s'.clients d).base = some w) :
    (s.clients d).base = some w ∨ s'.sys = s.sys ∧ (s.clients d).phase = .waiting .pullWeights ∧
      ∃ payload rest, splitFrame (s.unread d) = some (payload, rest) ∧
        env.pickle.loads payload = some (.weightsResponse w) := by
  have hsame : (s'.clients d).base = (s.clients d).base → (s.clients d).base = some w :=
    fun he => he ▸ h
  cases rule_of_step hstep with
  | @connect c sys hp hs =>
    refine Or.inl (hsame ?_)
    by_cases hdc : d = c <;> simp [hdc]
  | @request c q sys hp hl hs =>
    refine Or.inl (hsame ?_)
    by_cases hdc : d = c <;> simp [hdc, Client.call]
  | @receive c q payload rest hp hl hf =>
    by_cases hdc : d = c
    · subst hdc
      simp only [clients_setClient, if_true, decode] at h
      split at h
      · next resp hload =>
        cases q <;> cases resp <;> simp only [Client.finish, reduceCtorEq] at h <;>
          first | exact Or.inl h | skip
        exact Or.inr ⟨rfl, hp, payload, rest, hf, by rw [hload, Option.some.inj h]⟩
      · exact Or.inl h
    · exact Or.inl (hsame (by simp [hdc]))
  | @leave c sys hp hs =>
    refine Or.inl (hsame ?_)
    by_cases hdc : d = c <;> simp [hdc]
  | server hi hs => exact Or.inl h

/-- A worker that waits for an ACK goes on waiting, or lets go of its weights. -/
lemma Sound.pushing_of_base (hs : s.Sound env ids) (hp : env.pickle.Lawful)
    (hstep : s.step env ids a = some s') {step : ℕ} {g : Weights α}
    (hq : (s.clients d).phase = .waiting (.pushGradients step g))
    (h : (s'.clients d).base = some w) :
    (s'.clients d).phase = .waiting (.pushGradients step g) ∧
      (s'.clients d).sent = (s.clients d).sent := by
  cases rule_of_step hstep with
  | @connect c sys hph hs' =>
    by_cases hdc : d = c
    · subst hdc
      rw [hq] at hph
      cases hph
    · simpa [hdc] using hq
  | @request c q sys hph hl hs' =>
    by_cases hdc : d = c
    · subst hdc
      rw [hq] at hph
      cases hph
    · simpa [hdc] using hq
  | @receive c q payload rest hph hl hf =>
    by_cases hdc : d = c
    · subst hdc
      obtain rfl := Phase.waiting.inj (hph.symm.trans hq)
      obtain ⟨m, hm, -, -, hdec⟩ := hs.decode_of_split hp hph hf
      cases m with
      | ack k => simp [hdec, Client.finish] at h
      | weightsResponse w => cases hm
      | heartbeatAck => cases hm
    · simpa [hdc] using hq
  | @leave c sys hph hs' => by_cases hdc : d = c <;> simpa [hdc] using hq
  | server hi hs' => exact ⟨hq, rfl⟩

/-! ### The steps -/

/-- A worker that is being written to, or whose thread is past the registration, is registered. -/
lemma Sound.registered_of_held (hs : s.Sound env ids) (hsteady : s.sys.SteadyInv)
    (hn : (s.sys.conns d).handler.Nameless = false) (hseat : (s.sys.conns d).handler.Seated) :
    d ∈ s.sys.agg.sockets.values := by
  cases hw : (s.sys.conns d).workerId with
  | none =>
    rw [hsteady.nameless d hw] at hn
    cases hn
  | some w => exact Dict.mem_values_iff.mpr ⟨w, hs.seated d w hw hseat⟩

lemma JoinInv.step (h : s.JoinInv) (htr : s.Tracked env ids) (hsteady : s.sys.SteadyInv)
    (hids : Function.Injective ids) (hstep : s.step env ids a = some s')
    (htrain : s.PushesTrained a) : s'.JoinInv where
  joined d hd := by
    have hd₀ : d ∉ s.sys.agg.sockets.values := fun hmem =>
      hd (registered_step hids htr.sound hsteady hstep hmem)
    obtain ⟨hw, hbase⟩ := h.joined d hd₀
    constructor
    · rcases sys_of_step hstep with he | ⟨b, -, hb⟩
      · rw [he]; exact hw
      · rcases (System.rule_of_step hb).written_of (d := d) with
          he | hreply | ⟨t, r, step, todo, rest, hh⟩
        · rw [he]; exact hw
        · refine absurd (htr.sound.registered_of_held hsteady ?_ ?_) hd₀ <;>
            cases hh : (s.sys.conns d).handler <;> simp_all [Handler.Replying, Handler.Nameless,
              Handler.Seated]
        · obtain ⟨δ, -, -, step', g, hp, -⟩ := htr.pushes.owed t r (by rw [hh]; rfl) d
            (by simp [hh, Handler.owed])
          obtain ⟨w, -, hbw, -⟩ := h.pushed d step' g hp
          rw [hbase] at hbw
          cases hbw
    · by_contra hne
      obtain ⟨w, hbw⟩ := Option.ne_none_iff_exists'.mp hne
      rcases base_of hstep hbw with hold | ⟨-, -, payload, rest, hsplit, -⟩
      · rw [hbase] at hold
        cases hold
      · simp [unread, hw] at hsplit
  pushed d step g hp := by
    rcases waiting_of hstep hp with ⟨hold, l, hl⟩ | ⟨-, rfl, hcall⟩
    · rw [hl]
      exact h.pushed d step g hold
    · obtain ⟨w, model, hbase, hdelta⟩ := htrain
      rw [hcall]
      exact ⟨w, model, hbase, hdelta, by simp [Client.call, hbase]⟩

/-- The server writes only in steps of its own threads. -/
lemma written_or_server (hstep : s.step env ids a = some s') :
    (∀ d, (s'.sys.conns d).written = (s.sys.conns d).written) ∨
      ∃ b, a = .server b ∧ s'.clients = s.clients ∧ Rule env s.sys b s'.sys := by
  cases rule_of_step hstep with
  | connect hp hs => exact Or.inl ((System.rule_of_step hs).outside rfl).2.2.2.2
  | request hp hl hs => exact Or.inl ((System.rule_of_step hs).outside rfl).2.2.2.2
  | receive hp hl hf => exact Or.inl fun d => rfl
  | leave hp hs => exact Or.inl ((System.rule_of_step hs).outside rfl).2.2.2.2
  | server hi hs => exact Or.inr ⟨_, rfl, rfl, System.rule_of_step hs⟩

/-- Weights are on their way to a worker if they were before, or its thread has just served a
pull. -/
lemma Tracked.flight_of (htr : s.Tracked env ids) (hs' : s'.Sound env ids)
    (hp : env.pickle.Lawful) (hstep : s.step env ids a = some s') (h : s'.Flight env d w) :
    s.Flight env d w ∨ ∃ now m, a = .server (.run d now) ∧ (s.sys.conns d).handler = .dispatch m ∧
      m.type = .pullWeights ∧ w = s.sys.store.weights := by
  rcases h with ⟨rest, hh⟩ | ⟨hq, rest, hsplit⟩
  · rcases sys_of_step hstep with he | ⟨b, hon, hb⟩
    · exact Or.inl (Or.inl ⟨rest, he ▸ hh⟩)
    · rcases (System.rule_of_step hb).reply_of hh with hold | ⟨now, m, rfl, hm, ht, hw⟩
      · exact Or.inl (Or.inl hold)
      · refine Or.inr ⟨now, m, ?_, hm, ht, hw⟩
        cases a <;> cases hon
        rfl
  · rcases waiting_of hstep hq with ⟨hold, l, hl⟩ | ⟨hidle, -, hcall⟩
    · have hcons : (s'.clients d).consumed = (s.clients d).consumed := by rw [hl]
      rw [unread, hcons] at hsplit
      left
      rcases written_or_server hstep with hw | ⟨b, -, hcl, hr⟩
      · rw [hw] at hsplit
        exact Or.inr ⟨hold, rest, hsplit⟩
      · have hs'' : ({ s with sys := s'.sys } : Cluster α).Sound env ids := by
          rw [← hcl]
          exact hs'
        rcases htr.sound.readable_of hr hs'' hsplit with
          hw | ⟨resp, rest', hh, hpay⟩ | ⟨t, r, step, todo, rest', hack, -⟩
        · rw [hw] at hsplit
          exact Or.inr ⟨hold, rest, hsplit⟩
        · have hresp := congrArg env.pickle.loads hpay
          rw [hp, hp] at hresp
          cases hresp
          exact Or.inl ⟨rest', hh⟩
        · obtain ⟨δ, -, -, step', g, hpush, -⟩ :=
            htr.pushes.owed t r hack.acking d hack.mem_owed
          rw [hold] at hpush
          cases hpush
    · have hcons : (s'.clients d).consumed = (s.clients d).consumed := by rw [hcall]; rfl
      rcases written_or_server hstep with hw | ⟨b, -, hcl, -⟩
      · obtain ⟨-, -, hu, -⟩ := (htr.sound.stage d).of_idle hidle
        rw [unread, hw, hcons] at hsplit
        exact absurd ((congrArg splitFrame hu).symm.trans hsplit) (by simp)
      · rw [hcl, hidle] at hq
        cases hq

lemma Taken.step (h : s.Taken d) (htr : s.Tracked env ids) (hp : env.pickle.Lawful)
    (hstep : s.step env ids a = some s') (hbase : (s'.clients d).base = some w) :
    s'.Taken d := by
  obtain ⟨⟨step, g, hq⟩, hspent, hnb, hnp⟩ := h
  obtain ⟨hq', hsent⟩ := htr.sound.pushing_of_base hp hstep hq hbase
  rw [Taken, hsent]
  rcases sys_of_step hstep with he | ⟨b, -, hb⟩
  · rw [he]
    exact ⟨⟨step, g, hq'⟩, hspent, hnb, hnp⟩
  · have hr := System.rule_of_step hb
    exact ⟨⟨step, g, hq'⟩, hr.spent hspent, fun h => hnb (hr.buffered_of_spent hspent h),
      fun t h => (hr.pending_of_spent hspent h).elim hnb (hnp t)⟩

/-- The workers whose deltas are in a round lose nothing by its application: their pushes have been
taken. -/
lemma Tracked.taken_of_stores (htr : s.Tracked env ids) {r : Round α}
    (hr : Rule env s.sys b s'.sys) (hst : Rule.Stores s.sys b s'.sys t r)
    (hcl : s'.clients = s.clients) (hd : d ∈ r.sockets.values) : s'.Taken d := by
  obtain ⟨δ, hδ, rfl⟩ := htr.pushes.complete t r hst.handler d hd
  obtain ⟨-, hid, step, g, hq, -⟩ := htr.pushes.pending t r hst.handler δ hδ
  have hpend : s.sys.Pending t (δ.conn, (s.clients δ.conn).sent) :=
    ⟨r, hst.handler, hid ▸ List.mem_map_of_mem hδ⟩
  have hspent := htr.deltas.pending_spent t _ hpend
  rw [Taken, hcl]
  refine ⟨⟨step, g, hq⟩, hr.spent hspent, ?_, ?_⟩
  · intro hb
    exact htr.deltas.buffered_pending t _ (hr.buffered_of_spent hspent hb) hpend
  · intro u hu
    rcases hr.pending_of_spent hspent hu with hb | hold
    · exact htr.deltas.buffered_pending t _ hb hpend
    · obtain rfl := htr.deltas.pending_pending u t _ hold hpend
      obtain ⟨r', hr', -⟩ := hu
      exact hst.next r' hr'

/-- A worker on whom a round waits is not being sent weights, and has none on their way. -/
lemma Tracked.not_flight_of_fires (htr : s.Tracked env ids) (hids : Function.Injective ids)
    (hsteady : s.sys.SteadyInv) (hjoin : s.JoinInv) {now : ℚ} {m : Message α} {v : WorkerId}
    (hk : s.sys.Covers env (.run t now)) (hh : (s.sys.conns t).handler = .dispatch m)
    (hv : (s.sys.conns t).workerId = some v) (hf : s.sys.Fires env t v m) (d : ConnId)
    (w : Weights α) : ¬ s.Flight env d w := by
  intro hflight
  simp only [System.Covers, hh, hv] at hk
  by_cases hdt : d = t
  · subst hdt
    rcases hflight with ⟨rest, hreply⟩ | ⟨hq, -⟩
    · rw [hh] at hreply
      cases hreply
    · obtain ⟨q, hq', rfl, -⟩ := (htr.sound.stage d).of_held (m := m)
        (by simp only [System.view, hh]; rfl)
      obtain rfl := Phase.waiting.inj (hq'.symm.trans hq)
      cases hf.1
  · have hmem : d ∈ s.sys.agg.sockets.values := by
      rcases hflight with ⟨rest, hreply⟩ | ⟨-, rest, hsplit⟩
      · exact htr.sound.registered_of_held hsteady (by rw [hreply]; rfl) (by rw [hreply]; rfl)
      · by_contra hne
        simp [unread, (hjoin.joined d hne).1] at hsplit
    obtain ⟨δ, hδ⟩ := htr.sound.entry_of_registered hv (hk hf) hids hmem hdt
    obtain ⟨q, hq, hpush, hpark, -⟩ := (htr.sound.stage d).of_entry hδ
    rcases hflight with ⟨rest, hreply⟩ | ⟨hq', -⟩
    · simp only [System.view, hreply] at hpark
      cases hpark
    · obtain rfl := Phase.waiting.inj (hq.symm.trans hq')
      cases hpush

/-- A round that is about to be applied is an old one, or it has just been completed and every
registered worker waits for it. -/
lemma apply_of_step (hk : s.Covers env a) (hstep : s.step env ids a = some s') {r : Round α}
    (hh : (s'.sys.conns t).handler = .apply r) :
    (s.sys.conns t).handler = .apply r ∨ ∃ now m v, a = .server (.run t now) ∧
      s'.clients = s.clients ∧ (s.sys.conns t).handler = .dispatch m ∧
      (s.sys.conns t).workerId = some v ∧ s.sys.Fires env t v m ∧
      r.sockets = s.sys.agg.sockets := by
  rcases rule_of_sys hstep hk with he | ⟨b, hr, -, hcl⟩
  · exact Or.inl (he ▸ hh)
  · refine (hr.apply_of hh).imp_right ?_
    rintro ⟨now, m, v, g, norm, rfl, hm, hv, ht, hg, hn, hf, rfl⟩
    exact ⟨now, m, v, (hcl rfl).1, (hcl rfl).2, hm, hv, ⟨ht, g, norm, hg, hn, hf⟩, rfl⟩

/-- The store changes by the application of a round only. -/
lemma stores_of_step (hk : s.Covers env a) (hstep : s.step env ids a = some s') :
    s'.sys.store = s.sys.store ∨ ∃ b t r, Rule env s.sys b s'.sys ∧
      Rule.Stores s.sys b s'.sys t r ∧ s'.clients = s.clients := by
  rcases rule_of_sys hstep hk with he | ⟨b, hr, -, hcl⟩
  · exact Or.inl (by rw [he])
  · refine hr.store_of.imp_right fun ⟨t, r, hst⟩ => ⟨b, t, r, hr, hst, ?_⟩
    obtain ⟨now, rfl⟩ := hst.action
    exact (hcl rfl).2

/-- What the worker reads next has been on its way. -/
lemma Tracked.flight_of_split (htr : s.Tracked env ids) (hp : env.pickle.Lawful)
    {payload rest : List UInt8} (hq : (s.clients d).phase = .waiting .pullWeights)
    (hsplit : splitFrame (s.unread d) = some (payload, rest))
    (hload : env.pickle.loads payload = some (.weightsResponse w)) : s.Flight env d w := by
  obtain ⟨m, -, rfl, -⟩ := htr.sound.decode_of_split hp hq hsplit
  rw [hp] at hload
  cases hload
  exact Or.inr ⟨hq, rest, hsplit⟩

/-- A steady step keeps the workers fresh if it serves no pull between a round and its
application. -/
lemma FreshInv.step (h : s.FreshInv env) (htr : s.Tracked env ids) (hsteady : s.sys.SteadyInv)
    (hjoin : s.JoinInv) (hs' : s'.Sound env ids) (hids : Function.Injective ids)
    (hp : env.pickle.Lawful) (hk : s.Covers env a) (hstep : s.step env ids a = some s')
    (hpull : s.PullsApart a) : s'.FreshInv env := by
  have hstore := stores_of_step hk hstep
  have hflight := fun d w => htr.flight_of (d := d) (w := w) hs' hp hstep
  refine {
    flight := ?flight
    base := ?base
    applying := fun t r hh => ⟨?holders, ?flights⟩ }
  case flight =>
    intro d w hw
    rcases hstore with he | ⟨b, t, r, -, hst, -⟩
    · rw [he]
      rcases hflight d w hw with hold | ⟨_, _, -, -, -, heq⟩
      · exact h.flight d w hold
      · exact heq
    · rcases hflight d w hw with hold | ⟨now, m, rfl, hm, ht, -⟩
      · exact absurd hold ((h.applying t r hst.handler).2 d w)
      · exact absurd hst.handler (hpull m hm ht t r)
  case base =>
    intro d w hw
    rcases base_of hstep hw with hold | ⟨he, hq, payload, rest, hsplit, hload⟩
    · rcases h.base d w hold with heq | htaken
      · rcases hstore with he | ⟨b, t, r, hr, hst, hcl⟩
        · exact Or.inl (he ▸ heq)
        · exact Or.inr (htr.taken_of_stores hr hst hcl ((h.applying t r hst.handler).1 d w hold))
      · exact Or.inr (htaken.step htr hp hstep hw)
    · exact Or.inl (he ▸ h.flight d w (htr.flight_of_split hp hq hsplit hload))
  case holders =>
    intro d w hw
    rcases apply_of_step hk hstep hh with hold | ⟨now, m, v, -, hcl, hm, hv, hf, hsock⟩
    · rcases base_of hstep hw with hbase | ⟨-, hq, payload, rest, hsplit, hload⟩
      · exact (h.applying t r hold).1 d w hbase
      · exact absurd (htr.flight_of_split hp hq hsplit hload) ((h.applying t r hold).2 d w)
    · rw [hsock]
      by_contra hne
      rw [hcl, (hjoin.joined d hne).2] at hw
      cases hw
  case flights =>
    intro d w hw
    rcases apply_of_step hk hstep hh with hold | ⟨now, m, v, rfl, -, hm, hv, hf, -⟩
    · rcases hflight d w hw with hbefore | ⟨now, m, rfl, hm, ht, -⟩
      · exact (h.applying t r hold).2 d w hbefore
      · exact hpull m hm ht t r hold
    · rcases hflight d w hw with hbefore | ⟨now', m', ha, hm', ht', -⟩
      · have hcov : s.sys.Covers env (.run t now) := hk
        exact htr.not_flight_of_fires hids hsteady hjoin hcov hm hv hf d w hbefore
      · cases ha
        rw [hm] at hm'
        cases hm'
        rw [hf.1] at ht'
        cases ht'

/-- The invariants of steady runs in synchronous mode whose pulls are kept apart from the rounds
that are about to be applied. -/
structure Synchronous (env : ServerEnv α) (ids : ConnId → WorkerId) (s : Cluster α) : Prop where
  tracked : s.Tracked env ids
  steady : s.sys.SteadyInv
  join : s.JoinInv
  fresh : s.FreshInv env

lemma synchronous_of_reach {ok : Cluster α → ClusterAction α → Cluster α → Prop}
    {st : WeightStore α} {timeout : ℚ} (hids : Function.Injective ids) (hp : env.pickle.Lawful)
    (hsync : GradientAggregator.minReady env.config ≤ 0)
    (h : Reach (Cluster.step env ids) ok (.init st timeout) s)
    (hok : ∀ {s a s'}, ok s a s' → s.Steady a s' ∧ s.PushesTrained a ∧ s.PullsApart a) :
    s.Synchronous env ids := by
  refine h.invariant (P := fun s => s.Synchronous env ids)
    ⟨tracked_init env ids st timeout, System.steadyInv_init st timeout, joinInv_init st timeout,
      freshInv_init env st timeout⟩ ?_
  rintro s a s' ⟨htr, hsteady, hjoin, hfresh⟩ hstep hk
  obtain ⟨hkeep, htrain, hpull⟩ := hok hk
  have hcov := covers_of_sync hsync hsteady a
  have htr' := htr.step hids hp hstep hcov
  exact ⟨htr', steadyInv_step htr.sound hsteady hstep hkeep,
    hjoin.step htr hsteady hids hstep htrain,
    hfresh.step htr hsteady hjoin htr'.sound hids hp hcov hstep hpull⟩

/-- The weights that a pusher holds are those of the store when its round is about to be applied. -/
lemma Synchronous.computedFrom (h : s.Synchronous env ids) {r : Round α} {δ : Delta α}
    (hh : (s.sys.conns t).handler = .apply r) (hδ : δ ∈ r.deltas) :
    s.ComputedFrom s.sys.store.weights δ := by
  obtain ⟨-, hid, step, g, hq, hg⟩ := h.tracked.pushes.pending t r hh δ hδ
  obtain ⟨w, model, hbase, hdelta, hmem⟩ := h.join.pushed δ.conn step g hq
  have hw : w = s.sys.store.weights := by
    rcases h.fresh.base δ.conn w hbase with hw | ⟨-, -, -, hnp⟩
    · exact hw
    · exact absurd ⟨r, hh, hid ▸ List.mem_map_of_mem hδ⟩ (hnp t)
  obtain rfl := hw
  have hseq : δ.seq = (s.clients δ.conn).sent := congrArg Prod.snd hid
  exact ⟨by rw [hseq]; exact hmem, g, model, hg, hdelta⟩

end Cluster

variable [Scalar α] {env : ServerEnv α} {ids : ConnId → WorkerId} {s : Cluster α}

/-- In every synchronous run in which nobody hangs up or is marked DEAD, and no pull is served
between the decision that a round is complete and its application. -/
theorem joins_fresh {st : WeightStore α} {timeout : ℚ} (hids : Function.Injective ids)
    (hp : env.pickle.Lawful) (hsync : GradientAggregator.minReady env.config ≤ 0)
    (h : Reach (Cluster.step env ids)
      (fun s a s' => s.Steady a s' ∧ s.PushesTrained a ∧ s.PullsApart a) (.init st timeout) s) :
    s.Fresh := fun _ _ hh _ hδ =>
  (Cluster.synchronous_of_reach hids hp hsync h id).computedFrom hh hδ

/-! ### Two runs -/

namespace Scenario

/-- Worker `0` completes a round; worker `1` joins and pulls before the round is applied, and then
pushes into the next one. -/
def joinsBetween : List (ClusterAction ℚ) :=
  pulls 0 0 ++ calls 0 (push 1) ++ runs 0 1 ++ pulls 1 0 ++ runs 0 2 ++ sends 0 0 (.ack 1) ++
    runs 0 2 ++ calls 1 (push 2) ++ runs 1 1 ++ calls 0 .pullWeights ++ runs 0 1 ++
    sends 0 0 (.weightsResponse (single (-1))) ++ calls 0 (push 3) ++ runs 0 1

/-- Worker `1` joins when the round of worker `0` has been applied. -/
def joinsAfter : List (ClusterAction ℚ) :=
  pulls 0 0 ++ calls 0 (push 1) ++ runs 0 3 ++ sends 0 0 (.ack 1) ++ runs 0 2 ++ pulls 1 (-1) ++
    calls 1 (push 2) ++ runs 1 1 ++ calls 0 .pullWeights ++ runs 0 1 ++
    sends 0 0 (.weightsResponse (single (-1))) ++ calls 0 (push 3) ++ runs 0 1

/-- A check that implies `Steady`. -/
def steady (s : Cluster ℚ) (a : ClusterAction ℚ) (s' : Cluster ℚ) : Bool :=
  (match a with | .leave _ => false | _ => true) &&
    decide (∀ w ∈ s.sys.hb.aliveWorkers, w ∈ s'.sys.hb.aliveWorkers)

lemma steady_sound {s s' : Cluster ℚ} {a : ClusterAction ℚ} (h : steady s a s' = true) :
    s.Steady a s' := by
  obtain ⟨ha, hw⟩ := Bool.and_eq_true_iff.mp h
  refine ⟨?_, of_decide_eq_true hw⟩
  intro c hc
  rw [hc] at ha
  cases ha

/-- A check that implies `PushesTrained`: the model is the base less the delta. -/
def pushesTrained (s : Cluster ℚ) : ClusterAction ℚ → Bool
  | .request c (.pushGradients _ g) => (s.clients c).base.any fun w =>
    (weightDelta w g).toOption.any fun model => (weightDelta w model).toOption = some g
  | _ => true

lemma pushesTrained_sound {s : Cluster ℚ} {a : ClusterAction ℚ} (h : pushesTrained s a = true) :
    s.PushesTrained a := by
  cases a with
  | request c q =>
    cases q with
    | pushGradients step g =>
      obtain ⟨w, hw, h⟩ := (Option.any_eq_true _ _).mp h
      obtain ⟨model, -, h⟩ := (Option.any_eq_true _ _).mp h
      refine ⟨w, model, hw, ?_⟩
      cases hd : weightDelta w model with
      | ok d => simpa [hd, Except.toOption] using h
      | error e => simp [hd, Except.toOption] at h
    | _ => trivial
  | _ => trivial

/-- The thread serves a pull. -/
def pulling : Handler ℚ → Bool
  | .dispatch m => m.type = .pullWeights
  | _ => false

/-- The thread is about to apply a round. -/
def applying : Handler ℚ → Bool
  | .apply _ => true
  | _ => false

/-- A check that implies `PullsApart` in a run of the first two workers. -/
def pullsApart (s : Cluster ℚ) : ClusterAction ℚ → Bool
  | .server (.run c _) =>
    !pulling (s.sys.conns c).handler ||
      !(applying (s.sys.conns 0).handler || applying (s.sys.conns 1).handler)
  | _ => true

lemma pullsApart_sound {s : Cluster ℚ} {a : ClusterAction ℚ} (h : pullsApart s a = true)
    (habs : ∀ t, ¬ t < 2 → (s.sys.conns t).handler = .absent) : s.PullsApart a := by
  cases a with
  | server b =>
    cases b with
    | run c now =>
      intro m hm ht t r hh
      have happ : applying (s.sys.conns 0).handler = false ∧
          applying (s.sys.conns 1).handler = false := by
        simpa [pullsApart, hm, pulling, ht] using h
      match t with
      | 0 => simp [hh, applying] at happ
      | 1 => simp [hh, applying] at happ
      | t + 2 => rw [habs (t + 2) (by simp)] at hh; cases hh
    | _ => trivial
  | _ => trivial

/-- The deltas of the round that a thread is about to apply. -/
def pendingDeltas : Handler ℚ → List (Delta ℚ)
  | .apply r => r.deltas
  | _ => []

lemma exists_apply {h : Handler ℚ} {δ : Delta ℚ} (hδ : δ ∈ pendingDeltas h) :
    ∃ r, h = .apply r ∧ δ ∈ r.deltas := by
  cases h <;> first | exact ⟨_, rfl, hδ⟩ | cases hδ

end Scenario

open Scenario

/-- The delta of worker `1` was computed from the weights before the round of worker `0`. -/
theorem joiner_stale :
    ∃ s, Reach (Cluster.step (wireEnv 0) ownId)
        (fun s a s' => s.Steady a s' ∧ s.PushesTrained a) idle s ∧ ¬ s.Fresh := by
  obtain ⟨s, hreach, hstale⟩ := Reach.of_script (Cluster.step (wireEnv 0) ownId)
    (fun s a s' => s.Steady a s' ∧ s.PushesTrained a) idle joinsBetween
    (fun s a s' => steady s a s' && pushesTrained s a)
    (fun s a s' h => ⟨steady_sound (Bool.and_eq_true_iff.mp h).1,
      pushesTrained_sound (Bool.and_eq_true_iff.mp h).2⟩)
    (fun s : Cluster ℚ => ∃ δ ∈ pendingDeltas (s.sys.conns 0).handler,
      (δ.seq, some s.sys.store.weights) ∉ (s.clients δ.conn).bases)
    (by decide +kernel)
  obtain ⟨δ, hδ, hbase⟩ := hstale
  obtain ⟨r, hh, hmem⟩ := exists_apply hδ
  exact ⟨s, hreach, fun h => hbase (h 0 r hh δ hmem).1⟩

/-- The round of both workers is computed from the weights that worker `1` joined at. -/
theorem joins_fresh_after :
    ∃ s, Reach (Cluster.step (wireEnv 0) ownId)
        (fun s a s' => s.Steady a s' ∧ s.PushesTrained a ∧ s.PullsApart a) idle s ∧
      (pendingDeltas (s.sys.conns 0).handler).map Delta.conn = [1, 0] ∧
      s.sys.store.weights = single (-1) ∧ s.Fresh := by
  obtain ⟨s, hreach, hconns, hweights⟩ := Reach.of_script (Cluster.step (wireEnv 0) ownId)
    (fun s a s' => (steady s a s' && pushesTrained s a && pullsApart s a) = true ∧
      ((a.onServer ownId).all fun b => b.below 2) = true) idle joinsAfter
    (fun s a s' => (steady s a s' && pushesTrained s a && pullsApart s a) &&
      (a.onServer ownId).all fun b => b.below 2)
    (fun s a s' h => Bool.and_eq_true_iff.mp h)
    (fun s : Cluster ℚ => (pendingDeltas (s.sys.conns 0).handler).map Delta.conn = [1, 0] ∧
      s.sys.store.weights = single (-1))
    (by decide +kernel)
  have hrun : Reach (Cluster.step (wireEnv 0) ownId)
      (fun s a s' => s.Steady a s' ∧ s.PushesTrained a ∧ s.PullsApart a) idle s := by
    refine hreach.mono_of (P := fun s => ∀ t, ¬ t < 2 → (s.sys.conns t).handler = .absent)
      (fun hr t ht => Cluster.absent_of_scripted hr (fun h => h.2) ht) ?_
    rintro s a s' habs - ⟨hcheck, -⟩
    simp only [Bool.and_eq_true_iff] at hcheck
    exact ⟨steady_sound hcheck.1.1, pushesTrained_sound hcheck.1.2,
      pullsApart_sound hcheck.2 habs⟩
  exact ⟨s, hrun, hconns, hweights,
    joins_fresh ownId_injective (wireEnv_lawful 0) (by decide) hrun⟩

end DistributedRL
