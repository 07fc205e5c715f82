import DistributedRL.Worker.Covered

/-!
# What becomes of a push

As long as a worker waits for the ACK of a push, the delta of that push is in the buffer, or in a
round whose thread owes the worker an ACK; and what is found there is the delta of its last request.
-/

namespace DistributedRL

variable {α : Type*}

/-- The round that the thread has applied and is acknowledging. -/
def Handler.acking : Handler α → Option (Round α)
  | .getStep r | .acks r _ _ _ => some r
  | _ => none

/-- The worker on `d` waits for the ACK of the push that carried `δ`. -/
def Client.Pushing (k : Client α) (d : ConnId) (δ : Delta α) : Prop :=
  δ.id = (d, k.sent) ∧ ∃ step g, k.phase = .waiting (.pushGradients step g) ∧ δ.grads = .dict g

/-! ### How rounds and entries come about -/

section Rules

variable [Scalar α] {env : ServerEnv α} {s s' : System α} {a : Action α} {t d : ConnId}
  {r : Round α} {w : WorkerId} {δ : Delta α}

/-- A thread submits a delta. -/
structure System.Submits (s : System α) (a : Action α) (c : ConnId)
    (w : WorkerId) (g : Payload α) : Prop where
  action : ∃ now, a = .run c now
  handler : ∃ m, (s.conns c).handler = .dispatch m ∧ m.type = .pushGradients ∧ m.gradients = some g
  workerId : (s.conns c).workerId = some w

/-- The thread of `t` applies the round `r`, with the store `st` as the result. -/
structure Rule.Applies (s : System α) (a : Action α) (s' : System α) (t : ConnId) (r : Round α) :
    Prop where
  action : ∃ now, a = .run t now
  handler : (s.conns t).handler = .apply r
  apply : s.store.applyGradients (r.deltas.map Delta.grads) = (s'.store, .ok ())
  next : (s'.conns t).handler = .getStep r
  history : s'.history = s.history.apply r s.store s'.store

omit [Scalar α] in
@[simp] lemma System.acking_exit (s : System α) (c : ConnId) : (s.exit c).acking = none := by
  rcases s.exit_cases c with h | h <;> rw [h] <;> rfl

omit [Scalar α] in
@[simp] lemma System.acking_replying (s : System α) (c : ConnId) (resp : Response α) :
    (s.replying env c resp).acking = none := by
  rcases s.replying_cases c env resp with ⟨_, -, h⟩ | h
  · rw [h]; rfl
  · rw [h, acking_exit]

omit [Scalar α] in
/-- The ACK loop keeps its round, and owes what is left of it. -/
lemma System.acking_acking {c : ConnId} {step : ℕ} {todo : List ConnId} {r' : Round α}
    (h : (s.acking env c r step todo).acking = some r') :
    r' = r ∧ (s.acking env c r step todo).owed = todo := by
  rcases s.acking_cases c env r step todo with ⟨-, he⟩ | ⟨-, _, -, he⟩ | he
  · rw [he] at h; cases h
  · rw [he] at h ⊢; exact ⟨(Option.some.inj h).symm, rfl⟩
  · rw [he, acking_exit] at h; cases h

lemma Rule.actor_acking_of (hr : Rule env s a s') (ha : a.conn = some t)
    (h : (s'.conns t).handler.acking = some r) :
    ((s.conns t).handler.acking = some r ∧
      ∀ d ∈ (s'.conns t).handler.owed, d ∈ (s.conns t).handler.owed) ∨
    Rule.Applies s a s' t r := by
  cases hr <;> cases ha
  case arrive => exact Or.inl (by simpa using h)
  case hangup => exact Or.inl (by simpa using h)
  case applied now r' st hap hh =>
    simp only [System.handler_goto, if_true, Handler.acking, Option.some.injEq] at h
    subst h
    exact Or.inr ⟨⟨now, rfl⟩, hh, hap, by simp, rfl⟩
  case getStep now r' hh =>
    simp only [System.handler_goto, if_true] at h ⊢
    obtain ⟨rfl, ho⟩ := System.acking_acking h
    rw [hh, ho]
    exact Or.inl ⟨rfl, fun d hd => hd⟩
  case ackPart n r' step e todo rest hd hn hl hh =>
    simp only [System.handler_goto, if_true] at h ⊢
    rw [hh]
    exact Or.inl ⟨h, fun d hd => hd⟩
  case ackEnd r' step e todo rest hd hh =>
    simp only [System.handler_goto, if_true] at h ⊢
    obtain ⟨rfl, ho⟩ := System.acking_acking h
    rw [hh, ho]
    exact Or.inl ⟨rfl, fun d hd => List.mem_cons_of_mem _ hd⟩
  case ackFail r' step e todo rest hb hh =>
    simp only [System.handler_goto, if_true] at h ⊢
    obtain ⟨rfl, ho⟩ := System.acking_acking h
    rw [hh, ho]
    exact Or.inl ⟨rfl, fun d hd => List.mem_cons_of_mem _ hd⟩
  case checkpoint now step hh =>
    simp only [System.handler_goto, if_true] at h
    split_ifs at h <;> cases h
  all_goals
    simp only [System.handler_goto, System.conns_setConn, System.heartbeat, if_true,
      System.acking_exit, System.acking_replying, reduceCtorEq] at h
    try cases h

/-- A thread acknowledges a round if it did before, or has just applied it; while it does, it owes
fewer and fewer ACKs. -/
lemma Rule.acking_of (hr : Rule env s a s') (h : (s'.conns t).handler.acking = some r) :
    ((s.conns t).handler.acking = some r ∧
      ∀ d ∈ (s'.conns t).handler.owed, d ∈ (s.conns t).handler.owed) ∨
    Rule.Applies s a s' t r := by
  by_cases ha : a.conn = some t
  · exact hr.actor_acking_of ha h
  · rw [hr.handler_of_ne ha] at h ⊢
    exact Or.inl ⟨h, fun d hd => hd⟩

/-- A delta is in the buffer if it was before, or has just been submitted. -/
lemma Rule.entry_of (hr : Rule env s a s') (h : s'.agg.buffer.get? w = some δ) :
    s.agg.buffer.get? w = some δ ∨
      ∃ c g, s.Submits a c w g ∧ δ = s.delta c g := by
  have hset : ∀ {c v g}, (s.agg.buffer.set v (s.delta c g)).get? w = some δ →
      s.agg.buffer.get? w = some δ ∨ w = v ∧ δ = s.delta c g := by
    intro c v g h
    rw [Dict.get?_set] at h
    split_ifs at h with hw
    · exact Or.inr ⟨hw, (Option.some.inj h).symm⟩
    · exact Or.inl h
  cases hr
  case raised c now m v g e hh hw ht hg hn =>
    refine (hset h).imp_right fun ⟨hv, hδ⟩ => ⟨c, g, ⟨⟨now, rfl⟩, ⟨m, hh, ht, hg⟩, ?_⟩, hδ⟩
    rwa [hv]
  case buffered c now m v g norm hh hw ht hg hn hs =>
    refine (hset h).imp_right fun ⟨hv, hδ⟩ => ⟨c, g, ⟨⟨now, rfl⟩, ⟨m, hh, ht, hg⟩, ?_⟩, hδ⟩
    rwa [hv]
  case fired => cases h
  case unregister c now v hh hw =>
    simp only [System.agg_goto, GradientAggregator.get?_buffer_unregister] at h
    split_ifs at h
    exact Or.inl h
  all_goals exact Or.inl h

end Rules

/-! ### The invariant -/

namespace Cluster

variable [Scalar α] {env : ServerEnv α} {ids : ConnId → WorkerId} {s s' : Cluster α}
  {a : ClusterAction α} {c d t : ConnId} {r : Round α} {δ : Delta α}

/-- Every delta in the buffer, and every delta of a round that is being applied or acknowledged, is
that of a worker who waits. -/
structure PushInv (ids : ConnId → WorkerId) (s : Cluster α) : Prop where
  entry : ∀ d δ, s.sys.agg.buffer.get? (ids d) = some δ → (s.clients d).Pushing d δ
  pending : ∀ t r, (s.sys.conns t).handler = .apply r → ∀ δ ∈ r.deltas,
    δ.conn ∈ r.sockets.values ∧ (s.clients δ.conn).Pushing δ.conn δ
  complete : ∀ t r, (s.sys.conns t).handler = .apply r → ∀ d ∈ r.sockets.values,
    ∃ δ ∈ r.deltas, δ.conn = d
  owed : ∀ t r, (s.sys.conns t).handler.acking = some r → ∀ d ∈ (s.sys.conns t).handler.owed,
    ∃ δ ∈ r.deltas, (s.clients d).Pushing d δ

omit [Scalar α] in
lemma pushInv_init (ids : ConnId → WorkerId) (st : WeightStore α) (timeout : ℚ) :
    (init st timeout).PushInv ids where
  entry _ _ h := by cases h
  pending _ _ h := by cases h
  complete _ _ h := by cases h
  owed _ _ h := by cases h

/-- The delta that a thread submits is that of its worker's outstanding push. -/
lemma Sound.pushing_of_submits (hs : s.Sound env ids) {b : Action α} {w : WorkerId} {g : Payload α}
    (h : s.sys.Submits b c w g) : w = ids c ∧ (s.clients c).Pushing c (s.sys.delta c g) := by
  obtain ⟨m, hm, ht, hg⟩ := h.handler
  obtain ⟨q, hp, rfl, -, hi, -⟩ := (hs.stage c).of_held (m := m)
    (by simp only [System.view, hm]; rfl)
  refine ⟨hs.identity c w h.workerId, ?_, ?_⟩
  · have hsent := hs.sent c
    have hinbox : (s.sys.conns c).inbox = [] := hi
    simp [System.delta, Delta.id, hsent, hinbox]
  · cases q with
    | pushGradients step grads =>
      cases hg
      exact ⟨step, grads, hp, rfl⟩
    | pullWeights => cases ht
    | heartbeat reward extra => cases ht

/-- A worker whose delta is in the buffer or in a round that owes it an ACK keeps waiting. -/
lemma Sound.pushing_step (hs : s.Sound env ids) (h : (s.clients d).Pushing d δ)
    (hbusy : (∃ t, d ∈ (s.sys.conns t).handler.owed) ∨
      ∃ δ', s.sys.agg.buffer.get? (ids d) = some δ')
    (hstep : s.step env ids a = some s') : (s'.clients d).Pushing d δ := by
  obtain ⟨hid, step, g, hp, hg⟩ := h
  have hsame : ∀ {k : Client α} {c}, (d = c → False) →
      (if d = c then k else s.clients d).Pushing d δ := by
    intro k c hdc
    rw [if_neg hdc]
    exact ⟨hid, step, g, hp, hg⟩
  cases rule_of_step hstep with
  | connect hph hs' =>
    simp only [clients_setClient]
    refine hsame ?_
    intro hdc
    rw [← hdc, hp] at hph
    cases hph
  | request hph hl hs' =>
    simp only [clients_setClient]
    refine hsame ?_
    intro hdc
    rw [← hdc, hp] at hph
    cases hph
  | receive hph hl hf =>
    simp only [clients_setClient]
    refine hsame ?_
    intro hdc
    subst hdc
    obtain ⟨_, _, -, -, -, -, -, -, he, ht⟩ := (hs.stage d).of_split hf
    rcases hbusy with ⟨t, hd⟩ | ⟨δ', hδ'⟩
    · exact Handler.talk_of_owed hd (ht t)
    · exact absurd (hδ'.symm.trans he) (by simp)
  | leave hph hs' =>
    simp only [clients_setClient]
    split_ifs with hdc
    · subst hdc
      exact ⟨hid, step, g, hp, hg⟩
    · exact ⟨hid, step, g, hp, hg⟩
  | server hi hs' => exact ⟨hid, step, g, hp, hg⟩

/-- What a step of the cluster does to the server, as a rule. The workers do nothing when a thread
of the server takes a step. -/
lemma rule_of_sys (hstep : s.step env ids a = some s') (hk : s.Covers env a) :
    s'.sys = s.sys ∨ ∃ b, Rule env s.sys b s'.sys ∧ s.sys.Covers env b ∧
      (b.Internal → a = .server b ∧ s'.clients = s.clients) := by
  cases rule_of_step hstep with
  | connect hp hs => exact Or.inr ⟨_, System.rule_of_step hs, trivial, fun h => by cases h⟩
  | request hp hl hs => exact Or.inr ⟨_, System.rule_of_step hs, trivial, fun h => by cases h⟩
  | receive hp hl hf => exact Or.inl rfl
  | leave hp hs => exact Or.inr ⟨_, System.rule_of_step hs, trivial, fun h => by cases h⟩
  | server hi hs => exact Or.inr ⟨_, System.rule_of_step hs, hk, fun _ => ⟨rfl, rfl⟩⟩

namespace PushInv

/-- A covered round holds the deltas of those who wait for its ACK, and of nobody else. -/
lemma of_fired (h : s.PushInv ids) (hs : s.Sound env ids) (hids : Function.Injective ids)
    {now : ℚ} {m : Message α} {w : WorkerId} {g : Payload α} {norm : α}
    (hk : s.sys.Covers env (.run t now)) (hh : (s.sys.conns t).handler = .dispatch m)
    (hw : (s.sys.conns t).workerId = some w) (ht : m.type = .pushGradients)
    (hg : m.gradients = some g) (hn : gradNorm env.sqrt g = .ok norm)
    (hf : (s.sys.agg.enter w (s.sys.delta t g) norm).ShouldApply env.config s.sys.hb) :
    (∀ δ ∈ (s.sys.agg.enter w (s.sys.delta t g) norm).round.deltas,
      δ.conn ∈ s.sys.agg.sockets.values ∧ (s.clients δ.conn).Pushing δ.conn δ) ∧
    ∀ d ∈ s.sys.agg.sockets.values,
      ∃ δ ∈ (s.sys.agg.enter w (s.sys.delta t g) norm).round.deltas, δ.conn = d := by
  simp only [System.Covers, hh, hw] at hk
  have hcov := hk ⟨ht, g, norm, hg, hn, hf⟩
  obtain ⟨rfl, hpush⟩ := hs.pushing_of_submits (b := .run t now) (c := t)
    ⟨⟨now, rfl⟩, ⟨m, hh, ht, hg⟩, hw⟩
  have hseat := hs.seated t _ hw (by rw [hh]; rfl)
  constructor
  · intro δ hδ
    obtain ⟨v, hv⟩ := Dict.mem_values_iff.mp hδ
    rw [GradientAggregator.get?_buffer_enter] at hv
    split_ifs at hv with hvw
    · cases hv
      exact ⟨Dict.mem_values_iff.mpr ⟨_, hseat⟩, hpush⟩
    · obtain ⟨e, he⟩ := Dict.mem_keys_iff.mp (hs.entries v (Dict.mem_keys_iff.mpr ⟨δ, hv⟩))
      obtain rfl := hs.key he
      have hpe := h.entry e δ hv
      obtain rfl : δ.conn = e := congrArg Prod.fst hpe.1
      exact ⟨Dict.mem_values_iff.mpr ⟨_, he⟩, hpe⟩
  · intro d hd
    by_cases hdt : d = t
    · subst hdt
      exact ⟨s.sys.delta d g, Dict.mem_values_iff.mpr ⟨ids d, by simp⟩, rfl⟩
    · obtain ⟨δ, hδ⟩ := hs.entry_of_registered hw hcov hids hd hdt
      refine ⟨δ, Dict.mem_values_iff.mpr ⟨ids d, ?_⟩, congrArg Prod.fst (h.entry d δ hδ).1⟩
      rw [GradientAggregator.get?_buffer_enter, if_neg (by simpa [hids.eq_iff] using hdt)]
      exact hδ

lemma step (h : s.PushInv ids) (hs : s.Sound env ids) (hids : Function.Injective ids)
    (hk : s.Covers env a) (hstep : s.step env ids a = some s') : s'.PushInv ids := by
  have hentry : ∀ d δ, s.sys.agg.buffer.get? (ids d) = some δ → (s'.clients d).Pushing d δ :=
    fun d δ hδ => hs.pushing_step (h.entry d δ hδ) (Or.inr ⟨δ, hδ⟩) hstep
  have hpending : ∀ t r, (s.sys.conns t).handler = .apply r → ∀ δ ∈ r.deltas,
      δ.conn ∈ r.sockets.values ∧ (s'.clients δ.conn).Pushing δ.conn δ := by
    intro t r hh δ hδ
    obtain ⟨hmem, hp⟩ := h.pending t r hh δ hδ
    exact ⟨hmem, hs.pushing_step hp (Or.inl ⟨t, by rw [hh]; exact hmem⟩) hstep⟩
  have howed : ∀ t r, (s.sys.conns t).handler.acking = some r →
      ∀ d ∈ (s.sys.conns t).handler.owed, ∃ δ ∈ r.deltas, (s'.clients d).Pushing d δ := by
    intro t r hr d hd
    obtain ⟨δ, hδ, hp⟩ := h.owed t r hr d hd
    exact ⟨δ, hδ, hs.pushing_step hp (Or.inl ⟨t, hd⟩) hstep⟩
  rcases rule_of_sys hstep hk with he | ⟨b, hr, hkb, hcl⟩
  · refine ⟨?_, ?_, ?_, ?_⟩ <;> rw [he]
    · intro d δ
      exact hentry d δ
    · intro t r
      exact hpending t r
    · intro t r
      exact h.complete t r
    · intro t r
      exact howed t r
  refine ⟨?_, ?_, ?_, ?_⟩
  · intro d δ hδ
    rcases hr.entry_of hδ with hδ | ⟨c, g, hsub, rfl⟩
    · exact hentry d δ hδ
    · obtain ⟨hd, hp⟩ := hs.pushing_of_submits hsub
      obtain ⟨now, rfl⟩ := hsub.action
      rw [(hcl rfl).2, hids hd]
      exact hp
  · intro t r hh
    rcases hr.apply_of hh with hh | ⟨now, m, w, g, norm, rfl, hm, hw, ht, hg, hn, hf, rfl⟩
    · exact hpending t r hh
    · rw [(hcl rfl).2]
      exact (h.of_fired hs hids hkb hm hw ht hg hn hf).1
  · intro t r hh
    rcases hr.apply_of hh with hh | ⟨now, m, w, g, norm, rfl, hm, hw, ht, hg, hn, hf, rfl⟩
    · exact h.complete t r hh
    · exact (h.of_fired hs hids hkb hm hw ht hg hn hf).2
  · intro t r hh d hd
    rcases hr.acking_of hh with ⟨hh, hsub⟩ | happ
    · exact howed t r hh d (hsub d hd)
    · rw [happ.next] at hd
      obtain ⟨δ, hδ, rfl⟩ := h.complete t r happ.handler d hd
      exact ⟨δ, hδ, (hpending t r happ.handler δ hδ).2⟩

end PushInv

end Cluster

end DistributedRL
