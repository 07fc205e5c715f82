import DistributedRL.Worker.Pushes

/-!
# ACKs

Which pushes have been acknowledged, and which ACKs the workers have read. In covered runs these are
the pushes averaged so far, except for ACKs still to be sent and workers that are gone.
-/

namespace DistributedRL

variable {α : Type*}

/-- The pushes that an ACK answers: those of its worker in the round. -/
def Acked.ids (x : Acked α) : List (ConnId × ℕ) :=
  (x.deltas.filter (·.conn = x.conn)).map Delta.id

/-- The pushes acknowledged so far, once for each ACK. -/
def System.acknowledged (s : System α) : List (ConnId × ℕ) := s.history.acked.flatMap Acked.ids

lemma Acked.mem_ids {x : Acked α} {i : ConnId × ℕ} :
    i ∈ x.ids ↔ i.1 = x.conn ∧ i ∈ x.deltas.map Delta.id := by
  simp only [ids, List.mem_map, List.mem_filter, decide_eq_true_eq]
  constructor
  · rintro ⟨δ, ⟨hδ, hc⟩, rfl⟩
    exact ⟨hc, δ, hδ, rfl⟩
  · rintro ⟨hc, δ, hδ, rfl⟩
    exact ⟨δ, ⟨hδ, hc⟩, rfl⟩

/-! ### What a step does to the records -/

section Rules

variable [Scalar α] {env : ServerEnv α} {s s' : System α} {a : Action α} {t d : ConnId}
  {r : Round α}

/-- The thread of `t` sends the last byte of an ACK to `e`. -/
structure Rule.Acknowledges (s : System α) (a : Action α) (s' : System α) (t : ConnId)
    (r : Round α) (step : ℕ) (e : ConnId) (todo : List ConnId) (rest : List UInt8) : Prop where
  action : a = .write t rest.length
  handler : (s.conns t).handler = .acks r step (e :: todo) rest
  acked : s'.history.acked = ⟨e, r.deltas, step⟩ :: s.history.acked
  owed : ∀ d ∈ (s'.conns t).handler.owed, d ∈ todo

lemma Rule.acked_of (hr : Rule env s a s') : s'.history.acked = s.history.acked ∨
    ∃ t r step e todo rest, Rule.Acknowledges s a s' t r step e todo rest := by
  cases hr
  case ackEnd c r step e todo rest h hd =>
    refine Or.inr ⟨c, r, step, e, todo, rest, rfl, h, rfl, ?_⟩
    intro d hd
    simp only [System.handler_goto, if_true] at hd
    rcases System.owed_acking { s.send e rest with history := s.history.ack e r step } c env r
      step todo with ho | ho <;> rw [ho] at hd
    · exact hd
    · cases hd
  all_goals exact Or.inl rfl

lemma Rule.applied_of (hr : Rule env s a s') : s'.history.applied = s.history.applied ∨
    ∃ t r, Rule.Applies s a s' t r := by
  cases hr
  case applied c now r st h ha =>
    exact Or.inr ⟨c, r, ⟨now, rfl⟩, h, ha, by simp, rfl⟩
  all_goals exact Or.inl rfl

/-- A send that can raise can raise from then on. -/
lemma Rule.broken (hr : Rule env s a s') (h : s.Broken d) : s'.Broken d := by
  have heof : (s.conns d).eof = true → (s'.conns d).eof = true := by
    intro he
    cases hr
    case scan => exact he
    all_goals
      simp only [System.heartbeat, System.eof_goto, System.eof_send, System.eof_reset,
        System.conns_setConn]
      first
        | exact he
        | split_ifs with hd <;> simp_all
  refine h.imp heof ?_
  intro hh
  by_cases ha : a.conn = some d
  · cases hr <;> cases ha <;> simp_all
  · rw [hr.handler_of_ne ha]
    exact hh

/-- The condition on one step that the ACK of a round can be framed. -/
def System.AckFits (env : ServerEnv α) (s : System α) : Action α → Prop
  | .run c _ =>
    match (s.conns c).handler with
    | .getStep _ => (frame env.pickle (.ack s.store.globalStep)).isOk
    | _ => True
  | _ => True

instance (env : ServerEnv α) (s : System α) : (a : Action α) → Decidable (s.AckFits env a)
  | .run c _ =>
    decidable_of_iff (((s.conns c).handler matches .getStep _) →
        (frame env.pickle (.ack s.store.globalStep)).isOk) <| by
      cases h : (s.conns c).handler <;> simp [System.AckFits, h]
  | .accept _ | .arrive _ _ | .hangup _ | .scan _ | .write _ _ | .fail _ => .isTrue trivial

/-- The same of a step of the cluster. -/
def Cluster.AckFits (env : ServerEnv α) (s : Cluster α) : ClusterAction α → Prop
  | .server a => s.sys.AckFits env a
  | _ => True

instance (env : ServerEnv α) (s : Cluster α) : (a : ClusterAction α) → Decidable (s.AckFits env a)
  | .server a => inferInstanceAs (Decidable (s.sys.AckFits env a))
  | .connect _ | .request _ _ | .receive _ | .leave _ => .isTrue trivial

omit [Scalar α] in
/-- As long as the ACK can be framed, the loop goes on to whom it still owes it. -/
lemma System.acking_of_fits {c : ConnId} {step : ℕ} {todo : List ConnId} {bytes : List UInt8}
    (hb : frame env.pickle (.ack step) = .ok bytes) (hd : d ∈ todo) :
    (s.acking env c r step todo).acking = some r ∧ d ∈ (s.acking env c r step todo).owed := by
  cases todo with
  | nil => cases hd
  | cons e todo =>
    simp only [acking, hb]
    exact ⟨rfl, hd⟩

lemma Rule.actor_owed_of (hr : Rule env s a s') (ha : a.conn = some t) (hfit : s.AckFits env a)
    (hfit' : ∀ r step todo rest, (s.conns t).handler = .acks r step todo rest → d ∈ todo →
      ∃ bytes, frame env.pickle (.ack step) = .ok bytes)
    (h : (s.conns t).handler.acking = some r) (hd : d ∈ (s.conns t).handler.owed) :
    ((s'.conns t).handler.acking = some r ∧ d ∈ (s'.conns t).handler.owed) ∨
      (∃ step todo rest, Rule.Acknowledges s a s' t r step d todo rest) ∨ s'.Broken d := by
  have hacked := hr.acked_of
  cases hr <;> cases ha
  case arrive => exact Or.inl (by simpa using ⟨h, hd⟩)
  case hangup => exact Or.inl (by simpa using ⟨h, hd⟩)
  case getStep now r' hh =>
    simp only [System.AckFits, hh] at hfit
    obtain ⟨bytes, hb⟩ : ∃ bytes, frame env.pickle (.ack s.store.globalStep) = .ok bytes := by
      cases hf : frame env.pickle (.ack s.store.globalStep) with
      | ok bytes => exact ⟨bytes, rfl⟩
      | error e => simp [hf, Except.isOk, Except.toBool] at hfit
    rw [hh] at h hd
    cases h
    simp only [System.handler_goto, if_true]
    exact Or.inl (System.acking_of_fits hb hd)
  case ackPart n r' step e todo rest hw hn hl hh =>
    rw [hh] at h hd
    simp only [System.handler_goto, if_true]
    exact Or.inl ⟨h, hd⟩
  case ackEnd r' step e todo rest hw hh =>
    obtain ⟨bytes, hb⟩ := hfit' _ _ _ _ hh (by rw [hh] at hd; exact hd)
    rw [hh] at h hd
    cases h
    rcases List.mem_cons.mp hd with rfl | hd
    · rcases hacked with he | ⟨t', r', step', e', todo', rest', hack⟩
      · simp [History.ack] at he
      · obtain ⟨rfl, -⟩ := Action.write.inj hack.action
        have hhand := hack.handler
        rw [hh] at hhand
        cases hhand
        exact Or.inr (Or.inl ⟨_, _, _, hack⟩)
    · simp only [System.handler_goto, if_true]
      exact Or.inl (System.acking_of_fits hb hd)
  case ackFail r' step e todo rest hbr hh =>
    obtain ⟨bytes, hb⟩ := hfit' _ _ _ _ hh (by rw [hh] at hd; exact hd)
    rw [hh] at h hd
    cases h
    rcases List.mem_cons.mp hd with rfl | hd
    · refine Or.inr (Or.inr ?_)
      by_cases hdt : d = t
      · subst hdt
        simp_all [System.Broken]
      · simpa [System.Broken, hdt] using hbr
    · simp only [System.handler_goto, if_true]
      exact Or.inl (System.acking_of_fits hb hd)
  all_goals simp_all [Handler.acking]

/-- An ACK that is owed stays so until it is sent or its worker is gone. -/
lemma Rule.owed_of (hr : Rule env s a s') (hfit : s.AckFits env a)
    (hfit' : ∀ r step todo rest, (s.conns t).handler = .acks r step todo rest → d ∈ todo →
      ∃ bytes, frame env.pickle (.ack step) = .ok bytes)
    (h : (s.conns t).handler.acking = some r) (hd : d ∈ (s.conns t).handler.owed) :
    ((s'.conns t).handler.acking = some r ∧ d ∈ (s'.conns t).handler.owed) ∨
      (∃ step todo rest, Rule.Acknowledges s a s' t r step d todo rest) ∨ s'.Broken d := by
  by_cases ha : a.conn = some t
  · exact hr.actor_owed_of ha hfit hfit' h hd
  · rw [hr.handler_of_ne ha]
    exact Or.inl ⟨h, hd⟩

end Rules

/-! ### The invariant of the server -/

namespace System

variable [Scalar α] {env : ServerEnv α} {s s' : System α} {a : Action α}

/-- The push has been acknowledged, or a thread will acknowledge it, or its worker is gone. -/
def Accounted (s : System α) (i : ConnId × ℕ) : Prop :=
  i ∈ s.acknowledged ∨
    (∃ t r, (s.conns t).handler.acking = some r ∧ i.1 ∈ (s.conns t).handler.owed ∧
      i ∈ r.deltas.map Delta.id) ∨ s.Broken i.1

/-- What has been averaged and what has been acknowledged. -/
structure AckInv (s : System α) : Prop where
  applied : ∀ t r, (s.conns t).handler.acking = some r →
    ∃ x ∈ s.history.applied, x.deltas = r.deltas
  own : ∀ x ∈ s.history.acked, ∃ δ ∈ x.deltas, δ.conn = x.conn
  averaged : ∀ i ∈ s.acknowledged, i ∈ s.averaged
  due : ∀ t r, (s.conns t).handler.acking = some r → ∀ d ∈ (s.conns t).handler.owed,
    ∀ δ ∈ r.deltas, δ.conn = d → δ.id ∉ s.acknowledged
  nodup : s.acknowledged.Nodup

omit [Scalar α] in
lemma ackInv_init (st : WeightStore α) (timeout : ℚ) : (init st timeout).AckInv where
  applied _ _ h := by cases h
  own _ h := by cases h
  averaged _ h := by cases h
  due _ _ h := by cases h
  nodup := List.nodup_nil

omit [Scalar α] in
lemma mem_averaged {i : ConnId × ℕ} :
    i ∈ s.averaged ↔ ∃ x ∈ s.history.applied, i ∈ x.deltas.map Delta.id :=
  List.mem_flatMap

omit [Scalar α] in
lemma mem_acknowledged {i : ConnId × ℕ} :
    i ∈ s.acknowledged ↔ ∃ x ∈ s.history.acked, i ∈ x.ids :=
  List.mem_flatMap

/-- What the server's steps rely on: the ACKs can be framed, and they are owed to those whose deltas
are in the round. -/
structure AckReady (env : ServerEnv α) (s : System α) : Prop where
  fits : ∀ t r step todo rest, (s.conns t).handler = .acks r step todo rest → ∀ d ∈ todo,
    ∃ bytes, frame env.pickle (.ack step) = .ok bytes
  owed : ∀ t r, (s.conns t).handler.acking = some r → ∀ d ∈ (s.conns t).handler.owed,
    ∃ δ ∈ r.deltas, δ.conn = d
  pending : ∀ t r, (s.conns t).handler = .apply r → ∀ δ ∈ r.deltas, δ.conn ∈ r.sockets.values

omit [Scalar α] in
/-- The pushes that the ACK being sent answers have not been acknowledged before. -/
lemma AckInv.nodup_acknowledges (h : s.AckInv) (hd : s.DeltasInv) {t : ConnId} {r : Round α}
    {step : ℕ} {e : ConnId} {todo : List ConnId} {rest : List UInt8}
    (hack : Rule.Acknowledges s a s' t r step e todo rest) : s'.acknowledged.Nodup := by
  have hr : (s.conns t).handler.acking = some r := by rw [hack.handler]; rfl
  have he : e ∈ (s.conns t).handler.owed := by rw [hack.handler]; simp [Handler.owed]
  obtain ⟨x, hx, hxr⟩ := h.applied t r hr
  have hround : (r.deltas.map Delta.id).Nodup := by
    have hsub : (x.deltas.map Delta.id).Sublist s.averaged :=
      List.sublist_flatten_of_mem (List.mem_map_of_mem hx)
    exact hxr ▸ hsub.nodup hd.averaged_nodup
  rw [acknowledged, hack.acked, List.flatMap_cons]
  refine List.nodup_append.mpr ⟨?_, h.nodup, ?_⟩
  · exact (List.filter_sublist.map Delta.id).nodup hround
  · rintro i hi j hj rfl
    obtain ⟨hc, hmem⟩ := Acked.mem_ids.mp hi
    obtain ⟨δ, hδ, rfl⟩ := List.mem_map.mp hmem
    exact h.due t r hr e he δ hδ hc hj

end System

section Rules

variable [Scalar α] {env : ServerEnv α} {s s' : System α} {a : Action α} {t : ConnId} {r : Round α}

lemma Rule.mem_acked (hr : Rule env s a s') {x : Acked α} (hx : x ∈ s.history.acked) :
    x ∈ s'.history.acked := by
  rcases hr.acked_of with he | ⟨_, _, _, _, _, _, hack⟩
  · rwa [he]
  · rw [hack.acked]
    exact List.mem_cons_of_mem _ hx

lemma Rule.mem_acknowledged (hr : Rule env s a s') {i : ConnId × ℕ} (hi : i ∈ s.acknowledged) :
    i ∈ s'.acknowledged := by
  obtain ⟨x, hx, hix⟩ := System.mem_acknowledged.mp hi
  exact System.mem_acknowledged.mpr ⟨x, hr.mem_acked hx, hix⟩

lemma Rule.mem_applied (hr : Rule env s a s') {x : Applied α} (hx : x ∈ s.history.applied) :
    x ∈ s'.history.applied := by
  rcases hr.applied_of with he | ⟨_, _, happ⟩
  · rwa [he]
  · rw [happ.history]
    exact List.mem_cons_of_mem _ hx

lemma Rule.acknowledged_of (hr : Rule env s a s') {i : ConnId × ℕ} (hi : i ∈ s'.acknowledged) :
    i ∈ s.acknowledged ∨ ∃ t r step e todo rest, Rule.Acknowledges s a s' t r step e todo rest ∧
      i.1 = e ∧ i ∈ r.deltas.map Delta.id := by
  rcases hr.acked_of with he | ⟨t, r, step, e, todo, rest, hack⟩
  · exact Or.inl (by rwa [System.acknowledged, he] at hi)
  · rw [System.acknowledged, hack.acked, List.flatMap_cons] at hi
    refine (List.mem_append.mp hi).symm.imp_right ?_
    intro hi
    exact ⟨t, r, step, e, todo, rest, hack, Acked.mem_ids.mp hi⟩

namespace Rule.Acknowledges

variable {step : ℕ} {e : ConnId} {todo : List ConnId} {rest : List UInt8}

omit [Scalar α] in
lemma acking (h : Acknowledges s a s' t r step e todo rest) :
    (s.conns t).handler.acking = some r := by
  rw [h.handler]; rfl

omit [Scalar α] in
lemma mem_owed (h : Acknowledges s a s' t r step e todo rest) :
    e ∈ (s.conns t).handler.owed := by
  rw [h.handler]; simp [Handler.owed]

omit [Scalar α] in
/-- Nobody owes an ACK to the worker any more. -/
lemma not_owed (h : Acknowledges s a s' t r step e todo rest) (hs : s.SendsInv) {u : ConnId}
    (hu : e ∈ (s.conns u).handler.owed) : e ∉ (s'.conns u).handler.owed := by
  obtain rfl := hs.single e u t hu h.mem_owed
  intro he
  have hnodup := hs.nodup u
  rw [h.handler] at hnodup
  exact (List.nodup_cons.mp hnodup).1 (h.owed e he)

end Rule.Acknowledges

/-- An averaged push stays acknowledged, or to be acknowledged, or its worker stays gone. -/
lemma Rule.accounted_of (hr : Rule env s a s') {i : ConnId × ℕ} (h : s.Accounted i)
    (hready : s.AckReady env) (hfit : s.AckFits env a) : s'.Accounted i := by
  rcases h with hi | ⟨t, r, hacking, ho, hir⟩ | hb
  · exact Or.inl (hr.mem_acknowledged hi)
  · rcases hr.owed_of hfit (fun r step todo rest hh => hready.fits t r step todo rest hh i.1)
      hacking ho with hnew | ⟨step, todo, rest, hack⟩ | hb
    · exact Or.inr (Or.inl ⟨t, r, hnew.1, hnew.2, hir⟩)
    · refine Or.inl (System.mem_acknowledged.mpr ⟨⟨i.1, r.deltas, step⟩, ?_, ?_⟩)
      · rw [hack.acked]; exact List.mem_cons_self
      · exact Acked.mem_ids.mpr ⟨rfl, hir⟩
    · exact Or.inr (Or.inr hb)
  · exact Or.inr (Or.inr (hr.broken hb))

lemma Rule.ackInv (hr : Rule env s a s') (h : s.AckInv) (hd : s.DeltasInv)
    (hsends : s.SendsInv) (hready : s.AckReady env) : s'.AckInv where
  applied t r hacking := by
    rcases hr.acking_of hacking with ⟨hold, -⟩ | happ
    · obtain ⟨x, hx, hxr⟩ := h.applied t r hold
      exact ⟨x, hr.mem_applied hx, hxr⟩
    · exact ⟨⟨r.deltas, s.store, s'.store⟩, by rw [happ.history]; exact List.mem_cons_self, rfl⟩
  own x hx := by
    rcases hr.acked_of with he | ⟨t, r, step, e, todo, rest, hack⟩
    · exact h.own x (he ▸ hx)
    · rw [hack.acked] at hx
      rcases List.mem_cons.mp hx with rfl | hx
      · exact hready.owed t r hack.acking e hack.mem_owed
      · exact h.own x hx
  averaged i hi := by
    have hmono : i ∈ s.averaged → i ∈ s'.averaged := fun hi => by
      obtain ⟨x, hx, hix⟩ := System.mem_averaged.mp hi
      exact System.mem_averaged.mpr ⟨x, hr.mem_applied hx, hix⟩
    rcases hr.acknowledged_of hi with hi | ⟨t, r, step, e, todo, rest, hack, -, hi⟩
    · exact hmono (h.averaged i hi)
    · obtain ⟨x, hx, hxr⟩ := h.applied t r hack.acking
      exact hmono (System.mem_averaged.mpr ⟨x, hx, hxr ▸ hi⟩)
  due t r hacking d hd' δ hδ hδd hi := by
    rcases hr.acknowledged_of hi with hi | ⟨u, r', step, e, todo, rest, hack, he, -⟩
    · rcases hr.acking_of hacking with ⟨hold, hsub⟩ | happ
      · exact h.due t r hold d (hsub d hd') δ hδ hδd hi
      · exact hd.pending_averaged t δ.id ⟨r, happ.handler, List.mem_map_of_mem hδ⟩ 
          (h.averaged _ hi)
    · obtain rfl : d = e := hδd.symm.trans he
      rcases hr.acking_of hacking with ⟨hold, hsub⟩ | happ
      · exact hack.not_owed hsends (hsub d hd') hd'
      · obtain ⟨now, hnow⟩ := happ.action
        rw [hack.action] at hnow
        cases hnow
  nodup := by
    rcases hr.acked_of with he | ⟨_, _, _, _, _, _, hack⟩
    · rw [System.acknowledged, he]
      exact h.nodup
    · exact h.nodup_acknowledges hd hack

/-- What is averaged is acknowledged, as long as the ACKs can be framed. -/
lemma Rule.accounted (hr : Rule env s a s') (h : ∀ i ∈ s.averaged, s.Accounted i)
    (hready : s.AckReady env) (hfit : s.AckFits env a) : ∀ i ∈ s'.averaged, s'.Accounted i := by
  intro i hi
  have hold : i ∈ s.averaged → s'.Accounted i := fun hi => hr.accounted_of (h i hi) hready hfit
  rcases hr.applied_of with he | ⟨t, r, happ⟩
  · exact hold (by rwa [System.averaged, he] at hi)
  · rw [System.averaged, happ.history] at hi
    rcases List.mem_append.mp hi with hi | hi
    · obtain ⟨δ, hδ, rfl⟩ := List.mem_map.mp hi
      refine Or.inr (Or.inl ⟨t, r, by rw [happ.next]; rfl, ?_, hi⟩)
      rw [happ.next]
      exact hready.pending t r happ.handler δ hδ
    · exact hold hi

end Rules

/-! ### What the workers have read -/

namespace Cluster

variable [Scalar α] {env : ServerEnv α} {ids : ConnId → WorkerId} {s s' : Cluster α}
  {sys : System α} {a : ClusterAction α} {c d t : ConnId}

/-- An ACK that a worker can read, or has read, answers its push, and carries the step recorded for
that ACK. -/
structure ReadInv (env : ServerEnv α) (s : Cluster α) : Prop where
  unread : ∀ d step g payload rest, (s.clients d).phase = .waiting (.pushGradients step g) →
    splitFrame (s.unread d) = some (payload, rest) →
    ∃ x ∈ s.sys.history.acked, (d, (s.clients d).sent) ∈ x.ids ∧
      payload = env.pickle.dumps (.ack x.step)
  read : ∀ d n step, (n, step) ∈ (s.clients d).acks →
    ∃ x ∈ s.sys.history.acked, (d, n) ∈ x.ids ∧ x.step = step

omit [Scalar α] in
lemma readInv_init (env : ServerEnv α) (st : WeightStore α) (timeout : ℚ) :
    (init st timeout).ReadInv env where
  unread _ _ _ _ _ h _ := by cases h
  read _ _ _ h := by cases h

/-- What the server's steps rely on holds of covered runs. -/
lemma Sound.ackReady (hs : s.Sound env ids) (h : s.PushInv ids) : s.sys.AckReady env where
  fits t r step todo rest hh d hd := by
    obtain ⟨e, todo, rfl⟩ := List.exists_cons_of_ne_nil (List.ne_nil_of_mem hd)
    have htalk : (s.sys.view (s.clients e) (ids e) e).talk t = some (some (.ack step, rest)) := by
      simp only [System.view, hh, Handler.talk_acks, if_true]
    obtain ⟨q, -, -, -, ⟨-, hframe, -⟩, -⟩ := (hs.stage e).of_talk htalk
    exact ⟨_, hframe⟩
  owed t r hacking d hd := by
    obtain ⟨δ, hδ, hp⟩ := h.owed t r hacking d hd
    exact ⟨δ, hδ, congrArg Prod.fst hp.1⟩
  pending t r hh δ hδ := (h.pending t r hh δ hδ).1

/-- A worker whose request its own thread is answering does not wait for an ACK. -/
lemma Sound.not_push_of_reply (hs : s.Sound env ids) {resp : Response α} {rest : List UInt8}
    (h : (s.sys.conns d).handler = .reply resp rest) {q : Request α}
    (hp : (s.clients d).phase = .waiting q) : ¬ q.IsPush := by
  have htalk : (s.sys.view (s.clients d) (ids d) d).talk d = some (some (resp, rest)) := by
    simp [System.view, h]
  obtain ⟨q', hp', hh, -⟩ := (hs.stage d).of_talk htalk
  obtain rfl : q' = q := Phase.waiting.inj (hp'.symm.trans hp)
  rcases hh with hh | ⟨-, -, hq⟩
  · simp only [System.view, h] at hh
    cases hh
  · exact hq

/-- What a worker comes to be able to read has just been sent in full: its own thread's reply, or
the ACK of a round. -/
lemma Sound.readable_of (hs : s.Sound env ids) {b : Action α} (hr : Rule env s.sys b sys)
    (hs' : ({ s with sys := sys } : Cluster α).Sound env ids) {payload rest : List UInt8}
    (hsplit : splitFrame ((sys.conns d).written.drop (s.clients d).consumed) =
      some (payload, rest)) :
    (sys.conns d).written = (s.sys.conns d).written ∨
      (∃ resp rest', (s.sys.conns d).handler = .reply resp rest' ∧
        payload = env.pickle.dumps resp) ∨
      ∃ t r step todo rest', Rule.Acknowledges s.sys b sys t r step d todo rest' ∧
        payload = env.pickle.dumps (.ack step) := by
  obtain ⟨_, _, -, -, -, -, -, -, -, hnone⟩ := (hs'.stage d).of_split hsplit
  -- the frame whose last bytes are sent is the one that is read
  have hfull : ∀ {t m} {rest' : List UInt8},
      (s.sys.view (s.clients d) (ids d) d).talk t = some (some (m, rest')) →
      (sys.conns d).written = (s.sys.conns d).written ++ rest' →
      payload = env.pickle.dumps m := by
    intro t m rest' htalk hw
    obtain ⟨_, -, -, -, ⟨-, hframe, -⟩, -⟩ := (hs.stage d).of_talk htalk
    have hread := splitFrame_append hframe []
    rw [List.append_nil] at hread
    rw [hw, List.drop_append_of_le_length (hs.consumed d)] at hsplit
    exact congrArg Prod.fst (Option.some.inj (hsplit.symm.trans hread))
  have hacked := hr.acked_of
  cases hr
  case replyPart c n resp rest' hh hd hn hl =>
    by_cases hdc : d = c
    · subst hdc
      have := hnone d
      simp [System.view] at this
    · exact Or.inl (by simp [hdc])
  case replyEnd c resp rest' hh hd =>
    by_cases hdc : d = c
    · subst hdc
      have htalk : (s.sys.view (s.clients d) (ids d) d).talk d = some (some (resp, rest')) := by
        simp [System.view, hh]
      exact Or.inr (Or.inl ⟨resp, rest', hh, hfull htalk (by simp)⟩)
    · exact Or.inl (by simp [hdc])
  case ackPart c n r step e todo rest' hh hd hn hl =>
    by_cases hde : d = e
    · subst hde
      have := hnone c
      simp [System.view, Handler.talk_acks] at this
    · exact Or.inl (by simp [hde])
  case ackEnd c r step e todo rest' hh hd =>
    by_cases hde : d = e
    · subst hde
      rcases hacked with he | ⟨t, r', step', e, todo', rest'', hack⟩
      · simp [History.ack] at he
      · obtain ⟨rfl, -⟩ := Action.write.inj hack.action
        have hhand := hack.handler
        rw [hh] at hhand
        cases hhand
        have htalk : (s.sys.view (s.clients d) (ids d) d).talk c =
            some (some (.ack step, rest')) := by
          simp [System.view, hh, Handler.talk_acks]
        exact Or.inr (Or.inr ⟨c, r, step, todo, rest', hack, hfull htalk (by simp)⟩)
    · exact Or.inl (by simp [hde])
  case scan => exact Or.inl rfl
  all_goals
    left
    simp only [System.heartbeat, System.written_goto, System.written_reset, System.conns_setConn]
    try split_ifs with hdc <;> simp [hdc]

/-- A step of the server puts an ACK before a worker only by recording it. -/
lemma ReadInv.server (h : s.ReadInv env) (hs : s.Sound env ids) (hpush : s.PushInv ids)
    {b : Action α} (hr : Rule env s.sys b sys)
    (hs' : ({ s with sys := sys } : Cluster α).Sound env ids) {step : ℕ} {g : Weights α}
    {payload rest : List UInt8} (hp : (s.clients d).phase = .waiting (.pushGradients step g))
    (hsplit : splitFrame ((sys.conns d).written.drop (s.clients d).consumed) =
      some (payload, rest)) :
    ∃ x ∈ sys.history.acked, (d, (s.clients d).sent) ∈ x.ids ∧
      payload = env.pickle.dumps (.ack x.step) := by
  rcases hs.readable_of hr hs' hsplit with
    hw | ⟨resp, rest', hh, -⟩ | ⟨t, r, step', todo, rest', hack, hpay⟩
  · rw [hw] at hsplit
    obtain ⟨x, hx, hmem⟩ := h.unread d step g payload rest hp hsplit
    exact ⟨x, hr.mem_acked hx, hmem⟩
  · exact absurd trivial (hs.not_push_of_reply hh hp)
  · obtain ⟨δ, hδ, hp'⟩ := hpush.owed t r hack.acking d hack.mem_owed
    refine ⟨⟨d, r.deltas, step'⟩, ?_, Acked.mem_ids.mpr ⟨rfl, ?_⟩, hpay⟩
    · rw [hack.acked]
      exact List.mem_cons_self
    · exact List.mem_map.mpr ⟨δ, hδ, hp'.1⟩

omit [Scalar α] in
/-- A worker moves, and the server neither sends nor records anything. -/
lemma ReadInv.setClient (h : s.ReadInv env) {k : Client α}
    (hw : ∀ d, (sys.conns d).written = (s.sys.conns d).written)
    (hh : sys.history = s.sys.history)
    (hu : ∀ step g payload rest, k.phase = .waiting (.pushGradients step g) →
      splitFrame ((s.sys.conns c).written.drop k.consumed) = some (payload, rest) →
      ∃ x ∈ s.sys.history.acked, (c, k.sent) ∈ x.ids ∧ payload = env.pickle.dumps (.ack x.step))
    (hr : ∀ n step, (n, step) ∈ k.acks →
      ∃ x ∈ s.sys.history.acked, (c, n) ∈ x.ids ∧ x.step = step) :
    ({ s with sys := sys }.setClient c k).ReadInv env where
  unread d step g payload rest hp hsplit := by
    simp only [Cluster.unread, sys_setClient, clients_setClient, hw, hh] at hp hsplit ⊢
    split_ifs at hp hsplit ⊢ with hdc
    · subst hdc
      exact hu step g payload rest hp hsplit
    · exact h.unread d step g payload rest hp hsplit
  read d n step hmem := by
    simp only [sys_setClient, clients_setClient, hh] at hmem ⊢
    split_ifs at hmem with hdc
    · subst hdc
      exact hr n step hmem
    · exact h.read d n step hmem

/-- Every worker's ACKs answer its own pushes. -/
lemma ReadInv.step (h : s.ReadInv env) (hs : s.Sound env ids) (hpush : s.PushInv ids)
    (hs' : s'.Sound env ids) (hp : env.pickle.Lawful) (hstep : s.step env ids a = some s') :
    s'.ReadInv env := by
  cases rule_of_step hstep with
  | connect hph hsys =>
    obtain ⟨-, -, -, hh, hw⟩ := (System.rule_of_step hsys).outside rfl
    exact h.setClient hw hh (fun _ _ _ _ hq => by cases hq) (h.read _)
  | @request c q _ hph hl hsys =>
    obtain ⟨-, -, -, hh, hw⟩ := (System.rule_of_step hsys).outside rfl
    refine h.setClient hw hh ?_ (h.read _)
    intro step g payload rest _ hsplit
    obtain ⟨-, -, hu, -⟩ := (hs.stage c).of_idle hph
    exact absurd ((congrArg splitFrame hu).symm.trans hsplit) (by simp)
  | @receive c q payload rest hph hl hf =>
    obtain ⟨m, hm, hpay, -, hdec⟩ := hs.decode_of_split hp hph hf
    rw [hdec]
    refine h.setClient (fun d => Eq.refl (s.sys.conns d).written) rfl ?_
      ?_
    · intro step g _ _ hq
      have hidle := Client.phase_finish (s.clients c) hm
      exact absurd (hidle.symm.trans hq) (by simp)
    · intro n step hmem
      cases q <;> cases m <;> first | exact h.read c n step hmem | skip
      case pushGradients.ack step' g step'' =>
        rcases List.mem_cons.mp hmem with heq | hmem
        · cases heq
          obtain ⟨x, hx, hid, hdumps⟩ := h.unread c step' g payload rest hph hf
          have hload := congrArg env.pickle.loads (hpay.symm.trans hdumps)
          rw [hp, hp] at hload
          cases hload
          exact ⟨x, hx, hid, rfl⟩
        · exact h.read c n step hmem
  | @leave c _ hph hsys =>
    obtain ⟨-, -, -, hh, hw⟩ := (System.rule_of_step hsys).outside rfl
    exact h.setClient hw hh (fun step g payload rest hq hsplit => h.unread c step g _ _ hq hsplit)
      (h.read _)
  | server hi hsys =>
    have hr := System.rule_of_step hsys
    refine ⟨fun d step g payload rest hq hsplit => h.server hs hpush hr hs' hq hsplit, ?_⟩
    intro d n step hmem
    obtain ⟨x, hx, hid⟩ := h.read d n step hmem
    exact ⟨x, hr.mem_acked hx, hid⟩

/-! ### Runs -/

/-- Everything that holds in a covered run. -/
structure Tracked (env : ServerEnv α) (ids : ConnId → WorkerId) (s : Cluster α) : Prop where
  sound : s.Sound env ids
  deltas : s.sys.DeltasInv
  pushes : s.PushInv ids
  acks : s.sys.AckInv
  reads : s.ReadInv env

lemma tracked_init (env : ServerEnv α) (ids : ConnId → WorkerId) (st : WeightStore α)
    (timeout : ℚ) : (init st timeout).Tracked env ids where
  sound := sound_init env ids st timeout
  deltas := System.deltasInv_init st timeout
  pushes := pushInv_init ids st timeout
  acks := System.ackInv_init st timeout
  reads := readInv_init env st timeout

lemma Tracked.step (h : s.Tracked env ids) (hids : Function.Injective ids)
    (hp : env.pickle.Lawful) (hstep : s.step env ids a = some s') (hk : s.Covers env a) :
    s'.Tracked env ids := by
  have hsound := h.sound.step hids hp hstep hk
  refine ⟨hsound, ?_, h.pushes.step h.sound hids hk hstep, ?_,
    h.reads.step h.sound h.pushes hsound hp hstep⟩
  · rcases sys_of_step hstep with he | ⟨b, -, hb⟩
    · rw [he]; exact h.deltas
    · exact (System.rule_of_step hb).deltasInv h.deltas
  · rcases sys_of_step hstep with he | ⟨b, -, hb⟩
    · rw [he]; exact h.acks
    · exact (System.rule_of_step hb).ackInv h.acks h.deltas h.sound.sends
        (h.sound.ackReady h.pushes)

/-- The invariants of covered runs. -/
lemma tracked_of_reach {ok : Cluster α → ClusterAction α → Cluster α → Prop} {st : WeightStore α}
    {timeout : ℚ} (hids : Function.Injective ids) (hp : env.pickle.Lawful)
    (h : Reach (Cluster.step env ids) ok (.init st timeout) s)
    (hok : ∀ {s a s'}, ok s a s' → s.Covers env a) : s.Tracked env ids :=
  h.invariant (P := fun s => s.Tracked env ids) (tracked_init env ids st timeout)
    fun hs hstep hk => hs.step hids hp hstep (hok hk)

/-- In a covered run whose ACKs can be framed, what is averaged is acknowledged. -/
lemma accounted_of_reach {ok : Cluster α → ClusterAction α → Cluster α → Prop}
    {st : WeightStore α} {timeout : ℚ} (hids : Function.Injective ids) (hp : env.pickle.Lawful)
    (h : Reach (Cluster.step env ids) ok (.init st timeout) s)
    (hok : ∀ {s a s'}, ok s a s' → s.Covers env a ∧ s.AckFits env a) :
    ∀ i ∈ s.sys.averaged, s.sys.Accounted i := by
  refine h.invariant_reach (P := fun s => ∀ i ∈ s.sys.averaged, s.sys.Accounted i)
    (fun i hi => by cases hi) fun {s a s'} hr hs hstep hk => ?_
  obtain ⟨-, hfit⟩ := hok hk
  have htr := tracked_of_reach hids hp hr fun hk => (hok hk).1
  rcases sys_of_step hstep with he | ⟨b, hon, hb⟩
  · rw [he]; exact hs
  · refine (System.rule_of_step hb).accounted hs (htr.sound.ackReady htr.pushes) ?_
    cases a with
    | server b' => cases hon; exact hfit
    | _ => cases hon <;> trivial

end Cluster

end DistributedRL
