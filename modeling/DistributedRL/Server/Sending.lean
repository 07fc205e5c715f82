import DistributedRL.Comms.Outgoing
import DistributedRL.Worker.Script

/-!
# Who writes to a connection

The thread of a connection writes replies to it, and the threads that complete a round write ACKs
to every registered connection. No lock covers a socket. What a connection receives is a sequence
of whole frames as long as no two of these are under way for it at once.
-/

namespace DistributedRL

variable {α : Type*}

/-! ### What is under way -/

namespace Handler

/-- The thread is in the middle of a reply. -/
def Replying : Handler α → Bool
  | .reply .. => true
  | _ => false

/-- The connections to which the thread still has to send the ACK of a round. -/
def owed : Handler α → List ConnId
  | .apply r | .getStep r => r.sockets.values
  | .acks _ _ todo _ => todo
  | _ => []

/-- What the thread of `c` is sending to `d`, and the bytes left of it. -/
def writing (h : Handler α) (c d : ConnId) : Option (Response α × List UInt8) :=
  match h with
  | .reply resp rest => if d = c then some (resp, rest) else none
  | .acks _ step (e :: _) rest => if d = e then some (.ack step, rest) else none
  | _ => none

end Handler

namespace System

/-- The message in hand is a push that completes a round. -/
def Fires [Scalar α] (env : ServerEnv α) (s : System α) (c : ConnId) (w : WorkerId)
    (m : Message α) : Prop :=
  m.type = .pushGradients ∧ ∃ g norm, m.gradients = some g ∧ gradNorm env.sqrt g = .ok norm ∧
    (s.agg.enter w (s.delta c g) norm).ShouldApply env.config s.hb

instance [Scalar α] (env : ServerEnv α) (s : System α) (c : ConnId) (w : WorkerId)
    (m : Message α) : Decidable (s.Fires env c w m) :=
  match hg : m.gradients with
  | none => .isFalse (by simp [Fires, hg])
  | some g =>
    match hn : gradNorm env.sqrt g with
    | .error _ => .isFalse (by simp [Fires, hg, hn])
    | .ok norm =>
      decidable_of_iff (m.type = .pushGradients ∧
        (s.agg.enter w (s.delta c g) norm).ShouldApply env.config s.hb) (by simp [Fires, hg, hn])

/-- No round in progress still has to send an ACK to `d`. -/
def Clear (s : System α) (d : ConnId) : Prop := ∀ t, d ∉ (s.conns t).handler.owed

/-- The condition on one step: a reply is started only to a connection that is owed no ACK, and a
round is completed only while none of the registered connections is owed one or in the middle of a
reply. -/
def SendsApart [Scalar α] (env : ServerEnv α) (s : System α) : Action α → Prop
  | .run c _ =>
    match (s.conns c).handler, (s.conns c).workerId with
    | .dispatch m, some w =>
      (m.type = .pullWeights → s.Clear c) ∧
        (s.Fires env c w m → ∀ d ∈ s.agg.sockets.values,
          s.Clear d ∧ (s.conns d).handler.Replying = false)
    | .beaten _, some _ => s.Clear c
    | _, _ => True
  | _ => True

/-- At most one frame is under way for every connection. -/
structure SendsInv (s : System α) : Prop where
  own : ∀ w d, s.agg.sockets.get? w = some d → (s.conns d).workerId = some w
  nodup : ∀ t, (s.conns t).handler.owed.Nodup
  apart : ∀ d, (s.conns d).handler.Replying → s.Clear d
  single : ∀ d t u, d ∈ (s.conns t).handler.owed → d ∈ (s.conns u).handler.owed → t = u

/-- What has been written to `d`, whether it can still be written to, and who is writing to it. -/
def StreamInv (env : ServerEnv α) (s : System α) (d : ConnId) : Prop :=
  DistributedRL.StreamInv env.pickle (s.conns d).written (s.conns d).reset
    fun t => (s.conns t).handler.writing t d

end System

/-! ### What a thread owes -/

namespace Handler

lemma owed_of_replying {h : Handler α} (hr : h.Replying) : h.owed = [] := by
  cases h <;> simp_all [Replying, owed]

lemma of_writing {h : Handler α} {c d : ConnId} {x : Response α × List UInt8}
    (hx : h.writing c d = some x) : (h.Replying ∧ d = c) ∨ d ∈ h.owed := by
  cases h with
  | reply resp rest =>
    simp only [writing] at hx
    split_ifs at hx with hd
    exact Or.inl ⟨rfl, hd⟩
  | acks r step todo rest =>
    cases todo with
    | nil => simp [writing] at hx
    | cons e todo =>
      simp only [writing] at hx
      split_ifs at hx with hd
      exact Or.inr (by simp [owed, hd])
  | _ => simp [writing] at hx

end Handler

lemma Handler.sends_nothing {h : Handler α} {P : ConnId → Prop} {Q : Prop} (ho : h.owed = [])
    (hr : h.Replying = false) : h.owed.Nodup ∧ (∀ d ∈ h.owed, P d) ∧ (h.Replying → Q) := by
  simp [ho, hr]

namespace System

variable (s : System α) (c d : ConnId)

@[simp] lemma owed_exit : (s.exit c).owed = [] := by
  rcases s.exit_cases c with h | h <;> rw [h] <;> rfl

@[simp] lemma replying_exit : (s.exit c).Replying = false := by
  rcases s.exit_cases c with h | h <;> rw [h] <;> rfl

@[simp] lemma writing_exit : (s.exit c).writing c d = none := by
  rcases s.exit_cases c with h | h <;> rw [h] <;> rfl

@[simp] lemma owed_replying (env : ServerEnv α) (resp : Response α) :
    (s.replying env c resp).owed = [] := by
  rcases s.replying_cases c env resp with ⟨_, -, h⟩ | h
  · rw [h]; rfl
  · rw [h, owed_exit]

@[simp] lemma replying_acking (env : ServerEnv α) (r : Round α) (step : ℕ) (todo : List ConnId) :
    (s.acking env c r step todo).Replying = false := by
  rcases s.acking_cases c env r step todo with ⟨-, h⟩ | ⟨-, _, -, h⟩ | h
  · rw [h]; rfl
  · rw [h]; rfl
  · rw [h, replying_exit]

lemma owed_acking (env : ServerEnv α) (r : Round α) (step : ℕ) (todo : List ConnId) :
    (s.acking env c r step todo).owed = todo ∨ (s.acking env c r step todo).owed = [] := by
  rcases s.acking_cases c env r step todo with ⟨-, h⟩ | ⟨-, _, -, h⟩ | h
  · exact Or.inr (by rw [h]; rfl)
  · exact Or.inl (by rw [h]; rfl)
  · exact Or.inr (by rw [h, owed_exit])

lemma writing_replying {env : ServerEnv α} {resp m : Response α} {rest : List UInt8}
    (h : (s.replying env c resp).writing c d = some (m, rest)) : frame env.pickle m = .ok rest := by
  rcases s.replying_cases c env resp with ⟨bytes, hb, he⟩ | he
  · rw [he, Handler.writing] at h
    split_ifs at h
    cases h
    exact hb
  · simp [he] at h

lemma writing_acking {env : ServerEnv α} {r : Round α} {step : ℕ} {todo : List ConnId}
    {m : Response α} {rest : List UInt8}
    (h : (s.acking env c r step todo).writing c d = some (m, rest)) :
    frame env.pickle m = .ok rest := by
  rcases s.acking_cases c env r step todo with ⟨-, he⟩ | ⟨hne, bytes, hb, he⟩ | he
  · simp [he, Handler.writing] at h
  · obtain ⟨e, todo, rfl⟩ := List.exists_cons_of_ne_nil hne
    rw [he, Handler.writing] at h
    split_ifs at h
    cases h
    exact hb
  · simp [he] at h

variable {s c d} {s' : System α} {env : ServerEnv α}

/-- Two threads never write to one connection at once. -/
lemma SendsInv.unique (hs : s.SendsInv) {t u : ConnId} {x y : Response α × List UInt8}
    (ht : (s.conns t).handler.writing t d = some x)
    (hu : (s.conns u).handler.writing u d = some y) : t = u := by
  rcases Handler.of_writing ht with ⟨hr, rfl⟩ | ho
  · rcases Handler.of_writing hu with ⟨-, rfl⟩ | ho
    · rfl
    · exact absurd ho (hs.apart _ hr u)
  · rcases Handler.of_writing hu with ⟨hr, rfl⟩ | ho'
    · exact absurd ho (hs.apart _ hr t)
    · exact hs.single d t u ho ho'

lemma SendsInv.others (hs : s.SendsInv) {t : ConnId} {x : Response α × List UInt8}
    (ht : (s.conns t).handler.writing t d = some x) :
    ∀ u ≠ t, (s.conns u).handler.writing u d = none := by
  intro u hut
  cases hu : (s.conns u).handler.writing u d with
  | none => rfl
  | some y => exact absurd (hs.unique hu ht) hut

/-- One thread moves. It comes to owe an ACK, or to reply, only where nothing is under way. -/
lemma SendsInv.move (hs : s.SendsInv) (c : ConnId)
    (hothers : ∀ t ≠ c, (s'.conns t).handler = (s.conns t).handler)
    (hown : ∀ w d, s'.agg.sockets.get? w = some d → (s'.conns d).workerId = some w)
    (hnodup : (s'.conns c).handler.owed.Nodup)
    (howed : ∀ d ∈ (s'.conns c).handler.owed, d ∈ (s.conns c).handler.owed ∨
      s.Clear d ∧ (s.conns d).handler.Replying = false)
    (hreply : (s'.conns c).handler.Replying → (s.conns c).handler.Replying ∨ s.Clear c) :
    s'.SendsInv where
  own := hown
  nodup t := by
    by_cases htc : t = c
    · exact htc ▸ hnodup
    · rw [hothers t htc]
      exact hs.nodup t
  apart d hd t ht := by
    by_cases hdc : d = c <;> by_cases htc : t = c
    · subst hdc htc
      rw [Handler.owed_of_replying hd] at ht
      cases ht
    · subst hdc
      rw [hothers t htc] at ht
      rcases hreply hd with h | h
      · exact hs.apart d h t ht
      · exact h t ht
    · subst htc
      rw [hothers d hdc] at hd
      rcases howed d ht with h | ⟨-, h⟩
      · exact hs.apart d hd t h
      · rw [h] at hd
        cases hd
    · rw [hothers t htc] at ht
      rw [hothers d hdc] at hd
      exact hs.apart d hd t ht
  single d t u ht hu := by
    by_cases htc : t = c <;> by_cases huc : u = c
    · rw [htc, huc]
    · subst htc
      rw [hothers u huc] at hu
      rcases howed d ht with h | ⟨h, -⟩
      · exact hs.single d t u h hu
      · exact absurd hu (h u)
    · subst huc
      rw [hothers t htc] at ht
      rcases howed d hu with h | ⟨h, -⟩
      · exact hs.single d t u ht h
      · exact absurd ht (h t)
    · rw [hothers t htc] at ht
      rw [hothers u huc] at hu
      exact hs.single d t u ht hu

/-- The stream of `d` where nothing is written to it: the thread of `c` goes on with what it was
sending to `d`, or starts. -/
lemma StreamInv.move (h : s.StreamInv env d) (hs' : s'.SendsInv) (c : ConnId)
    (hothers : ∀ t ≠ c, (s'.conns t).handler = (s.conns t).handler)
    (hwritten : (s'.conns d).written = (s.conns d).written)
    (hreset : (s'.conns d).reset = (s.conns d).reset)
    (hc : (s'.conns c).handler.writing c d = (s.conns c).handler.writing c d ∨
      (s.conns c).handler.writing c d = none ∧ ∀ m rest,
        (s'.conns c).handler.writing c d = some (m, rest) → frame env.pickle m = .ok rest) :
    s'.StreamInv env d := by
  rw [StreamInv, hwritten, hreset]
  have hsame : (s'.conns c).handler.writing c d = (s.conns c).handler.writing c d →
      (fun t => (s'.conns t).handler.writing t d) = fun t => (s.conns t).handler.writing t d := by
    intro he
    funext t
    by_cases htc : t = c
    · rw [htc, he]
    · rw [hothers t htc]
  rcases hc with he | ⟨hnone, hstart⟩
  · rw [hsame he]
    exact h
  · cases hw : (s'.conns c).handler.writing c d with
    | none =>
      rw [hsame (hw.trans hnone.symm)]
      exact h
    | some x =>
      refine DistributedRL.StreamInv.start h ?_ ?_
      · intro t
        by_cases htc : t = c
        · rw [htc, hnone]
        · rw [← hothers t htc]
          exact hs'.others hw t htc
      · intro t m rest ht
        obtain rfl := hs'.unique ht hw
        exact hstart m rest ht

lemma sendsInv_init (st : WeightStore α) (timeout : ℚ) : (init st timeout).SendsInv where
  own _ _ h := by cases h
  nodup _ := List.nodup_nil
  apart _ _ _ h := by cases h
  single _ _ _ h := by cases h

lemma streamInv_init (env : ServerEnv α) (st : WeightStore α) (timeout : ℚ) (d : ConnId) :
    (init st timeout).StreamInv env d := DistributedRL.StreamInv.nil

/-- No connection is registered twice. -/
lemma SendsInv.nodup_sockets (hs : s.SendsInv) : s.agg.sockets.values.Nodup := by
  refine List.Nodup.of_map (fun d => (s.conns d).workerId) ?_
  have hmap : s.agg.sockets.values.map (fun d => (s.conns d).workerId) =
      s.agg.sockets.keys.map some := by
    rw [Dict.values, Dict.keys, List.map_map, List.map_map]
    exact List.map_congr_left fun p hp => hs.own p.1 p.2 (Dict.get?_eq_some_iff.mpr hp)
  rw [hmap]
  exact s.agg.sockets.nodup_keys.map (Option.some_injective _)

end System

/-! ### Steps -/

variable [Scalar α] {env : ServerEnv α} {s s' : System α} {a : Action α} {c : ConnId}

/-- A registered socket is that of a thread that identified as its worker. -/
lemma Rule.own (hr : Rule env s a s')
    (hs : ∀ w d, s.agg.sockets.get? w = some d → (s.conns d).workerId = some w) :
    ∀ w d, s'.agg.sockets.get? w = some d → (s'.conns d).workerId = some w := by
  intro v d hv
  have hw := hr.workerId (d := d) (w := v)
  cases hr
  case registerSocket c now m w h hcw =>
    simp only [System.agg_goto, GradientAggregator.get?_sockets_registerSocket] at hv
    split_ifs at hv with hvw
    · cases hv
      exact hw (hvw ▸ hcw)
    · exact hw (hs v d hv)
  case unregister c now w h hcw =>
    simp only [System.agg_goto, GradientAggregator.get?_sockets_unregister] at hv
    split_ifs at hv
    exact hw (hs v d hv)
  all_goals exact hw (hs v d hv)

/-- What the acting thread owes, and what it is in the middle of. -/
lemma Rule.actor_sends (hr : Rule env s a s') (hc : a.conn = some c) (hk : s.SendsApart env a)
    (hs : s.SendsInv) : (s'.conns c).handler.owed.Nodup ∧
      (∀ d ∈ (s'.conns c).handler.owed, d ∈ (s.conns c).handler.owed ∨
        s.Clear d ∧ (s.conns d).handler.Replying = false) ∧
      ((s'.conns c).handler.Replying → (s.conns c).handler.Replying ∨ s.Clear c) := by
  have hnodup := hs.nodup c
  cases hr <;> cases hc
  case pull now m w ht h hw =>
    simp only [System.SendsApart, h, hw] at hk
    exact ⟨by simp, by simp, fun _ => Or.inr (hk.1 ht)⟩
  case heartbeat now m w h hw =>
    simp only [System.SendsApart, h, hw] at hk
    exact ⟨by simp [System.heartbeat], by simp [System.heartbeat], fun _ => Or.inr hk⟩
  case fired now m w g norm ht hg hn h hw hsub =>
    simp only [System.SendsApart, h, hw] at hk
    have hfire := hk.2 ⟨ht, g, norm, hg, hn, hsub⟩
    simp only [System.handler_goto, if_true, Handler.owed, Handler.Replying,
      GradientAggregator.sockets_round, GradientAggregator.sockets_enter]
    exact ⟨hs.nodup_sockets, fun d hd => Or.inr (hfire d hd), by simp⟩
  case getStep now r h =>
    have ho : (s.conns c).handler.owed = r.sockets.values := by rw [h]; rfl
    rw [ho] at hnodup ⊢
    simp only [System.handler_goto, if_true, System.replying_acking]
    rcases s.owed_acking c env r s.store.globalStep r.sockets.values with he | he <;>
      simp +contextual [he, hnodup]
  case ackEnd r step d todo rest hd h =>
    have ho : (s.conns c).handler.owed = d :: todo := by rw [h]; rfl
    rw [ho, List.nodup_cons] at hnodup
    rw [ho]
    simp only [System.handler_goto, if_true, System.replying_acking]
    rcases System.owed_acking { s.send d rest with history := s.history.ack d r step } c env r step
      todo with he | he <;> rw [he]
    · exact ⟨hnodup.2, fun e he => Or.inl (List.mem_cons_of_mem _ he), by simp⟩
    · simp
  case ackFail r step d todo rest hb h =>
    have ho : (s.conns c).handler.owed = d :: todo := by rw [h]; rfl
    rw [ho, List.nodup_cons] at hnodup
    rw [ho]
    simp only [System.handler_goto, if_true, System.replying_acking]
    rcases (s.reset d).owed_acking c env r step todo with he | he <;> rw [he]
    · exact ⟨hnodup.2, fun e he => Or.inl (List.mem_cons_of_mem _ he), by simp⟩
    · simp
  case checkpoint now step h =>
    simp only [System.handler_goto, if_true]
    split_ifs <;> simp [Handler.owed, Handler.Replying]
  case arrive => simp +contextual [hnodup]
  case hangup => simp +contextual [hnodup]
  case applied now r st h ha => simp_all [Handler.owed, Handler.Replying]
  case replyPart n resp rest hn hl h hd => simp_all [Handler.owed, Handler.Replying]
  case ackPart n r step d todo rest hd hn hl h => simp_all [Handler.owed, Handler.Replying]
  -- a thread that quits or goes on to something else owes nothing
  all_goals
    simp only [System.handler_goto, System.conns_setConn, if_true]
    first
      | exact Handler.sends_nothing rfl rfl
      | exact Handler.sends_nothing (System.owed_exit ..) (System.replying_exit ..)

lemma Rule.sendsInv (hr : Rule env s a s') (hk : s.SendsApart env a) (hs : s.SendsInv) :
    s'.SendsInv := by
  have hown := hr.own hs.own
  cases hc : a.conn with
  | none =>
    cases hr <;> cases hc
    exact ⟨hown, hs.nodup, hs.apart, hs.single⟩
  | some c =>
    obtain ⟨hnodup, howed, hreply⟩ := hr.actor_sends hc hk hs
    refine hs.move c (fun t ht => hr.handler_of_ne ?_) hown hnodup howed hreply
    rw [hc]
    exact fun h => ht (Option.some.inj h).symm

omit [Scalar α] in
/-- The frame that `c` is sending to `d` grows by a part. -/
lemma System.StreamInv.part {d : ConnId} (h : s.StreamInv env d) (hs' : s'.SendsInv)
    (hd : s.Writable d) {m : Response α} {rest : List UInt8} (n : ℕ)
    (hc : (s.conns c).handler.writing c d = some (m, rest))
    (hc' : (s'.conns c).handler.writing c d = some (m, rest.drop n))
    (hwritten : (s'.conns d).written = (s.conns d).written ++ rest.take n)
    (hreset : (s'.conns d).reset = (s.conns d).reset) : s'.StreamInv env d := by
  rw [StreamInv, hwritten, hreset, hd.1]
  rw [StreamInv, hd.1] at h
  exact h.part n hc hc' (hs'.others hc')

omit [Scalar α] in
/-- The frame that `c` is sending to `d` is complete. -/
lemma System.StreamInv.finish {d : ConnId} (h : s.StreamInv env d) (hs : s.SendsInv)
    (hothers : ∀ t ≠ c, (s'.conns t).handler = (s.conns t).handler) (hd : s.Writable d)
    {m : Response α} {rest : List UInt8} (hc : (s.conns c).handler.writing c d = some (m, rest))
    (hc' : (s'.conns c).handler.writing c d = none)
    (hwritten : (s'.conns d).written = (s.conns d).written ++ rest)
    (hreset : (s'.conns d).reset = (s.conns d).reset) : s'.StreamInv env d := by
  rw [StreamInv, hwritten, hreset, hd.1]
  rw [StreamInv, hd.1] at h
  refine h.finish hc ?_
  intro t
  by_cases htc : t = c
  · exact htc ▸ hc'
  · rw [hothers t htc]
    exact hs.others hc t htc

omit [Scalar α] in
/-- A connection that has been reset may end in the middle of a frame. -/
lemma System.StreamInv.reset {d : ConnId} (h : s.StreamInv env d)
    (hwritten : (s'.conns d).written = (s.conns d).written)
    (hreset : (s'.conns d).reset = true) : s'.StreamInv env d := by
  rw [StreamInv, hwritten, hreset]
  exact DistributedRL.StreamInv.raised h

omit [Scalar α] in
/-- The frame of an ACK is complete, and the thread goes on to another connection. -/
lemma System.streamInv_ackEnd {d e : ConnId} {r : Round α} {step : ℕ} {todo : List ConnId}
    {rest : List UInt8} (hh : (s.conns c).handler = .acks r step (e :: todo) rest)
    (he : s.Writable e) (hs : s.SendsInv)
    (hs' : System.SendsInv ({ s.send e rest with
      history := s.history.ack e r step }.ackNext env c r step todo))
    (hothers : ∀ t ≠ c, (({ s.send e rest with
      history := s.history.ack e r step }.ackNext env c r step todo).conns t).handler =
        (s.conns t).handler)
    (h : s.StreamInv env d) :
    System.StreamInv env ({ s.send e rest with
      history := s.history.ack e r step }.ackNext env c r step todo) d := by
  have hnext : ∀ m rest', (System.acking env { s.send e rest with
      history := s.history.ack e r step } c r step todo).writing c d = some (m, rest') →
      d ∈ todo := by
    intro m rest' hx
    rcases Handler.of_writing hx with ⟨hrep, -⟩ | ho
    · simp at hrep
    · rcases System.owed_acking { s.send e rest with history := s.history.ack e r step } c env r
        step todo with h' | h' <;> rw [h'] at ho
      · exact ho
      · cases ho
  by_cases hde : d = e
  · subst hde
    have hw : (s.conns c).handler.writing c d = some (.ack step, rest) := by
      simp [hh, Handler.writing]
    have hnodup := hs.nodup c
    refine h.finish hs hothers he hw ?_ (by simp) (by simp)
    simp only [hh, Handler.owed, List.nodup_cons] at hnodup
    simp only [System.handler_goto, if_true]
    refine Option.eq_none_iff_forall_ne_some.mpr ?_
    intro x hx
    exact hnodup.1 (hnext x.1 x.2 hx)
  · refine h.move hs' c hothers (by simp [hde]) (by simp)
      (Or.inr ⟨by simp [hh, Handler.writing, hde], ?_⟩)
    intro m rest' hx
    simp only [System.handler_goto, if_true] at hx
    exact System.writing_acking _ c d hx

/-- A step writes to no connection but the one whose frame it continues. -/
lemma Rule.actor_streamInv (hr : Rule env s a s') (hc : a.conn = some c) (hs : s.SendsInv)
    (hs' : s'.SendsInv) {d : ConnId} (h : s.StreamInv env d) : s'.StreamInv env d := by
  have hothers : ∀ t ≠ c, (s'.conns t).handler = (s.conns t).handler := fun t ht =>
    hr.handler_of_ne fun e => ht (Option.some.inj (hc.symm.trans e)).symm
  cases hr <;> cases hc
  case pull now m w ht hh hw =>
    refine h.move hs' c hothers (by simp) (by simp)
      (Or.inr ⟨by rw [hh]; rfl, ?_⟩)
    intro m rest hx
    simp only [System.handler_goto, if_true] at hx
    exact s.writing_replying c d hx
  case heartbeat now m w hh hw =>
    refine h.move hs' c hothers (by simp [System.heartbeat]) (by simp [System.heartbeat])
      (Or.inr ⟨by rw [hh]; rfl, ?_⟩)
    intro m rest hx
    simp only [System.heartbeat, System.handler_goto, if_true] at hx
    exact System.writing_replying _ c d hx
  case getStep now r hh =>
    refine h.move hs' c hothers (by simp) (by simp)
      (Or.inr ⟨by rw [hh]; rfl, ?_⟩)
    intro m rest hx
    simp only [System.handler_goto, if_true] at hx
    exact s.writing_acking c d hx
  case replyPart n resp rest hn hl hh hd =>
    by_cases hdc : d = c
    · subst hdc
      have hw : (s.conns d).handler.writing d d = some (resp, rest) := by simp [hh, Handler.writing]
      exact h.part hs' hd n hw (by simp [Handler.writing]) (by simp) (by simp)
    · exact h.move hs' c hothers (by simp [hdc]) (by simp)
        (Or.inl (by simp [hh, Handler.writing, hdc]))
  case replyEnd resp rest hh hd =>
    by_cases hdc : d = c
    · subst hdc
      have hw : (s.conns d).handler.writing d d = some (resp, rest) := by simp [hh, Handler.writing]
      exact h.finish hs hothers hd hw (by simp [Handler.writing]) (by simp) (by simp)
    · exact h.move hs' c hothers (by simp [hdc]) (by simp)
        (Or.inl (by simp [hh, Handler.writing, hdc]))
  case ackPart n r step e todo rest he hn hl hh =>
    by_cases hde : d = e
    · subst hde
      have hw : (s.conns c).handler.writing c d = some (.ack step, rest) := by
        simp [hh, Handler.writing]
      exact h.part hs' he n hw (by simp [Handler.writing]) (by simp) (by simp)
    · exact h.move hs' c hothers (by simp [hde]) (by simp)
        (Or.inl (by simp [hh, Handler.writing, hde]))
  case ackEnd r step e todo rest he hh => exact System.streamInv_ackEnd hh he hs hs' hothers h
  case replyFail resp rest hh he =>
    by_cases hdc : d = c
    · exact h.reset (by simp) (by simp [hdc])
    · refine h.move hs' c hothers (by simp) (by simp [hdc]) (Or.inl ?_)
      rw [System.handler_goto, if_pos rfl, System.writing_exit, hh]
      simp [Handler.writing, hdc]
  case ackFail r step e todo rest hb hh =>
    by_cases hde : d = e
    · exact h.reset (by simp) (by simp [hde])
    · refine h.move hs' c hothers (by simp) (by simp [hde])
        (Or.inr ⟨by simp [hh, Handler.writing, hde], ?_⟩)
      intro m rest' hx
      simp only [System.handler_goto, if_true] at hx
      exact System.writing_acking _ c d hx
  case checkpoint now step hh =>
    refine h.move hs' c hothers (by simp) (by simp) (Or.inl ?_)
    simp only [System.handler_goto, if_true, hh]
    split_ifs <;> rfl
  case arrive =>
    exact h.move hs' c hothers (by by_cases hdc : d = c <;> simp [hdc])
      (by by_cases hdc : d = c <;> simp [hdc]) (Or.inl (by simp))
  case hangup =>
    exact h.move hs' c hothers (by by_cases hdc : d = c <;> simp [hdc])
      (by by_cases hdc : d = c <;> simp [hdc]) (Or.inl (by simp))
  -- nothing is being sent to `d` by `c`, before or after
  all_goals
    refine h.move hs' c hothers (by by_cases hdc : d = c <;> simp [hdc])
      (by by_cases hdc : d = c <;> simp [hdc]) (Or.inl ?_)
    simp only [System.handler_goto, System.conns_setConn, if_true, System.writing_exit]
    simp_all [Handler.writing]

lemma Rule.streamInv (hr : Rule env s a s') (hs : s.SendsInv) (hs' : s'.SendsInv) {d : ConnId}
    (h : s.StreamInv env d) : s'.StreamInv env d := by
  cases hc : a.conn with
  | none => cases hr <;> cases hc; exact h
  | some c => exact hr.actor_streamInv hc hs hs' h

/-- In every run that keeps the sends to each connection apart, whatever the clients do, the bytes
written to a connection are whole frames followed by at most a prefix of one more. -/
theorem written_framed {st : WeightStore α} {timeout : ℚ}
    (h : Reach (System.step env) (fun s a _ => s.SendsApart env a) (.init st timeout) s)
    (d : ConnId) : Framed env.pickle (s.conns d).written := by
  have hinv : s.SendsInv ∧ ∀ d, s.StreamInv env d := by
    refine h.invariant (P := fun s => s.SendsInv ∧ ∀ d, s.StreamInv env d)
      ⟨System.sendsInv_init st timeout, System.streamInv_init env st timeout⟩ ?_
    intro s a s' ⟨hs, hstream⟩ hstep hk
    have hr := System.rule_of_step hstep
    have hs' := hr.sendsInv hk hs
    exact ⟨hs', fun d => hr.streamInv hs hs' (hstream d)⟩
  exact (hinv.2 d).framed

/-! ### Two runs -/

namespace Scenario

/-- With a quorum of one worker, worker `0` pushes and completes a round while worker `1` is being
sent the first byte of its weights. -/
def pushesIntoReply : List (ClusterAction ℚ) :=
  pulls 0 0 ++ enters 1 ++ [.server (.write 1 1)] ++ calls 0 (push 1) ++ runs 0 3 ++
    sends 0 0 (.ack 1) ++ [.server (.write 0 (frameLength (.ack 1)))]

/-- Two workers pull, and worker `0` pushes. The push of worker `1` completes the round, and its thread
writes both ACKs, that of worker `0` in two parts. -/
def acksBoth : List (Action ℚ) :=
  connect 0 0 .pullWeights ++ [.run 0 0, .write 0 (frameLength (.weightsResponse (single 0)))] ++
    connect 1 1 .pullWeights ++ [.run 1 0, .write 1 (frameLength (.weightsResponse (single 0)))] ++
    request 0 0 (push 1) ++ [.run 0 0] ++ request 1 1 (push 3) ++ [.run 1 0, .run 1 0, .run 1 0,
    .write 1 1, .write 1 (frameLength (.ack 1) - 1), .write 1 (frameLength (.ack 1))]

/-- A check that implies `SendsApart` in a run of the first `n` connections: nothing is under way when
a request is served. -/
def sendsApart (n : ℕ) (s : System ℚ) : Action ℚ → Bool
  | .run c _ => match (s.conns c).handler with
    | .dispatch _ | .beaten _ =>
      ∀ t < n, (s.conns t).handler.owed = [] ∧ (s.conns t).handler.Replying = false
    | _ => true
  | _ => true

lemma sendsApart_sound {env : ServerEnv ℚ} {n : ℕ} {s : System ℚ} {a : Action ℚ}
    (h : sendsApart n s a = true) (habs : ∀ c, ¬ c < n → (s.conns c).handler = .absent) :
    s.SendsApart env a := by
  cases a with
  | run c now =>
    have hidle : (∀ t < n, (s.conns t).handler.owed = [] ∧ (s.conns t).handler.Replying = false) →
        ∀ d, s.Clear d ∧ (s.conns d).handler.Replying = false := by
      intro hall
      have hnone : ∀ t, (s.conns t).handler.owed = [] ∧ (s.conns t).handler.Replying = false := by
        intro t
        by_cases ht : t < n
        · exact hall t ht
        · rw [habs t ht]
          exact ⟨rfl, rfl⟩
      refine fun d => ⟨fun t ht => ?_, (hnone d).2⟩
      rw [(hnone t).1] at ht
      cases ht
    simp only [System.SendsApart]
    simp only [sendsApart] at h
    split
    · next m w hh hw =>
      simp only [hh, decide_eq_true_eq] at h
      exact ⟨fun _ => (hidle h c).1, fun _ d _ => hidle h d⟩
    · next m w hh hw =>
      simp only [hh, decide_eq_true_eq] at h
      exact (hidle h c).1
    · trivial
  | _ => trivial

end Scenario

open Scenario

/-- The ACK of the round of worker `0` is written into the weights that worker `1` is being
sent. -/
theorem ack_inside_reply :
    ∃ s, Reach (Cluster.step (wireEnv 1) ownId) (fun _ _ _ => True) idle s ∧
      ¬ Framed (wireEnv 1).pickle (s.sys.conns 1).written := by
  obtain ⟨s, hreach, hsplit⟩ := Reach.of_script (Cluster.step (wireEnv 1) ownId)
    (fun _ _ _ => True) idle pushesIntoReply (fun _ _ _ => true) (fun _ _ _ _ => trivial)
    (fun s : Cluster ℚ => (splitFrame (s.sys.conns 1).written).map Prod.fst = some [])
    (by decide +kernel)
  refine ⟨s, hreach, ?_⟩
  intro hframed
  obtain ⟨x, hx, hnil⟩ := Option.map_eq_some_iff.mp hsplit
  rcases hframed.split with hnone | ⟨m, rest, hm, -⟩
  · rw [hx] at hnone
    cases hnone
  · rw [hx] at hm
    exact dumps_ne_nil 1 m ((congrArg Prod.fst (Option.some.inj hm)).symm.trans hnil)

/-- Worker `0` is sent its weights by its own thread, and its ACK by the thread of worker `1`, which
has completed the round. -/
theorem written_framed_both :
    ∃ s, Reach (System.step (wireEnv 2)) (fun s a _ => s.SendsApart (wireEnv 2) a) start s ∧
      ∀ d < 2, (s.conns d).written =
          frames (wireEnv 2).pickle [.weightsResponse (single 0), .ack 1] ∧
        Framed (wireEnv 2).pickle (s.conns d).written := by
  obtain ⟨s, hreach, hwritten⟩ := Reach.of_script (System.step (wireEnv 2))
    (fun s a _ => sendsApart 2 s a = true ∧ a.below 2 = true) start acksBoth
    (fun s a _ => sendsApart 2 s a && a.below 2) (fun s a _ h => Bool.and_eq_true_iff.mp h)
    (fun s : System ℚ => ∀ d < (2 : ℕ), (s.conns d).written =
      frames (wireEnv 2).pickle [.weightsResponse (single 0), .ack 1])
    (by decide +kernel)
  have hrun : Reach (System.step (wireEnv 2)) (fun s a _ => s.SendsApart (wireEnv 2) a) start s :=
    hreach.mono_of (P := fun s => ∀ d, ¬ d < 2 → (s.conns d).handler = .absent)
      (fun hr d hd => absent_of_scripted hr (fun h => h.2) hd)
      (fun habs _ h => sendsApart_sound h.1 habs)
  exact ⟨s, hrun, fun d hd => ⟨hwritten d hd, written_framed hrun d⟩⟩

end DistributedRL
