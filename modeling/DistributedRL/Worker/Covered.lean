import DistributedRL.Worker.Conversation

/-!
# Covered rounds

A completed round sends its ACKs to every registered connection. If each of these has a delta in
it, nobody is sent an ACK he does not wait for, and the conversation of every worker stays in one
of the stages of `Stage`.
-/

namespace DistributedRL

variable {α : Type*}

/-- The thread has registered its socket and not yet unregistered it, if it has read a worker id. -/
def Handler.Seated : Handler α → Bool
  | .register _ | .registerSocket _ | .close | .done => false
  | _ => true

section

variable [Scalar α]

/-- The condition on one step: a round is completed only with a delta of every registered worker. -/
def System.Covers (env : ServerEnv α) (s : System α) : Action α → Prop
  | .run c _ =>
    match (s.conns c).handler, (s.conns c).workerId with
    | .dispatch m, some w =>
      s.Fires env c w m → ∀ v ∈ s.agg.sockets.keys, v = w ∨ v ∈ s.agg.buffer.keys
    | _, _ => True
  | _ => True

instance (env : ServerEnv α) (s : System α) (a : Action α) : Decidable (s.Covers env a) := by
  cases a <;> simp only [System.Covers] <;> try infer_instance
  split <;> infer_instance

/-- The same of a step of the cluster. -/
def Cluster.Covers (env : ServerEnv α) (s : Cluster α) : ClusterAction α → Prop
  | .server a => s.sys.Covers env a
  | _ => True

instance (env : ServerEnv α) (s : Cluster α) : (a : ClusterAction α) → Decidable (s.Covers env a)
  | .server a => inferInstanceAs (Decidable (s.sys.Covers env a))
  | .connect _ | .request _ _ | .receive _ | .leave _ => .isTrue trivial

/-- The invariant of covered runs. -/
structure Cluster.Sound (env : ServerEnv α) (ids : ConnId → WorkerId) (s : Cluster α) : Prop where
  identity : ∀ d w, (s.sys.conns d).workerId = some w → w = ids d
  sends : s.sys.SendsInv
  seated : ∀ d w, (s.sys.conns d).workerId = some w → (s.sys.conns d).handler.Seated →
    s.sys.agg.sockets.get? w = some d
  entries : ∀ w ∈ s.sys.agg.buffer.keys, w ∈ s.sys.agg.sockets.keys
  sent : ∀ d, (s.clients d).sent = (s.sys.conns d).received + (s.sys.conns d).inbox.length
  consumed : ∀ d, (s.clients d).consumed ≤ (s.sys.conns d).written.length
  stage : ∀ d, Stage env.pickle (ids d) d (s.sys.view (s.clients d) (ids d) d)

end

namespace Cluster

variable [Scalar α] {env : ServerEnv α} {ids : ConnId → WorkerId} {s s' : Cluster α}
  {sys : System α} {a : Action α} {c d : ConnId}

lemma sound_init (env : ServerEnv α) (ids : ConnId → WorkerId) (st : WeightStore α) (timeout : ℚ) :
    (init st timeout).Sound env ids where
  identity _ _ h := by cases h
  sends := System.sendsInv_init st timeout
  seated _ _ h := by cases h
  entries _ h := by cases h
  sent _ := rfl
  consumed _ := Nat.le_refl 0
  stage _ := .away rfl rfl rfl rfl rfl fun _ => rfl

namespace Sound

/-- A registered connection is that of the worker it is registered for. -/
lemma key (hs : s.Sound env ids) {w : WorkerId} (h : s.sys.agg.sockets.get? w = some d) :
    w = ids d :=
  hs.identity d w (hs.sends.own w d h)

/-- A worker in the buffer is registered. -/
lemma registered_of_entry (hs : s.Sound env ids) (hids : Function.Injective ids) {δ : Delta α}
    (h : s.sys.agg.buffer.get? (ids d) = some δ) : d ∈ s.sys.agg.sockets.values := by
  obtain ⟨e, he⟩ := Dict.mem_keys_iff.mp (hs.entries _ (Dict.mem_keys_iff.mpr ⟨δ, h⟩))
  obtain rfl := hids (hs.key he)
  exact Dict.mem_values_iff.mpr ⟨_, he⟩

/-- If the round is covered, a registered connection other than that of the thread that completes
it has its delta in the buffer. -/
lemma entry_of_registered (hs : s.Sound env ids) {w : WorkerId}
    (hw : (s.sys.conns c).workerId = some w)
    (hcov : ∀ v ∈ s.sys.agg.sockets.keys, v = w ∨ v ∈ s.sys.agg.buffer.keys)
    (hids : Function.Injective ids) (hd : d ∈ s.sys.agg.sockets.values) (hdc : d ≠ c) :
    ∃ δ, s.sys.agg.buffer.get? (ids d) = some δ := by
  obtain ⟨v, hv⟩ := Dict.mem_values_iff.mp hd
  obtain rfl := hs.key hv
  rcases hcov _ (Dict.mem_keys_iff.mpr ⟨d, hv⟩) with h | h
  · rw [hs.identity c w hw] at h
    exact absurd (hids h) hdc
  · exact Dict.mem_keys_iff.mp h

/-- Under the condition, no two frames are ever under way for one connection. -/
lemma sendsApart (hs : s.Sound env ids) (hids : Function.Injective ids)
    (hk : s.sys.Covers env a) : s.sys.SendsApart env a := by
  have hclear : ∀ {d}, (∀ t, ((s.sys.conns t).handler.talk t d) = none) → s.sys.Clear d :=
    fun h t ht => Handler.talk_of_owed ht (h t)
  cases a with
  | run c now =>
    simp only [System.SendsApart]
    simp only [System.Covers] at hk
    split
    · next m w hh hw =>
      simp only [hh, hw] at hk
      have hheld : (s.sys.conns c).handler.held = some m := by rw [hh]; rfl
      obtain ⟨-, -, -, -, -, -, -, ht⟩ := (hs.stage c).of_held hheld
      refine ⟨fun _ => hclear ht, ?_⟩
      intro hfire d hd
      by_cases hdc : d = c
      · subst hdc
        exact ⟨hclear ht, by rw [hh]; rfl⟩
      · obtain ⟨δ, hδ⟩ := hs.entry_of_registered hw (hk hfire) hids hd hdc
        obtain ⟨-, -, -, hpark, -, -, ht⟩ := (hs.stage d).of_entry hδ
        exact ⟨hclear ht, Handler.not_replying_of_free (Handler.parked_free hpark)⟩
    · next m w hh hw =>
      have hheld : (s.sys.conns c).handler.held = some m := by rw [hh]; rfl
      obtain ⟨-, -, -, -, -, -, -, ht⟩ := (hs.stage c).of_held hheld
      exact hclear ht
    · trivial
  | _ => trivial

/-! ### The steps of the server -/

/-- The request in the hands of the thread of `c` is answered, or will not be. -/
lemma stage_reply (hs : s.Sound env ids) {m : Message α}
    (hm : (s.sys.conns c).handler.held = some m) {resp : Response α}
    (hresp : ∀ q : Request α, m = q.message (ids c) →
      ((s.sys.conns c).handler.Beaten → m.type = .heartbeat) → q.Expects resp ∧ ¬ q.IsPush) :
    Stage env.pickle (ids d) d
      ((s.sys.startReply env c resp).view (s.clients d) (ids d) d) := by
  by_cases hd : d = c
  · subst hd
    obtain ⟨q, hp, hq, hb, hi, hu, he, ht⟩ := (hs.stage d).of_held hm
    obtain ⟨hexp, hpush⟩ := hresp q hq hb
    rw [System.view_goto]
    rcases s.sys.replying_cases d env resp with ⟨bytes, hbytes, h⟩ | h
    · refine .answering (x := some (resp, bytes)) (t := d) hp
        (Or.inr ⟨by simp [h, Handler.Replying], rfl, hpush⟩) hi ⟨hexp, ?_, frame_ne_nil hbytes⟩ he
        (by simp [h]) ?_
      · rw [hu]
        exact hbytes
      · intro t htd
        simpa [htd] using ht t
    · refine .lost hp (by simp [h, System.free_exit]) hi (by simp [hu]) he ?_
      intro t
      by_cases htd : t = d
      · simp [htd, h]
      · simpa [htd] using ht t
  · rw [System.view_goto_of_ne hd 
      (by rw [Handler.talk_of_held hm, s.sys.talk_replying env resp hd])]
    exact hs.stage d

/-- The request in the hands of the thread of `c` gets no answer. -/
lemma stage_drop (hs : s.Sound env ids) {m : Message α}
    (hm : (s.sys.conns c).handler.held = some m) {h' : Handler α} (hf : h'.Free)
    (hnone' : ∀ e, h'.talk c e = none) :
    Stage env.pickle (ids d) d ((s.sys.goto c h').view (s.clients d) (ids d) d) := by
  by_cases hd : d = c
  · subst hd
    obtain ⟨q, hp, -, -, hi, hu, he, ht⟩ := (hs.stage d).of_held hm
    rw [System.view_goto]
    refine .lost hp (by simpa using hf) hi (by simp [hu]) he ?_
    intro t
    by_cases htd : t = d
    · simp [htd, hnone']
    · simpa [htd] using ht t
  · rw [System.view_goto_of_ne hd (by rw [Handler.talk_of_held hm, hnone'])]
    exact hs.stage d

/-- The request stays in the hands of the thread of `c`. -/
lemma stage_hold (hs : s.Sound env ids) {m : Message α}
    (hm : (s.sys.conns c).handler.held = some m) {h' : Handler α} (hm' : h'.held = some m)
    (hb : h'.Beaten → m.type = .heartbeat) :
    Stage env.pickle (ids d) d ((s.sys.goto c h').view (s.clients d) (ids d) d) := by
  by_cases hd : d = c
  · subst hd
    obtain ⟨q, hp, rfl, -, hi, hu, he, ht⟩ := (hs.stage d).of_held hm
    rw [System.view_goto]
    refine .serving hp (by simpa using hm') (by simpa using hb) hi hu he ?_
    intro t
    by_cases htd : t = d
    · simp [htd, Handler.talk_of_held hm']
    · simpa [htd] using ht t
  · rw [System.view_goto_of_ne hd (by rw [Handler.talk_of_held hm, Handler.talk_of_held hm'])]
    exact hs.stage d

/-- The delta in the hands of the thread of `c` goes into the buffer. -/
lemma stage_enter (hs : s.Sound env ids) (hids : Function.Injective ids) {m : Message α}
    (hm : (s.sys.conns c).handler.held = some m) (hpush : m.type = .pushGradients)
    {w : WorkerId} (hw : (s.sys.conns c).workerId = some w) {h' : Handler α} (hpark : h'.Parked)
    {δ : Delta α} (hbuf : sys.agg.buffer = s.sys.agg.buffer.set w δ)
    (hconns : sys.conns = s.sys.conns) :
    Stage env.pickle (ids d) d ((sys.goto c h').view (s.clients d) (ids d) d) := by
  obtain rfl := hs.identity c w hw
  have hview : ∀ e, sys.view (s.clients e) (ids e) e =
      { s.sys.view (s.clients e) (ids e) e with
        entry := if e = c then some δ else s.sys.agg.buffer.get? (ids e) } := by
    intro e
    simp only [System.view, hconns, hbuf, Dict.get?_set, hids.eq_iff]
  by_cases hd : d = c
  · subst hd
    obtain ⟨q, hp, rfl, -, hi, hu, he, ht⟩ := (hs.stage d).of_held hm
    have hq : q.IsPush := by cases q <;> trivial
    rw [System.view_goto, hview]
    refine .buffered (δ := δ) hp hq (by simpa using hpark) hi hu (by simp) ?_
    intro t
    by_cases htd : t = d
    · simp [htd, Handler.talk_of_parked hpark]
    · simpa [htd] using ht t
  · rw [System.view_goto_of_ne hd
      (by rw [hconns, Handler.talk_of_held hm, Handler.talk_of_parked hpark]), hview]
    simpa [hd, System.view] using hs.stage d

/-- The thread of `c` completes a covered round: it now owes an ACK to everyone whose delta was in
the buffer, and to nobody else. -/
lemma stage_fire (hs : s.Sound env ids) (hids : Function.Injective ids) {m : Message α}
    (hm : (s.sys.conns c).handler.held = some m) (hpush : m.type = .pushGradients)
    {w : WorkerId} (hw : (s.sys.conns c).workerId = some w)
    (hseat : (s.sys.conns c).handler.Seated)
    (hcov : ∀ v ∈ s.sys.agg.sockets.keys, v = w ∨ v ∈ s.sys.agg.buffer.keys) {r : Round α}
    (hr : r.sockets = s.sys.agg.sockets) (hbuf : sys.agg.buffer = ∅)
    (hconns : sys.conns = s.sys.conns) :
    Stage env.pickle (ids d) d ((sys.goto c (.apply r)).view (s.clients d) (ids d) d) := by
  have hview : ∀ e, sys.view (s.clients e) (ids e) e =
      { s.sys.view (s.clients e) (ids e) e with entry := none } := by
    intro e
    simp only [System.view, hconns, hbuf, Dict.get?_empty]
  rw [System.view_goto, hview, Handler.talk_apply, hr]
  by_cases hd : d = c
  · subst hd
    obtain ⟨q, hp, rfl, -, hi, hu, -, ht⟩ := (hs.stage d).of_held hm
    have hq : q.IsPush := by cases q <;> trivial
    have hmem : d ∈ s.sys.agg.sockets.values :=
      Dict.mem_values_iff.mpr ⟨w, hs.seated d w hw hseat⟩
    refine .answering (x := none) (t := d) hp (Or.inl (by simp [Handler.Free])) hi ⟨hq, hu⟩ rfl
      (by simp [hmem]) ?_
    intro t htd
    simpa [htd] using ht t
  · by_cases hmem : d ∈ s.sys.agg.sockets.values
    · obtain ⟨δ, hδ⟩ := hs.entry_of_registered hw hcov hids hmem hd
      obtain ⟨q, hp, hq, hpark, hi, hu, ht⟩ := (hs.stage d).of_entry hδ
      refine .answering (x := none) (t := c) hp (Or.inl ?_) hi ⟨hq, hu⟩ rfl (by simp [hmem])
        ?_
      · simpa [hd, hconns, System.view] using Handler.parked_free hpark
      · intro t htc
        simpa [htc] using ht t
    · have hentry : s.sys.agg.buffer.get? (ids d) = none := by
        by_contra hne
        obtain ⟨δ, hδ⟩ := Option.ne_none_iff_exists'.mp hne
        exact hmem (hs.registered_of_entry hids hδ)
      have htalk : (s.sys.view (s.clients d) (ids d) d).talk c = none := Handler.talk_of_held hm
      have hu : Function.update (s.sys.view (s.clients d) (ids d) d).talk c none =
          (s.sys.view (s.clients d) (ids d) d).talk := by
        rw [← htalk]
        exact Function.update_eq_self ..
      have hst := hs.stage d
      simp only [hd, hmem, if_false, hu, hconns]
      simpa only [System.view, hentry] using hst

/-- The thread of `c` reads a request. -/
lemma stage_read (hs : s.Sound env ids) (hh : (s.sys.conns c).handler = .recv) {m : Message α}
    {rest : List (Received α)} (hi : (s.sys.conns c).inbox = .message m :: rest) {k : Conn α}
    (hk : k.handler.held = some m) (hb : k.handler.Beaten = false) (hinbox : k.inbox = rest)
    (hwritten : k.written = (s.sys.conns c).written) :
    Stage env.pickle (ids d) d ((s.sys.setConn c k).view (s.clients d) (ids d) d) := by
  by_cases hd : d = c
  · subst hd
    obtain ⟨q, hp, hm, rfl, hu, he, ht⟩ := (hs.stage d).of_inbox hi
    cases hm
    rw [System.view_setConn]
    simp only [if_true]
    refine .serving hp hk (by simp [hb]) hinbox ?_ he ?_
    · rw [hwritten]
      exact hu
    · intro t
      by_cases htd : t = d
      · simp [htd, Handler.talk_of_held hk]
      · simpa [htd] using ht t
  · rw [System.view_setConn_of_ne hd (by rw [Handler.talk_of_held hk, hh]; rfl)]
    exact hs.stage d

/-- A part of what the thread of `c` sends to `e` is sent. -/
lemma stage_part (hs : s.Sound env ids) {m : Response α} {rest : List UInt8} {n : ℕ} {e : ConnId}
    (hc : (s.sys.conns c).handler.talk c e = some (some (m, rest))) (hn : n < rest.length)
    {h' : Handler α} (hc' : h'.talk c e = some (some (m, rest.drop n)))
    (hother : ∀ d ≠ e, h'.talk c d = (s.sys.conns c).handler.talk c d)
    (hf : (s.sys.conns c).handler.Free → h'.Free)
    (hrep : (s.sys.conns c).handler.Replying → h'.Replying)
    (hpark : (s.sys.conns c).handler.Parked = false)
    (hheld : (s.sys.conns c).handler.Free ∨ c = e) :
    Stage env.pickle (ids d) d
      (((s.sys.send e (rest.take n)).goto c h').view (s.clients d) (ids d) d) := by
  have hsend := s.sys.view_send (w := ids d) (e := e) (rest.take n) (hs.consumed d)
  by_cases hd : d = e
  · subst hd
    rw [System.view_goto, hsend]
    have hst := (hs.stage d).part hc hn (if d = c then h' else (s.sys.conns d).handler)
    simp only [if_true, hc', System.handler_send]
    refine hst ?_ ?_
    · intro hfree
      split_ifs with hdc
      · subst hdc
        exact hf hfree
      · exact hfree
    · intro hr
      split_ifs with hdc
      · subst hdc
        exact hrep hr
      · exact hr
  · refine System.stage_goto ?_ ?_ (Or.inl ?_)
    · rw [hsend]
      simpa [hd] using hs.stage d
    · intro hdc
      subst hdc
      have hfree := hheld.resolve_right hd
      simpa [hpark, hf hfree] using hfree
    · simpa using hother d hd

/-- The last part of what the thread of `c` sends to `d` is sent. -/
lemma stage_finish (hs : s.Sound env ids) {m : Response α} {rest : List UInt8}
    (hc : (s.sys.conns c).handler.talk c d = some (some (m, rest))) {h' : Handler α}
    (hc' : h'.talk c d = none) (hf : h'.Free) :
    Stage env.pickle (ids d) d
      (((s.sys.send d rest).goto c h').view (s.clients d) (ids d) d) := by
  obtain ⟨_, -, hh, -⟩ := (hs.stage d).of_talk hc
  have hfree : (if d = c then h' else (s.sys.conns d).handler).Free := by
    split_ifs with hdc
    · exact hf
    · exact hh.resolve_right fun h => hdc h.2.1.symm
  rw [System.view_goto, s.sys.view_send rest (hs.consumed d)]
  simpa [hc'] using (hs.stage d).finish hc hfree

/-- The last part of an ACK is sent to `e`. -/
lemma stage_ackEnd (hs : s.Sound env ids) {r : Round α} {step : ℕ} {e : ConnId}
    {todo : List ConnId} {rest : List UInt8}
    (h : (s.sys.conns c).handler = .acks r step (e :: todo) rest) (d : ConnId) :
    Stage env.pickle (ids d) d
      (System.view ({ s.sys.send e rest with
        history := s.sys.history.ack e r step }.ackNext env c r step todo) (s.clients d) (ids d)
          d) := by
  have hnodup := hs.sends.nodup c
  simp only [h, Handler.owed, List.nodup_cons] at hnodup
  by_cases hde : d = e
  · subst hde
    have htalk : (s.sys.conns c).handler.talk c d = some (some (.ack step, rest)) := by
      rw [h, Handler.talk_acks, if_pos rfl]
    refine hs.stage_finish htalk ?_ (System.free_acking ..)
    exact (System.talk_acking env r step todo d).resolve_right fun h => hnodup.1 h.1
  · refine System.stage_ackNext (s := { s.sys.send e rest with
      history := s.sys.history.ack e r step }) ?_ ?_ ?_ (Or.inl ?_)
    · have hsend := s.sys.view_send (w := ids d) (e := e) rest (hs.consumed d)
      rw [if_neg hde] at hsend
      exact hsend ▸ hs.stage d
    · simp [h, Handler.Free]
    · simp [h, Handler.Parked]
    · simp [h, Handler.talk_acks, hde]

/-- An ACK to `e` fails. -/
lemma stage_ackFail (hs : s.Sound env ids) {r : Round α} {step : ℕ} {e : ConnId}
    {todo : List ConnId} {rest : List UInt8}
    (h : (s.sys.conns c).handler = .acks r step (e :: todo) rest) (d : ConnId) :
    Stage env.pickle (ids d) d
      (System.view ((s.sys.reset e).ackNext env c r step todo) (s.clients d) (ids d) d) := by
  have hnodup := hs.sends.nodup c
  simp only [h, Handler.owed, List.nodup_cons] at hnodup
  refine System.stage_ackNext (s := s.sys.reset e) (by rw [System.view_reset]; exact hs.stage d)
    (by simp [h, Handler.Free]) (by simp [h, Handler.Parked]) ?_
  rw [System.handler_reset, h, Handler.talk_acks]
  by_cases hde : d = e
  · subst hde
    exact Or.inr ⟨by simp, hnodup.1⟩
  · exact Or.inl (if_neg hde)

/-- A response to `c` fails. -/
lemma stage_replyFail (hs : s.Sound env ids) {resp : Response α} {rest : List UInt8}
    (h : (s.sys.conns c).handler = .reply resp rest) (d : ConnId) :
    Stage env.pickle (ids d) d
      (System.view ((s.sys.reset c).quit c) (s.clients d) (ids d) d) := by
  have hst := hs.stage d
  by_cases hdc : d = c
  · subst hdc
    have htalk : (s.sys.view (s.clients d) (ids d) d).talk d = some (some (resp, rest)) := by
      simp [System.view, h]
    obtain ⟨q, hp, -, hin, ⟨-, hframe, hne⟩, hent, ho⟩ := hst.of_talk htalk
    rw [System.view_goto, System.view_reset]
    refine .lost hp (by simp [System.free_exit]) hin (splitFrame_cut hframe rfl hne) hent ?_
    intro t
    by_cases htd : t = d
    · simp [htd]
    · simpa [htd] using ho t htd
  · rw [System.view_goto_of_ne hdc (by simp [h, hdc]), System.view_reset]
    exact hst

/-- The thread of `c` unregisters its worker, whose entry in the buffer is lost. -/
lemma stage_unregister (hs : s.Sound env ids) (hids : Function.Injective ids)
    (h : (s.sys.conns c).handler = .unregister) (d : ConnId) :
    Stage env.pickle (ids d) d
      (System.view ({ s.sys with agg := s.sys.agg.unregister (ids c) }.goto c .close)
        (s.clients d) (ids d) d) := by
  have hst := hs.stage d
  by_cases hdc : d = c
  · subst hdc
    cases he : s.sys.agg.buffer.get? (ids d) with
    | none =>
      have hview : System.view { s.sys with agg := s.sys.agg.unregister (ids d) } (s.clients d)
          (ids d) d = s.sys.view (s.clients d) (ids d) d := by
        simp [System.view, he]
      refine System.stage_goto (hview ▸ hst) ?_ (Or.inl ?_)
      · intro _
        simp [h, Handler.Free, Handler.Parked]
      · simp only [h]
        rfl
    | some δ =>
      obtain ⟨q, hp, -, -, hin, hu, ht⟩ := hst.of_entry he
      refine .lost hp (by simp [System.view, Handler.Free]) (by simpa [System.view] using hin) ?_
        (by simp [System.view]) ?_
      · simpa [System.view] using congrArg splitFrame hu
      · intro t
        by_cases htd : t = d
        · simp only [System.view, System.handler_goto, htd, if_true]
          rfl
        · simpa [System.view, htd] using ht t
  · have hview : System.view { s.sys with agg := s.sys.agg.unregister (ids c) } (s.clients d)
        (ids d) d = s.sys.view (s.clients d) (ids d) d := by
      simp [System.view, hids.eq_iff, hdc]
    rw [System.view_goto_of_ne hdc (by simp only [h]; rfl), hview]
    exact hst

/-- The stages of all workers after a step of the server. -/
lemma stage_server (hs : s.Sound env ids) (hids : Function.Injective ids)
    (hk : s.sys.Covers env a) (hi : a.Internal = true) (hr : Rule env s.sys a sys) (d : ConnId) :
    Stage env.pickle (ids d) d (sys.view (s.clients d) (ids d) d) := by
  have hst := hs.stage d
  cases hr
  case accept c h => cases hi
  case arrive c x h he => cases hi
  case hangup c h => cases hi
  case scan now => exact hst
  case unreadable c now rest h hin =>
    obtain ⟨_, -, hx, -⟩ := (hs.stage c).of_inbox hin
    cases hx
  case anonymous c now m rest h hin hw hm =>
    obtain ⟨q, -, hx, -⟩ := (hs.stage c).of_inbox hin
    cases hx
    cases q <;> cases hm
  case identify c now m rest w h hin hw hm => exact hs.stage_read h hin rfl rfl rfl rfl
  case next c now m rest w h hin hw => exact hs.stage_read h hin rfl rfl rfl rfl
  case register c now m w h hw =>
    exact hs.stage_hold (m := m) (by rw [h]; rfl) rfl (by simp [Handler.Beaten])
  case registerSocket c now m w h hw =>
    exact hs.stage_hold (m := m) (by rw [h]; rfl) rfl (by simp [Handler.Beaten])
  case pull c now m w h hw ht =>
    refine hs.stage_reply (m := m) (by rw [h]; rfl) ?_
    intro q hq _
    subst hq
    cases q <;> cases ht
    exact ⟨trivial, id⟩
  case keyError c now m w h hw ht hg =>
    exact hs.stage_drop (m := m) (by rw [h]; rfl) System.free_exit
      fun e => Handler.talk_of_parked System.parked_exit
  case raised c now m w g e h hw ht hg hn =>
    exact hs.stage_enter hids (m := m) (by rw [h]; rfl) ht hw System.parked_exit rfl rfl
  case buffered c now m w g norm h hw ht hg hn hsub =>
    exact hs.stage_enter hids (m := m) (by rw [h]; rfl) ht hw rfl rfl rfl
  case fired c now m w g norm h hw ht hg hn hsub =>
    simp only [System.Covers, h, hw] at hk
    exact hs.stage_fire hids (m := m) (by rw [h]; rfl) ht hw (by rw [h]; rfl)
      (hk ⟨ht, g, norm, hg, hn, hsub⟩) rfl rfl rfl
  case beat c now m w h hw ht =>
    exact hs.stage_hold (m := m) (by rw [h]; rfl) rfl fun _ => ht
  case ignored c now m w h hw ht ht' ht'' =>
    exact hs.stage_drop (m := m) (by rw [h]; rfl) rfl fun e => rfl
  case heartbeat c now m w h hw =>
    refine hs.stage_reply (m := m) (by rw [h]; rfl) ?_
    intro q hq hb
    have ht := hb (by rw [h]; rfl)
    subst hq
    cases q <;> cases ht
    exact ⟨trivial, id⟩
  case applied c now r st h ha =>
    exact System.stage_goto hst (fun _ => by rw [h]; simp [Handler.Free, Handler.Parked])
      (Or.inl (by rw [h]; rfl))
  case applyRaised c now r st e h ha =>
    exact System.stage_quit (s := { s.sys with store := st }) hst (by rw [h]; rfl)
  case getStep c now r h =>
    exact System.stage_ackNext hst (by rw [h]; rfl) (by rw [h]; rfl) (Or.inl (by rw [h]; rfl))
  case replyPart c n resp rest h hd hn hl =>
    have htalk : (s.sys.conns c).handler.talk c c = some (some (resp, rest)) := by simp [h]
    refine hs.stage_part htalk hl (by simp) ?_
      (by simp [h, Handler.Free]) (by simp [Handler.Replying]) (by rw [h]; rfl) (Or.inr rfl)
    intro e he
    simp [h, he]
  case replyEnd c resp rest h hd =>
    by_cases hdc : d = c
    · subst hdc
      have htalk : (s.sys.conns d).handler.talk d d = some (some (resp, rest)) := by simp [h]
      exact hs.stage_finish htalk rfl rfl
    · rw [System.view_goto_of_ne hdc (by simp [h, hdc]; rfl), s.sys.view_send rest (hs.consumed d)]
      simpa [hdc] using hst
  case ackPart c n r step e todo rest h hd hn hl =>
    have htalk : (s.sys.conns c).handler.talk c e = some (some (.ack step, rest)) := by
      rw [h, Handler.talk_acks, if_pos rfl]
    refine hs.stage_part htalk hl (by rw [Handler.talk_acks, if_pos rfl]) ?_
      (by simp [Handler.Free]) (by rw [h]; simp [Handler.Replying]) (by rw [h]; rfl)
      (Or.inl (by rw [h]; rfl))
    intro d hd
    rw [h, Handler.talk_acks, Handler.talk_acks, if_neg hd, if_neg hd]
  case ackEnd c r step e todo rest h hd => exact hs.stage_ackEnd h d
  case emit c now r step h =>
    exact System.stage_goto hst (fun _ => by rw [h]; simp [Handler.Free, Handler.Parked])
      (Or.inl (by rw [h]; rfl))
  case checkpoint c now step h =>
    refine System.stage_goto hst ?_ (Or.inl ?_)
    · intro _
      rw [h]
      split_ifs <;> simp [Handler.Free, Handler.Parked]
    · rw [h]
      split_ifs <;> rfl
  case checkpointAssign c now step h =>
    exact System.stage_goto hst (fun _ => by rw [h]; simp [Handler.Free, Handler.Parked])
      (Or.inl (by rw [h]; rfl))
  case checkpointSave c now h =>
    exact System.stage_goto hst (fun _ => by rw [h]; simp [Handler.Free, Handler.Parked])
      (Or.inl (by rw [h]; rfl))
  case markDead c now w h hw =>
    exact System.stage_goto hst (fun _ => by rw [h]; simp [Handler.Free, Handler.Parked])
      (Or.inl (by rw [h]; rfl))
  case unregister c now w h hw =>
    obtain rfl := hs.identity c w hw
    exact hs.stage_unregister hids h d
  case close c now h =>
    exact System.stage_goto hst (fun _ => by rw [h]; simp [Handler.Free, Handler.Parked])
      (Or.inl (by rw [h]; rfl))
  case recvFail c h he =>
    exact System.stage_quit hst (by rw [h]; rfl)
  case replyFail c resp rest h he => exact hs.stage_replyFail h d
  case ackFail c r step e todo rest h hb => exact hs.stage_ackFail h d
  case saveFail c h =>
    exact System.stage_quit hst (by rw [h]; rfl)

/-! ### The other parts of the invariant -/

lemma identity_step (hs : s.Sound env ids) (hr : Rule env s.sys a sys) {w : WorkerId}
    (hw : (sys.conns d).workerId = some w) : w = ids d := by
  rcases hr.workerId_cases d with he | ⟨m, rest, v, hi, hm, hv, -⟩
  · exact hs.identity d w (he ▸ hw)
  · obtain ⟨q, -, hx, -⟩ := (hs.stage d).of_inbox hi
    cases hx
    rw [hw] at hv
    cases hv
    cases q <;> exact (Option.some.inj hm).symm

lemma actor_seated (hr : Rule env s.sys a sys) (ha : a.conn = some c)
    (hseat : (sys.conns c).handler.Seated) :
    (s.sys.conns c).handler.Seated ∨ ∃ m, (s.sys.conns c).handler = .registerSocket m := by
  cases hr <;> cases ha
  case registerSocket now m w h hw => exact Or.inr ⟨m, h⟩
  case arrive => exact Or.inl (by simpa using hseat)
  case hangup => exact Or.inl (by simpa using hseat)
  all_goals simp_all [Handler.Seated]

lemma seated_step (hs : s.Sound env ids) (hids : Function.Injective ids)
    (hr : Rule env s.sys a sys) {w : WorkerId} (hw : (sys.conns d).workerId = some w)
    (hseat : (sys.conns d).handler.Seated) : sys.agg.sockets.get? w = some d := by
  have hw₀ : (s.sys.conns d).workerId = some w := by
    rcases hr.workerId_cases d with he | ⟨m, -, -, -, -, -, h⟩
    · exact he ▸ hw
    · rw [h] at hseat
      cases hseat
  have hseat₀ : (s.sys.conns d).handler.Seated ∨
      a.conn = some d ∧ ∃ m, (s.sys.conns d).handler = .registerSocket m := by
    by_cases ha : a.conn = some d
    · exact (actor_seated hr ha hseat).imp_right fun h => ⟨ha, h⟩
    · exact Or.inl (hr.handler_of_ne ha ▸ hseat)
  have hwd := hs.identity d w hw₀
  have hold := hs.seated d w hw₀
  cases hr
  case registerSocket c now m v h hv =>
    by_cases hdc : d = c
    · subst hdc
      simp [hwd, hs.identity d v hv]
    · have hne : w ≠ v := by
        rw [hwd, hs.identity c v hv]
        exact fun h => hdc (hids h)
      have hseat' : (s.sys.conns d).handler.Seated := by simpa [hdc] using hseat
      simpa [hne] using hold hseat'
  case unregister c now v h hv =>
    by_cases hdc : d = c
    · subst hdc
      simp [Handler.Seated] at hseat
    · have hne : w ≠ v := by
        rw [hwd, hs.identity c v hv]
        exact fun h => hdc (hids h)
      have hseat' : (s.sys.conns d).handler.Seated := by simpa [hdc] using hseat
      simpa [hne] using hold hseat'
  all_goals
    refine hold (hseat₀.resolve_right ?_)
    rintro ⟨ha, m, hm⟩
    cases ha <;> simp_all [Handler.Seated]

lemma entries_step (hs : s.Sound env ids) (hr : Rule env s.sys a sys) :
    ∀ w ∈ sys.agg.buffer.keys, w ∈ sys.agg.sockets.keys := by
  have henter : ∀ {c m w δ}, (s.sys.conns c).handler = .dispatch m →
      (s.sys.conns c).workerId = some w → ∀ v ∈ (s.sys.agg.buffer.set w δ).keys,
        v ∈ s.sys.agg.sockets.keys := by
    intro c m w δ h hw v hv
    rcases Dict.mem_keys_set.mp hv with rfl | hv
    · exact Dict.mem_keys_iff.mpr ⟨c, hs.seated c v hw (by rw [h]; rfl)⟩
    · exact hs.entries v hv
  cases hr
  case raised c now m w g e h hw ht hg hn => exact henter h hw
  case buffered c now m w g norm h hw ht hg hn hsub => exact henter h hw
  case fired => exact fun v hv => by cases hv
  case registerSocket c now m w h hw =>
    exact fun v hv => Dict.mem_keys_set.mpr (Or.inr (hs.entries v hv))
  case unregister c now w h hw =>
    intro v hv
    obtain ⟨hv, hne⟩ := Dict.mem_keys_erase.mp hv
    exact Dict.mem_keys_erase.mpr ⟨hs.entries v hv, hne⟩
  all_goals exact hs.entries

lemma consumed_step (hs : s.Sound env ids) (hr : Rule env s.sys a sys) :
    (s.clients d).consumed ≤ (sys.conns d).written.length := by
  refine (hs.consumed d).trans ?_
  cases hr
  case scan => exact le_refl _
  all_goals
    simp only [System.heartbeat, System.written_goto, System.written_send, System.written_reset,
      System.conns_setConn]
    first
      | exact le_refl _
      | split_ifs with hdc <;> simp [hdc]

lemma sent_step (hs : s.Sound env ids) (hr : Rule env s.sys a sys) (hi : a.Internal = true) :
    (s.clients d).sent = (sys.conns d).received + (sys.conns d).inbox.length := by
  rw [hs.sent d]
  cases hr
  case arrive => cases hi
  case scan => rfl
  case unreadable c now rest h hin =>
    by_cases hdc : d = c
    · subst hdc
      simp [hin, Nat.add_assoc, Nat.add_comm]
    · simp [hdc]
  case anonymous c now m rest h hin hw hm =>
    by_cases hdc : d = c
    · subst hdc
      simp [hin, Nat.add_assoc, Nat.add_comm]
    · simp [hdc]
  case identify c now m rest w h hin hw hm =>
    by_cases hdc : d = c
    · subst hdc
      simp [hin, Nat.add_assoc, Nat.add_comm]
    · simp [hdc]
  case next c now m rest w h hin hw =>
    by_cases hdc : d = c
    · subst hdc
      simp [hin, Nat.add_assoc, Nat.add_comm]
    · simp [hdc]
  case hangup c h => by_cases hdc : d = c <;> simp [hdc]
  all_goals simp [System.heartbeat]

/-! ### The steps of the cluster -/

lemma connect (hs : s.Sound env ids) (hids : Function.Injective ids)
    (hp : (s.clients c).phase = .away) (hstep : s.sys.step env (.accept c) = some sys) :
    ({ s with sys := sys }.setClient c { s.clients c with phase := .idle }).Sound env ids := by
  have hr := System.rule_of_step hstep
  refine ⟨fun d w hw => hs.identity_step hr hw, hr.sendsInv trivial hs.sends,
    fun d w hw hseat => hs.seated_step hids hr hw hseat, hs.entries_step hr, ?_,
    ?_, ?_⟩
  · intro d
    have hsent := hs.sent d
    cases hr
    by_cases hdc : d = c
    · subst hdc
      simpa using hsent
    · simpa [hdc] using hsent
  · intro d
    have hcons := hs.consumed_step (d := d) hr
    by_cases hdc : d = c
    · subst hdc
      simpa using hcons
    · simpa [hdc] using hcons
  · intro d
    cases hr with
    | accept h =>
      by_cases hdc : d = c
      · subst hdc
        obtain ⟨hi, hu, he, ht⟩ := (hs.stage d).of_away hp
        simp only [sys_setClient, clients_setClient, if_true]
        rw [System.view_goto]
        refine .idle rfl (by simp [Handler.Free]) hi hu he ?_
        intro t
        by_cases htd : t = d
        · simp only [htd, Function.update_self]
          rfl
        · exact (Function.update_of_ne htd _ _).trans (ht t)
      · simp only [sys_setClient, clients_setClient, hdc, if_false]
        rw [System.view_goto_of_ne hdc (by rw [h]; rfl)]
        exact hs.stage d

lemma request (hs : s.Sound env ids) (hids : Function.Injective ids) {q : Request α}
    (hp : (s.clients c).phase = .idle)
    (hstep : s.sys.step env (.arrive c (.message (q.message (ids c)))) = some sys) :
    ({ s with sys := sys }.setClient c ((s.clients c).call q)).Sound env ids := by
  have hr := System.rule_of_step hstep
  refine ⟨fun d w hw => hs.identity_step hr hw, hr.sendsInv trivial hs.sends,
    fun d w hw hseat => hs.seated_step hids hr hw hseat, hs.entries_step hr, ?_,
    ?_, ?_⟩
  · intro d
    have hsent := hs.sent d
    cases hr
    by_cases hdc : d = c
    · subst hdc
      simp [Client.call, hsent, Nat.add_assoc]
    · simpa [hdc] using hsent
  · intro d
    have hcons := hs.consumed_step (d := d) hr
    by_cases hdc : d = c
    · subst hdc
      simpa [Client.call] using hcons
    · simpa [hdc] using hcons
  · intro d
    cases hr with
    | arrive h he =>
      by_cases hdc : d = c
      · subst hdc
        obtain ⟨hf, hi, hu, he, ht⟩ := (hs.stage d).of_idle hp
        simp only [sys_setClient, clients_setClient, if_true]
        rw [System.view_setConn]
        simp only [if_true]
        refine .queued rfl hf ?_ hu he ?_
        · have hin : (s.sys.conns d).inbox = [] := hi
          simp [hin]
        · intro t
          have hut : Function.update (s.sys.view ((s.clients d).call q) (ids d) d).talk d
              ((s.sys.conns d).handler.talk d d) =
              (s.sys.view ((s.clients d).call q) (ids d) d).talk := Function.update_eq_self ..
          rw [hut]
          exact ht t
      · simp only [sys_setClient, clients_setClient, hdc, if_false]
        rw [System.view_setConn_of_ne hdc]
        · exact hs.stage d
        · rfl

lemma leave (hs : s.Sound env ids) (hids : Function.Injective ids)
    (hstep : s.sys.step env (.hangup c) = some sys) :
    ({ s with sys := sys }.setClient c { s.clients c with left := true }).Sound env ids := by
  have hr := System.rule_of_step hstep
  refine ⟨fun d w hw => hs.identity_step hr hw, hr.sendsInv trivial hs.sends,
    fun d w hw hseat => hs.seated_step hids hr hw hseat, hs.entries_step hr, ?_,
    ?_, ?_⟩
  · intro d
    have hsent := hs.sent d
    cases hr
    by_cases hdc : d = c
    · subst hdc
      simpa using hsent
    · simpa [hdc] using hsent
  · intro d
    have hcons := hs.consumed_step (d := d) hr
    by_cases hdc : d = c
    · subst hdc
      simpa using hcons
    · simpa [hdc] using hcons
  · intro d
    have hview : sys.view (s.clients d) (ids d) d = s.sys.view (s.clients d) (ids d) d := by
      cases hr
      by_cases hdc : d = c
      · subst hdc
        have hut : Function.update (s.sys.view (s.clients d) (ids d) d).talk d
            ((s.sys.conns d).handler.talk d d) = (s.sys.view (s.clients d) (ids d) d).talk :=
          Function.update_eq_self ..
        rw [System.view_setConn]
        simp only [if_true, hut]
        rfl
      · exact System.view_setConn_of_ne hdc rfl
    have hst := hs.stage d
    rw [← hview] at hst
    by_cases hdc : d = c
    · subst hdc
      simp only [sys_setClient, clients_setClient, if_true]
      exact hst
    · simpa only [sys_setClient, clients_setClient, hdc, if_false] using hst

/-- No assertion of a worker has failed. -/
lemma not_failed (hs : s.Sound env ids) (d : ConnId) : (s.clients d).phase.Failed = false := by
  cases hs.stage d <;> simp_all [System.view, Phase.Failed]

/-- What a worker reads is the answer to its request. -/
lemma decode_of_split (hs : s.Sound env ids) (hp : env.pickle.Lawful) {q : Request α}
    {payload rest : List UInt8} (hq : (s.clients c).phase = .waiting q)
    (hf : splitFrame (s.unread c) = some (payload, rest)) :
    ∃ m, q.Expects m ∧ payload = env.pickle.dumps m ∧ rest = [] ∧
      decode env (s.clients c) q payload = (s.clients c).finish q m := by
  obtain ⟨q', m, hq', hm, hpay, hrest, -⟩ := (hs.stage c).of_split hf
  obtain rfl : q' = q := Phase.waiting.inj (hq'.symm.trans hq)
  exact ⟨m, hm, hpay, hrest, by simp only [decode, hpay, hp m]⟩

/-- A worker reads an answer: it is the one to its request. -/
lemma receive (hs : s.Sound env ids) (hp : env.pickle.Lawful) {q : Request α}
    {payload rest : List UInt8} (hq : (s.clients c).phase = .waiting q)
    (hf : splitFrame (s.unread c) = some (payload, rest)) :
    (s.setClient c { decode env (s.clients c) q payload with
      consumed := (s.clients c).consumed + ((s.unread c).length - rest.length) }).Sound env ids := by
  obtain ⟨m, hm, -, rfl, hdec⟩ := hs.decode_of_split hp hq hf
  obtain ⟨_, _, -, -, -, -, hfree, hi, he, ht⟩ := (hs.stage c).of_split hf
  have hlen : (s.clients c).consumed + ((s.unread c).length - ([] : List UInt8).length) =
      (s.sys.conns c).written.length := by
    have := hs.consumed c
    simp only [unread, List.length_drop, List.length_nil]
    omega
  have hsent : ((s.clients c).finish q m).sent = (s.clients c).sent := by
    cases q <;> cases m <;> rfl
  rw [hdec, hlen]
  refine ⟨hs.identity, hs.sends, hs.seated, hs.entries, ?_, ?_, ?_⟩
  · intro d
    by_cases hdc : d = c
    · subst hdc
      simpa [hsent] using hs.sent d
    · simpa [hdc] using hs.sent d
  · intro d
    by_cases hdc : d = c
    · simp [hdc]
    · simpa [hdc] using hs.consumed d
  · intro d
    by_cases hdc : d = c
    · subst hdc
      simp only [sys_setClient, clients_setClient, if_true]
      exact .idle (Client.phase_finish _ hm) hfree hi (by simp [System.view]) he ht
    · simpa only [sys_setClient, clients_setClient, hdc, if_false] using hs.stage d

lemma server (hs : s.Sound env ids) (hids : Function.Injective ids) (hk : s.sys.Covers env a)
    (hi : a.Internal = true) (hstep : s.sys.step env a = some sys) :
    ({ s with sys := sys } : Cluster α).Sound env ids := by
  have hr := System.rule_of_step hstep
  exact ⟨fun d w hw => hs.identity_step hr hw, hr.sendsInv (hs.sendsApart hids hk) hs.sends,
    fun d w hw hseat => hs.seated_step hids hr hw hseat, hs.entries_step hr,
    fun d => hs.sent_step hr hi, fun d => hs.consumed_step hr, hs.stage_server hids hk hi hr⟩

/-- A covered step keeps the invariant. -/
lemma step (hs : s.Sound env ids) (hids : Function.Injective ids) (hp : env.pickle.Lawful)
    {a : ClusterAction α} (hstep : s.step env ids a = some s') (hk : s.Covers env a) :
    s'.Sound env ids := by
  cases rule_of_step hstep with
  | connect hph hs' => exact hs.connect hids hph hs'
  | request hph hl hs' => exact hs.request hids hph hs'
  | receive hph hl hf => exact hs.receive hp hph hf
  | leave hph hs' => exact hs.leave hids hs'
  | server hi hs' => exact hs.server hids hk hi hs'

end Sound

end Cluster

end DistributedRL
