import DistributedRL.Server.Freshness
import DistributedRL.Server.Resume
import DistributedRL.Worker.Completion

/-!
# Rounds one after the other

In a healthy run in synchronous mode, no thread completes a round while another one is still inside
`submit`: the worker of that thread has not pushed again. So the concurrent server goes along the
update path as if there was one thread that applies a round, sends its ACKs and saves its checkpoint
before it looks at the next one. In particular the checkpoints come at fixed steps.
-/

namespace DistributedRL

variable {α : Type*} [Scalar α]

/-- What is left of `submit` on the update path once the round has been applied. -/
def Handler.complete (config : Option AggregatorConfig) (p : UpdatePath α) :
    Handler α → UpdatePath α
  | .getStep _ => p.maybeCheckpoint config p.store.globalStep
  | .acks _ step _ _ | .emit _ step | .checkpoint step => p.maybeCheckpoint config step
  | .checkpointAssign step => (p.mark step).save
  | .checkpointSave => p.save
  | _ => p

omit [Scalar α] in
/-- What has been pushed in the rounds that have been applied, oldest first. -/
def System.rounds (s : System α) : List (List (Payload α)) :=
  (s.history.applied.map fun x => x.deltas.map Delta.grads).reverse

namespace UpdatePath

/-- The store after the rounds. -/
def after (st : WeightStore α) (gs : List (List (Payload α))) : WeightStore α :=
  gs.foldl (fun st g => (st.applyGradients g).1) st

/-- `apply_gradients` returns in every round. -/
def Applies : WeightStore α → List (List (Payload α)) → Prop
  | _, [] => True
  | st, g :: gs => (st.applyGradients g).2 = .ok () ∧ Applies (st.applyGradients g).1 gs

end UpdatePath

/-- One thread at a time is inside `submit`, and what it has left to do there leads to where a server
stands that goes through the rounds one after the other. -/
structure System.Serial (config : Option AggregatorConfig) (st : WeightStore α) (s : System α) :
    Prop where
  returns : UpdatePath.Applies st s.rounds
  store : s.store = UpdatePath.after st s.rounds
  single : ∀ t u, (s.conns t).handler.InSubmit = true → (s.conns u).handler.InSubmit = true → t = u
  path : ∀ t, (∀ u ≠ t, (s.conns u).handler.InSubmit = false) →
    ((s.conns t).handler.complete config s.updatePath).Agree []
      ((UpdatePath.start st).rounds config s.rounds)

namespace UpdatePath

variable {config : Option AggregatorConfig} {p q o : UpdatePath α}

omit [Scalar α] in
lemma Agree.refl (p : UpdatePath α) : p.Agree [] p := ⟨rfl, rfl, by simp⟩

omit [Scalar α] in
lemma Agree.trans (h : p.Agree [] q) (h' : q.Agree [] o) : p.Agree [] o where
  store := h.store.trans h'.store
  last := h.last.trans h'.last
  checkpoints := by rw [h.checkpoints, h'.checkpoints, List.append_nil]

omit [Scalar α] in
lemma Agree.mark (h : p.Agree [] q) (step : ℕ) : (p.mark step).Agree [] (q.mark step) :=
  ⟨h.store, rfl, h.checkpoints⟩

omit [Scalar α] in
lemma Agree.save (h : p.Agree [] q) : p.save.Agree [] q.save where
  store := h.store
  last := h.last
  checkpoints := by simp only [UpdatePath.save, h.store, h.checkpoints, List.cons_append]

omit [Scalar α] in
lemma Agree.complete (h : p.Agree [] q) (t : Handler α) :
    (t.complete config p).Agree [] (t.complete config q) := by
  cases t with
  | getStep r =>
    rw [Handler.complete, Handler.complete, h.store]
    exact h.maybeCheckpoint _
  | acks r step todo rest => exact h.maybeCheckpoint step
  | emit r step => exact h.maybeCheckpoint step
  | checkpoint step => exact h.maybeCheckpoint step
  | checkpointAssign step => exact (h.mark step).save
  | checkpointSave => exact h.save
  | _ => exact h

lemma rounds_append (p : UpdatePath α) (gs hs : List (List (Payload α))) :
    p.rounds config (gs ++ hs) = (p.rounds config gs).rounds config hs :=
  List.foldl_append ..

/-- One more round, which returns. -/
lemma rounds_concat {p : UpdatePath α} {gs : List (List (Payload α))} {g : List (Payload α)}
    {st : WeightStore α} (hok : (p.rounds config gs).store.applyGradients g = (st, .ok ())) :
    p.rounds config (gs ++ [g]) =
      maybeCheckpoint config { p.rounds config gs with store := st } st.globalStep := by
  rw [rounds_append]
  show (p.rounds config gs).round config g = _
  rw [round, hok]

/-- Once a round has been applied, what is left of it is `_maybe_checkpoint`. -/
lemma Agree.applied {o : UpdatePath α} {gs : List (List (Payload α))} {g : List (Payload α)}
    {st : WeightStore α} (h : p.Agree [] (o.rounds config gs))
    (hok : p.store.applyGradients g = (st, .ok ())) :
    (UpdatePath.maybeCheckpoint config { p with store := st } st.globalStep).Agree []
      (o.rounds config (gs ++ [g])) := by
  have hstore : Agree [] { p with store := st } { o.rounds config gs with store := st } :=
    ⟨rfl, h.last, h.checkpoints⟩
  rw [rounds_concat (h.store ▸ hok)]
  exact hstore.maybeCheckpoint _

end UpdatePath

namespace Handler

variable {config : Option AggregatorConfig} {h : Handler α}

omit [Scalar α] in
lemma complete_of_not_inSubmit (hout : h.InSubmit = false) (p : UpdatePath α) :
    h.complete config p = p := by
  cases h <;> first | rfl | cases hout

end Handler

/-! ### Checkpoints of rounds that all return -/

namespace UpdatePath

variable {st : WeightStore α} {gs hs : List (List (Payload α))} {g : List (Payload α)}

lemma after_append : after st (gs ++ hs) = after (after st gs) hs := List.foldl_append ..

lemma applies_append : Applies st (gs ++ hs) ↔ Applies st gs ∧ Applies (after st gs) hs := by
  induction gs generalizing st with
  | nil => simp [Applies, after]
  | cons g gs ih =>
    rw [List.cons_append, Applies, Applies, ih, and_assoc]
    rfl

lemma Applies.globalStep (h : Applies st gs) :
    (after st gs).globalStep = st.globalStep + gs.length := by
  induction gs generalizing st with
  | nil => rfl
  | cons g gs ih =>
    obtain ⟨hok, hrest⟩ := h
    have hstep : (st.applyGradients g).1.globalStep = st.globalStep + 1 :=
      WeightStore.globalStep_of_ok (Prod.ext rfl hok)
    rw [List.length_cons, Nat.add_comm gs.length, ← Nat.add_assoc, ← hstep]
    exact ih hrest

variable {cfg : AggregatorConfig} {k : ℕ}

/-- The checkpoints that are there after `n` rounds, newest first, one for every `k` rounds. -/
def every (st : WeightStore α) (k : ℕ) (gs : List (List (Payload α))) (j : ℕ) :
    List (Checkpoint α) :=
  ((List.range j).map fun i => (after st (gs.take (k * (i + 1)))).checkpoint).reverse

lemma every_succ (j : ℕ) : every st k gs (j + 1) =
    (after st (gs.take (k * (j + 1)))).checkpoint :: every st k gs j := by
  rw [every, List.range_succ, List.map_append, List.reverse_append]
  rfl

lemma every_append {j : ℕ} (h : k * j ≤ gs.length) : every st k (gs ++ hs) j = every st k gs j := by
  rw [every, every]
  refine congrArg _ (List.map_congr_left fun i hi => ?_)
  have hi' : k * (i + 1) ≤ k * j := Nat.mul_le_mul_left k (List.mem_range.mp hi)
  rw [List.take_append_of_le_length (hi'.trans h)]

/-- The settings of the store stay. -/
lemma after_settings (st : WeightStore α) (gs : List (List (Payload α))) :
    (after st gs).baseLr = st.baseLr ∧ (after st gs).momentum = st.momentum := by
  induction gs generalizing st with
  | nil => exact ⟨rfl, rfl⟩
  | cons g gs ih =>
    obtain ⟨hlr, hm⟩ := st.baseLr_applyGradients g
    obtain ⟨hlr', hm'⟩ := ih (st.applyGradients g).1
    exact ⟨hlr'.trans hlr, hm'.trans hm⟩

lemma store_rounds_after (config : Option AggregatorConfig) (p : UpdatePath α)
    (gs : List (List (Payload α))) : (p.rounds config gs).store = after p.store gs := by
  induction gs generalizing p with
  | nil => rfl
  | cons g gs ih =>
    show ((p.round config g).rounds config gs).store = _
    rw [ih, store_round]
    rfl

/-- Rounds that all return are saved whenever `k` of them have been done. -/
lemma rounds_of_applies (hcfg : cfg.checkpointInterval = k) (hk : 1 ≤ k) (h : Applies st gs) :
    ((start st).rounds (some cfg) gs).store = after st gs ∧
      ((start st).rounds (some cfg) gs).agg.lastCheckpointStep =
        st.globalStep + k * (gs.length / k) ∧
      ((start st).rounds (some cfg) gs).checkpoints = every st k gs (gs.length / k) := by
  induction gs using List.reverseRecOn with
  | nil => simp [rounds, start, after, every, GradientAggregator.init]
  | append_singleton gs g ih =>
    obtain ⟨hgs, hok, -⟩ := applies_append.mp h
    obtain ⟨hstore, hlast, hsaved⟩ := ih hgs
    have happly : (after st gs).applyGradients g = (after st (gs ++ [g]), .ok ()) :=
      Prod.ext (by rw [after_append]; rfl) hok
    have hstep : (after st (gs ++ [g])).globalStep = st.globalStep + (gs.length + 1) := by
      rw [h.globalStep, List.length_append]
      rfl
    have hround : (start st).rounds (some cfg) (gs ++ [g]) = maybeCheckpoint (some cfg)
        { (start st).rounds (some cfg) gs with store := after st (gs ++ [g]) }
        (st.globalStep + (gs.length + 1)) := by
      rw [← hstep]
      exact rounds_concat (hstore ▸ happly)
    have hdue : ((start st).rounds (some cfg) gs).agg.CheckpointDue (some cfg)
        (st.globalStep + (gs.length + 1)) ↔ k * (gs.length / k + 1) ≤ gs.length + 1 := by
      simp only [GradientAggregator.CheckpointDue, Option.mem_some_iff, exists_eq_left', hcfg, hlast]
      generalize gs.length / k = j
      push_cast
      rw [not_lt, Nat.mul_succ]
      omega
    have hlt : gs.length < k * (gs.length / k + 1) := Nat.lt_mul_div_succ _ hk
    have hle : k * (gs.length / k) ≤ gs.length := Nat.mul_div_le _ _
    rw [hround, List.length_append, List.length_singleton, maybeCheckpoint]
    split_ifs with hd
    · -- a save is due, so that the number of rounds is a multiple of `k`
      have hmul : gs.length + 1 = k * (gs.length / k + 1) := le_antisymm hlt (hdue.mp hd)
      have hdiv : (gs.length + 1) / k = gs.length / k + 1 := Nat.div_eq_of_eq_mul_right hk hmul
      refine ⟨rfl, ?_, ?_⟩
      · rw [hdiv, ← hmul]
        rfl
      · rw [hdiv, every_succ, ← hmul, every_append hle, List.take_of_length_le (by simp), ← hsaved]
        rfl
    · have hdiv : (gs.length + 1) / k = gs.length / k :=
        Nat.div_eq_of_lt_le (by rw [Nat.mul_comm]; omega)
          (by rw [Nat.mul_comm]; exact not_le.mp (hd ∘ hdue.mpr))
      rw [hdiv, every_append hle]
      exact ⟨rfl, hlast, hsaved⟩

end UpdatePath

/-! ### Who comes to be in `submit` -/

section Rules

variable {env : ServerEnv α} {s s' : System α} {a : Action α} {t u : ConnId}

omit [Scalar α] in
@[simp] lemma System.inSubmit_exit (s : System α) (c : ConnId) : (s.exit c).InSubmit = false := by
  rcases s.exit_cases c with h | h <;> rw [h] <;> rfl

omit [Scalar α] in
@[simp] lemma System.inSubmit_replying (env : ServerEnv α) (s : System α) (c : ConnId)
    (resp : Response α) : (s.replying env c resp).InSubmit = false := by
  rcases s.replying_cases c env resp with ⟨_, -, h⟩ | h <;> rw [h]
  · rfl
  · exact s.inSubmit_exit c

lemma Rule.actor_inSubmit_of (hr : Rule env s a s') (ha : a.conn = some t)
    (h : (s'.conns t).handler.InSubmit = true) : (s.conns t).handler.InSubmit = true ∨
      ∃ now m w, a = .run t now ∧ (s.conns t).handler = .dispatch m ∧
        (s.conns t).workerId = some w ∧ s.Fires env t w m := by
  cases hr <;> cases ha
  case fired now m w g norm ht hg hn hh hw hs =>
    exact Or.inr ⟨now, m, w, rfl, hh, hw, ht, g, norm, hg, hn, hs⟩
  case arrive => exact Or.inl (by simpa using h)
  case hangup => exact Or.inl (by simpa using h)
  case applied hh => exact Or.inl (by rw [hh]; rfl)
  case applyRaised hh => exact Or.inl (by rw [hh]; rfl)
  case getStep hh => exact Or.inl (by rw [hh]; rfl)
  case ackPart hh => exact Or.inl (by rw [hh]; rfl)
  case ackEnd hh => exact Or.inl (by rw [hh]; rfl)
  case ackFail hh => exact Or.inl (by rw [hh]; rfl)
  case emit hh => exact Or.inl (by rw [hh]; rfl)
  case checkpoint hh => exact Or.inl (by rw [hh]; rfl)
  case checkpointAssign hh => exact Or.inl (by rw [hh]; rfl)
  case checkpointSave hh => exact Or.inl (by rw [hh]; rfl)
  case saveFail hh => exact Or.inl (by rw [hh]; rfl)
  all_goals
    simp only [System.heartbeat, System.handler_goto, System.conns_setConn, if_true,
      System.inSubmit_exit, System.inSubmit_replying] at h
    cases h

/-- A thread is inside `submit` if it was before, or has just completed a round. -/
lemma Rule.inSubmit_of (hr : Rule env s a s') (h : (s'.conns t).handler.InSubmit = true) :
    (s.conns t).handler.InSubmit = true ∨
      ∃ now m w, a = .run t now ∧ (s.conns t).handler = .dispatch m ∧
        (s.conns t).workerId = some w ∧ s.Fires env t w m := by
  by_cases ha : a.conn = some t
  · exact hr.actor_inSubmit_of ha h
  · exact Or.inl (hr.handler_of_ne ha ▸ h)

end Rules

/-! ### Along the update path -/

namespace System

variable {env : ServerEnv α} {s s' : System α} {a : Action α} {st : WeightStore α} {t c : ConnId}

omit [Scalar α] in
/-- In the ACK loop, what is left of `submit` is `_maybe_checkpoint`. -/
lemma complete_acking [Scalar α] {r : Round α} {step : ℕ} {todo : List ConnId}
    (hq : (s.acking env c r step todo).Quit = false) (p : UpdatePath α) :
    (s.acking env c r step todo).complete env.config p = p.maybeCheckpoint env.config step := by
  rcases s.acking_cases c env r step todo with ⟨-, he⟩ | ⟨-, bytes, -, he⟩ | he
  · rw [he]
    rfl
  · rw [he]
    rfl
  · rw [he, quit_exit] at hq
    cases hq

/-- A thread that does not quit does what it had left to do. -/
lemma actor_complete (hr : Rule env s a s') (ha : a.conn = some t)
    (hq : (s'.conns t).handler.Quit = false)
    (h : ((s.conns t).handler.complete env.config s.updatePath).Agree []
      ((UpdatePath.start st).rounds env.config s.rounds)) :
    ((s'.conns t).handler.complete env.config s'.updatePath).Agree []
      ((UpdatePath.start st).rounds env.config s'.rounds) := by
  have hgoes : ∀ {h₁ h₂ : Handler α}, (s.conns t).handler = h₁ → (s'.conns t).handler = h₂ →
      (h₂.complete env.config s'.updatePath).Agree [] (h₁.complete env.config s.updatePath) →
      s'.rounds = s.rounds →
      ((s'.conns t).handler.complete env.config s'.updatePath).Agree []
        ((UpdatePath.start st).rounds env.config s'.rounds) := by
    intro h₁ h₂ hh hh' hpath hrounds
    rw [hh', hrounds]
    exact hpath.trans (hh ▸ h)
  have hframe : (s.conns t).handler.InSubmit = false → (s'.conns t).handler.InSubmit = false →
      s'.updatePath.Agree [] s.updatePath → s'.rounds = s.rounds →
      ((s'.conns t).handler.complete env.config s'.updatePath).Agree []
        ((UpdatePath.start st).rounds env.config s'.rounds) := by
    intro hout hout' hpath hrounds
    refine hgoes rfl rfl ?_ hrounds
    rwa [Handler.complete_of_not_inSubmit hout, Handler.complete_of_not_inSubmit hout']
  cases hr <;> cases ha
  case fired now m w g norm ht hg hn hh hw hs =>
    refine hgoes hh (by simp : _ = Handler.apply (s.agg.enter w (s.delta t g) norm).round) ?_ rfl
    exact ⟨rfl, rfl, (List.append_nil _).symm⟩
  case applied now r st' hok hh =>
    have hpath : s.updatePath.Agree [] ((UpdatePath.start st).rounds env.config s.rounds) := by
      rw [hh] at h
      exact h
    have hrounds : ({ s with store := st', history := s.history.apply r s.store st' }.goto t
        (.getStep r)).rounds = s.rounds ++ [r.deltas.map Delta.grads] := by
      simp [rounds, History.apply]
    rw [handler_goto, if_pos rfl, hrounds]
    exact hpath.applied hok
  case getStep now r hh =>
    simp only [handler_goto, if_true] at hq
    refine hgoes hh (by simp : _ = s.acking env t r s.store.globalStep r.sockets.values) ?_ rfl
    rw [complete_acking hq]
    exact .refl _
  case ackPart n r step d todo rest hd hn hl hh =>
    exact hgoes hh (by simp : _ = Handler.acks r step (d :: todo) (rest.drop n)) (.refl _) rfl
  case ackEnd r step d todo rest hd hh =>
    simp only [handler_goto, if_true] at hq
    refine hgoes hh (by simp : _ = System.acking env
      { s.send d rest with history := s.history.ack d r step } t r step todo) ?_ rfl
    rw [complete_acking hq]
    exact .refl _
  case ackFail r step d todo rest hb hh =>
    simp only [handler_goto, if_true] at hq
    refine hgoes hh (by simp : _ = (s.reset d).acking env t r step todo) ?_ rfl
    rw [complete_acking hq]
    exact .refl _
  case emit now r step hh =>
    exact hgoes hh (by simp : _ = Handler.checkpoint step) (.refl _) rfl
  case checkpoint now step hh =>
    by_cases hdue : s.agg.CheckpointDue env.config step
    · have hm : s.updatePath.maybeCheckpoint env.config step = (s.updatePath.mark step).save :=
        if_pos hdue
      refine hgoes hh (by simp [hdue] : _ = Handler.checkpointAssign step) ?_ rfl
      rw [Handler.complete, Handler.complete, hm]
      exact .refl _
    · have hm : s.updatePath.maybeCheckpoint env.config step = s.updatePath := if_neg hdue
      refine hgoes hh (by simp [hdue] : _ = Handler.recv) ?_ rfl
      show UpdatePath.Agree [] s.updatePath (s.updatePath.maybeCheckpoint env.config step)
      rw [hm]
      exact .refl _
  case checkpointAssign hh => exact hgoes hh (by simp : _ = Handler.checkpointSave) (.refl _) rfl
  case checkpointSave hh => exact hgoes hh (by simp : _ = Handler.recv) (.refl _) rfl
  case arrive => exact hgoes rfl (by simp : _ = (s.conns t).handler) (.refl _) rfl
  case hangup => exact hgoes rfl (by simp : _ = (s.conns t).handler) (.refl _) rfl
  case applyRaised => simp [quit_exit] at hq
  case saveFail => simp [quit_exit] at hq
  all_goals
    refine hframe ?_ ?_ ⟨rfl, rfl, (List.append_nil _).symm⟩ rfl
    · simp_all [Handler.InSubmit]
    · simp [heartbeat]
      try rfl

/-- While the thread of `t` is inside `submit`, the others leave the update path alone. -/
lemma path_of_not_inSubmit (hr : Rule env s a s') (hne : a.conn ≠ some t)
    (hout : ∀ u ≠ t, (s.conns u).handler.InSubmit = false) :
    s'.updatePath.Agree [] s.updatePath ∧ s'.rounds = s.rounds := by
  have hbusy : ∀ {c : ConnId}, a.conn = some c → (s.conns c).handler.InSubmit = false :=
    fun {c} hc => hout c fun hct => hne (hct ▸ hc)
  cases hr
  case applied hh _ => exact absurd (hbusy rfl) (by simp [hh, Handler.InSubmit])
  case applyRaised hh _ => exact absurd (hbusy rfl) (by simp [hh, Handler.InSubmit])
  case checkpointAssign hh => exact absurd (hbusy rfl) (by simp [hh, Handler.InSubmit])
  case checkpointSave hh => exact absurd (hbusy rfl) (by simp [hh, Handler.InSubmit])
  all_goals exact ⟨⟨rfl, rfl, (List.append_nil _).symm⟩, rfl⟩

/-- A round that is applied is one more of those that return. -/
lemma rounds_step (hr : Rule env s a s') (hq : ∀ t, (s'.conns t).handler.Quit = false)
    (h : UpdatePath.Applies st s.rounds) (hst : s.store = UpdatePath.after st s.rounds) :
    UpdatePath.Applies st s'.rounds ∧ s'.store = UpdatePath.after st s'.rounds := by
  cases hr
  case applied c now r st' hh hok =>
    have hrounds : ({ s with store := st', history := s.history.apply r s.store st' }.goto c
        (.getStep r)).rounds = s.rounds ++ [r.deltas.map Delta.grads] := by
      simp [rounds, History.apply]
    rw [hrounds, UpdatePath.applies_append, UpdatePath.after_append, ← hst]
    refine ⟨⟨h, by rw [hok], trivial⟩, ?_⟩
    show st' = (s.store.applyGradients (r.deltas.map Delta.grads)).1
    rw [hok]
  case applyRaised c now r st' e hh hok => simpa [quit_exit] using hq c
  all_goals exact ⟨h, hst⟩

lemma serial_init (config : Option AggregatorConfig) (st : WeightStore α) (timeout : ℚ) :
    (init st timeout).Serial config st where
  returns := trivial
  store := rfl
  single t u ht := by cases ht
  path t _ := .refl _

/-- A thread completes a round only while no other one is inside `submit`. -/
lemma Serial.step (h : s.Serial env.config st) (hr : Rule env s a s')
    (hq : ∀ t, (s'.conns t).handler.Quit = false)
    (hfires : ∀ t now m w, a = .run t now → (s.conns t).handler = .dispatch m →
      (s.conns t).workerId = some w → s.Fires env t w m →
      ∀ u, (s.conns u).handler.InSubmit = false) : s'.Serial env.config st := by
  have hsingle : ∀ t u, (s'.conns t).handler.InSubmit = true →
      (s'.conns u).handler.InSubmit = true → t = u := by
    intro t u ht hu
    rcases hr.inSubmit_of ht with ht' | ⟨now, m, w, ha, hh, hw, hf⟩
    · rcases hr.inSubmit_of hu with hu' | ⟨now, m, w, ha, hh, hw, hf⟩
      · exact h.single t u ht' hu'
      · rw [hfires u now m w ha hh hw hf t] at ht'
        cases ht'
    · rcases hr.inSubmit_of hu with hu' | ⟨now', m', w', ha', -, -, -⟩
      · rw [hfires t now m w ha hh hw hf u] at hu'
        cases hu'
      · exact (Action.run.inj (ha.symm.trans ha')).1
  obtain ⟨hreturns, hstore⟩ := rounds_step hr hq h.returns h.store
  refine ⟨hreturns, hstore, hsingle, fun t hout => ?_⟩
  have hstays : ∀ {u}, a.conn ≠ some u → (s'.conns u).handler.InSubmit = false →
      (s.conns u).handler.InSubmit = false := fun hne hu => hr.handler_of_ne hne ▸ hu
  -- whoever does not act goes along with the others if these are outside
  have hidle : a.conn ≠ some t → (∀ u ≠ t, (s.conns u).handler.InSubmit = false) →
      ((s'.conns t).handler.complete env.config s'.updatePath).Agree []
        ((UpdatePath.start st).rounds env.config s'.rounds) := by
    intro hne hothers
    obtain ⟨hpath, hrounds⟩ := path_of_not_inSubmit hr hne hothers
    rw [hr.handler_of_ne hne, hrounds]
    exact (hpath.complete _).trans (h.path t hothers)
  by_cases ha : a.conn = some t
  · exact actor_complete hr ha (hq t) (h.path t fun u hu =>
      hstays (by rw [ha]; exact fun he => hu (Option.some.inj he).symm) (hout u hu))
  · cases hin : (s.conns t).handler.InSubmit with
    | true =>
      refine hidle ha fun u hu => Bool.eq_false_of_not_eq_true fun hin' => ?_
      exact hu (h.single u t hin' hin)
    | false =>
      cases hc : a.conn with
      | none => exact hidle ha fun u hu => hstays (by rw [hc]; simp) (hout u hu)
      | some c =>
        -- nobody is inside any more, the thread that acts included
        have hct : c ≠ t := fun he => ha (he ▸ hc)
        have hpath := actor_complete hr hc (hq c) (h.path c fun u hu => by
          by_cases hut : u = t
          · rw [hut]
            exact hin
          · exact hstays (by rw [hc]; exact fun he => hu (Option.some.inj he).symm) (hout u hut))
        rw [Handler.complete_of_not_inSubmit (hout c hct)] at hpath
        have hin' : (s'.conns t).handler.InSubmit = false := hr.handler_of_ne ha ▸ hin
        rw [Handler.complete_of_not_inSubmit hin']
        exact hpath

end System

/-! ### Healthy runs -/

namespace Cluster

variable {env : ServerEnv α} {ids : ConnId → WorkerId} {s s' : Cluster α}
  {members : Finset ConnId} {st : WeightStore α} {timeout : ℚ} {t : ConnId}

/-- While a thread is inside `submit`, no other one completes a covered round: that would take
another push of the thread's own worker. -/
lemma Sound.not_inSubmit_of_fires (hs : s.Sound env ids) (hids : Function.Injective ids)
    (hsteady : s.sys.SteadyInv) {now : ℚ} {m : Message α} {v : WorkerId}
    (hk : s.sys.Covers env (.run t now)) (hh : (s.sys.conns t).handler = .dispatch m)
    (hv : (s.sys.conns t).workerId = some v) (hf : s.sys.Fires env t v m) (u : ConnId) :
    (s.sys.conns u).handler.InSubmit = false := by
  by_contra hne
  have hu := Bool.eq_true_of_not_eq_false hne
  by_cases hut : u = t
  · rw [hut, hh] at hu
    cases hu
  · have hreg : u ∈ s.sys.agg.sockets.values := by
      refine hs.registered_of_held hsteady ?_ ?_ <;>
        cases hh : (s.sys.conns u).handler <;> simp_all [Handler.InSubmit, Handler.Nameless,
          Handler.Seated]
    simp only [System.Covers, hh, hv] at hk
    obtain ⟨δ, hδ⟩ := hs.entry_of_registered hv (hk hf) hids hreg hut
    obtain ⟨-, -, -, hpark, -⟩ := (hs.stage u).of_entry hδ
    have hpark' : (s.sys.conns u).handler.Parked := hpark
    cases hh : (s.sys.conns u).handler <;> simp_all [Handler.InSubmit, Handler.Parked]

lemma serial_of_reach (hids : Function.Injective ids) (hp : env.pickle.Lawful)
    (hsync : GradientAggregator.minReady env.config ≤ 0) (hst : st.Aligned)
    (h : Reach (Cluster.step env ids) (fun s a s' => s.Healthy env members a s')
      (.init st timeout) s) : s.sys.Serial env.config st := by
  refine h.invariant_reach (P := fun s => s.sys.Serial env.config st)
    (System.serial_init env.config st timeout) ?_
  intro s a s' hr hi hstep hk
  have hsane := sane_of_reach hids hp hsync hst hr
  have hsane' := sane_of_reach hids hp hsync hst (hr.tail hstep hk)
  rcases sys_of_step hstep with hsys | ⟨b, -, hb⟩
  · rw [hsys]
    exact hi
  · refine hi.step (System.rule_of_step hb) hsane'.healthy.running ?_
    intro t now m w ha hh hw hf
    have hcov : s.sys.Covers env (.run t now) :=
      covers_of_sync hsync hsane.sync.steady (.server (.run t now))
    exact hsane.sync.tracked.sound.not_inSubmit_of_fires hids hsane.sync.steady hcov hh hw hf

end Cluster

/-! ### Crashes -/

namespace System

variable {st : WeightStore α} {s : System α} {cfg : AggregatorConfig} {k : ℕ}

/-- There is a checkpoint of every `k`-th round, and the rounds that are not in the last one are
those that a crash loses. -/
structure Durable (k : ℕ) (st : WeightStore α) (s : System α) (j : ℕ) : Prop where
  checkpoints : s.checkpoints = UpdatePath.every st k s.rounds j
  saved : k * j ≤ s.rounds.length
  lost : s.rounds.length ≤ k * j + k
  rest : (∀ t, (s.conns t).handler.InSubmit = false) → s.rounds.length < k * j + k

omit [Scalar α] in
/-- What is left of `submit` saves the store once or not at all. -/
lemma complete_checkpoints (config : Option AggregatorConfig) (p : UpdatePath α) (h : Handler α) :
    (h.complete config p).checkpoints = p.checkpoints ∨
      (h.complete config p).checkpoints = p.store.checkpoint :: p.checkpoints := by
  have hmaybe : ∀ step, (p.maybeCheckpoint config step).checkpoints = p.checkpoints ∨
      (p.maybeCheckpoint config step).checkpoints = p.store.checkpoint :: p.checkpoints := by
    intro step
    rw [UpdatePath.maybeCheckpoint]
    split_ifs
    · exact Or.inr rfl
    · exact Or.inl rfl
  cases h with
  | getStep r => exact hmaybe _
  | acks r step todo rest => exact hmaybe step
  | emit r step => exact hmaybe step
  | checkpoint step => exact hmaybe step
  | checkpointAssign step => exact Or.inr rfl
  | checkpointSave => exact Or.inr rfl
  | _ => exact Or.inl rfl

lemma Serial.durable (h : s.Serial (some cfg) st) (hcfg : cfg.checkpointInterval = k)
    (hk : 1 ≤ k) : ∃ j, s.Durable k st j := by
  obtain ⟨-, -, hsaved⟩ := UpdatePath.rounds_of_applies hcfg hk h.returns
  have hlt : s.rounds.length < k * (s.rounds.length / k) + k := by
    rw [← Nat.mul_succ]
    exact Nat.lt_mul_div_succ _ hk
  have hle : k * (s.rounds.length / k) ≤ s.rounds.length := Nat.mul_div_le _ _
  have hall : s.checkpoints = UpdatePath.every st k s.rounds (s.rounds.length / k) →
      ∃ j, s.Durable k st j := fun he => ⟨_, he, hle, hlt.le, fun _ => hlt⟩
  by_cases hrest : ∀ t, (s.conns t).handler.InSubmit = false
  · have hpath := (h.path 0 fun u _ => hrest u).checkpoints
    rw [Handler.complete_of_not_inSubmit (hrest 0), List.append_nil, hsaved] at hpath
    exact hall hpath
  · obtain ⟨t, ht⟩ := not_forall.mp hrest
    have hpath := (h.path t fun u hu => Bool.eq_false_of_not_eq_true fun hin =>
      hu (h.single u t hin (Bool.eq_true_of_not_eq_false ht))).checkpoints
    rw [List.append_nil, hsaved] at hpath
    rcases complete_checkpoints (some cfg) s.updatePath (s.conns t).handler with he | he
    · exact hall (he.symm.trans hpath)
    · -- the last of them is still to be saved
      rw [hpath] at he
      obtain ⟨j, hj⟩ : ∃ j, s.rounds.length / k = j + 1 := by
        cases hj : s.rounds.length / k with
        | zero =>
          rw [hj] at he
          cases he
        | succ j => exact ⟨j, rfl⟩
      rw [hj, UpdatePath.every_succ] at he
      obtain ⟨hhead, htail⟩ := List.cons.inj he
      have htake : UpdatePath.Applies st (s.rounds.take (k * (j + 1))) := by
        have hreturns := h.returns
        rw [← List.take_append_drop (k * (j + 1)) s.rounds, UpdatePath.applies_append] at hreturns
        exact hreturns.1
      have hstep : (UpdatePath.after st (s.rounds.take (k * (j + 1)))).globalStep =
          s.store.globalStep := congrArg Checkpoint.globalStep hhead
      rw [htake.globalStep, h.store, h.returns.globalStep, List.length_take] at hstep
      rw [hj] at hle
      have hlen : s.rounds.length = k * j + k := by
        rw [Nat.mul_succ] at hle hstep
        omega
      exact ⟨j, htail.symm, by omega, by omega, fun hr => absurd hr hrest⟩

/-- The server that starts on the last checkpoint. -/
lemma Durable.resume {j : ℕ} (h : s.Durable k st (j + 1)) {pf : PickleFile α} (hpf : pf.Lawful)
    (fresh : Weights α) :
    UpdatePath.resume pf fresh st.baseLr st.momentum (s.updatePath.latest pf) =
      some (UpdatePath.start (UpdatePath.after st (s.rounds.take (k * (j + 1))))) := by
  obtain ⟨hlr, hm⟩ := UpdatePath.after_settings st (s.rounds.take (k * (j + 1)))
  have hfile : s.updatePath.latest pf = (saveCheckpoint pf
      (UpdatePath.after st (s.rounds.take (k * (j + 1))))).foldl FileOp.apply none := by
    rw [foldl_saveCheckpoint, UpdatePath.latest]
    show s.checkpoints.head?.map _ = _
    rw [h.checkpoints, UpdatePath.every_succ]
    rfl
  have hload : (WeightStore.init fresh st.baseLr st.momentum).loadCheckpoint pf.loads
      ((saveCheckpoint pf (UpdatePath.after st (s.rounds.take (k * (j + 1))))).foldl FileOp.apply
        none) = ((UpdatePath.after st (s.rounds.take (k * (j + 1)))).loaded, true) :=
    WeightStore.loadCheckpoint_saved hpf
      (show (WeightStore.init fresh st.baseLr st.momentum).baseLr = _ from hlr.symm) hm.symm none
  rw [UpdatePath.resume, hfile, hload, LoadedStore.toStore_loaded, Option.map_some]

end System

section

variable {env : ServerEnv α} {ids : ConnId → WorkerId} {s : Cluster α} {members : Finset ConnId}
  {st : WeightStore α} {timeout : ℚ}

/-- In every healthy run in synchronous mode the rounds do not overlap, and no round raises. All its
threads together do to the store, to `last_checkpoint_step` and to the checkpoint file what one
thread would do that goes through the rounds one after the other, and when no thread is inside
`submit` they have done just that. -/
theorem rounds_serial (hids : Function.Injective ids) (hp : env.pickle.Lawful)
    (hsync : GradientAggregator.minReady env.config ≤ 0) (hst : st.Aligned)
    (h : Reach (Cluster.step env ids) (fun s a s' => s.Healthy env members a s')
      (.init st timeout) s) :
    s.sys.Serial env.config st ∧
      (∀ t r, (s.sys.conns t).handler = .apply r →
        ¬ s.sys.store.Raises (r.deltas.map Delta.grads)) ∧
      ((∀ t, (s.sys.conns t).handler.InSubmit = false) →
        s.sys.updatePath.Agree [] ((UpdatePath.start st).rounds env.config s.sys.rounds)) := by
  have hserial := Cluster.serial_of_reach hids hp hsync hst h
  have hsane := Cluster.sane_of_reach hids hp hsync hst h
  refine ⟨hserial, ?_, fun hrest => ?_⟩
  · rintro t r hh ⟨e, hraise⟩
    obtain ⟨now, hok⟩ := hsane.sync.applies hsane.group hsane.healthy.aligned hh
    rw [hok] at hraise
    cases hraise
  · have hpath := hserial.path 0 fun u _ => hrest u
    rwa [Handler.complete_of_not_inSubmit (hrest 0)] at hpath

/-- A server that saves every `k`-th round and is stopped in a healthy run in synchronous mode has
lost at most `k` rounds, and less than `k` if no thread was inside `submit`. Started again on the
file, it stands where it stood after the last saved round; and the lost rounds would take it to
where it was stopped. Only a stop inside `save_checkpoint`, once it has opened the file and before
it has written all of it, loses every round: the next server starts from fresh weights. -/
theorem crash_recovery {cfg : AggregatorConfig} {k : ℕ} {pf : PickleFile α}
    (hids : Function.Injective ids) (hp : env.pickle.Lawful) (hconfig : env.config = some cfg)
    (hsync : cfg.minReadyWorkers ≤ 0) (hcfg : cfg.checkpointInterval = k) (hk : 1 ≤ k)
    (hst : st.Aligned) (hpf : pf.Lawful)
    (h : Reach (Cluster.step env ids) (fun s a s' => s.Healthy env members a s')
      (.init st timeout) s) (fresh : Weights α) :
    (∃ j, s.sys.Durable k st j ∧ (0 < j → ∃ q,
      UpdatePath.resume pf fresh st.baseLr st.momentum (s.sys.updatePath.latest pf) = some q ∧
        q = UpdatePath.start (UpdatePath.after st (s.sys.rounds.take (k * j))) ∧
        (q.rounds env.config (s.sys.rounds.drop (k * j))).store = s.sys.store)) ∧
      ∀ t, (s.sys.conns t).handler = .checkpointSave → ∀ i > 0,
        ((pf.writes s.sys.store.checkpoint).drop (i - 1)).flatten ≠ [] →
          UpdatePath.resume pf fresh st.baseLr st.momentum (s.sys.updatePath.cutOff pf i) =
            some (UpdatePath.start (.init fresh st.baseLr st.momentum)) := by
  refine ⟨?_, fun t _ i hi hrest => UpdatePath.resume_cutOff hpf s.sys.updatePath hi hrest _ _ _⟩
  have hserial := Cluster.serial_of_reach hids hp (by rw [hconfig]; exact hsync) hst h
  rw [hconfig] at hserial
  obtain ⟨j, hdurable⟩ := hserial.durable hcfg hk
  refine ⟨j, hdurable, fun hj => ?_⟩
  obtain ⟨j, rfl⟩ := Nat.exists_eq_succ_of_ne_zero hj.ne'
  refine ⟨_, hdurable.resume hpf fresh, rfl, ?_⟩
  rw [UpdatePath.store_rounds_after, hserial.store]
  show UpdatePath.after (UpdatePath.after st (s.sys.rounds.take (k * (j + 1)))) _ = _
  rw [← UpdatePath.after_append, List.take_append_drop]

end

/-! ### A run -/

namespace Scenario

/-- A server in synchronous mode that saves every round. -/
def everyRound : ServerEnv ℚ := ⟨some ⟨0, 1⟩, id, Response.code.pickle⟩

/-- Two workers train for two rounds. Worker `0` has pushed again before worker `1` is sent its ACK
of the first round; the second round has been applied, and is about to be saved. -/
def savesOnce : List (ClusterAction ℚ) :=
  pulls 0 0 ++ pulls 1 0 ++ calls 0 (push 1) ++ runs 0 1 ++ calls 1 (push 3) ++ runs 1 3 ++
    sends 1 0 (.ack 1) ++ calls 0 .pullWeights ++ runs 0 1 ++
    sends 0 0 (.weightsResponse (single (-2))) ++ calls 0 (push 5) ++ runs 0 1 ++
    sends 1 1 (.ack 1) ++ runs 1 4 ++ calls 1 .pullWeights ++ runs 1 1 ++
    sends 1 1 (.weightsResponse (single (-2))) ++ calls 1 (push 7) ++ runs 1 3 ++
    sends 1 0 (.ack 2) ++ sends 1 1 (.ack 2) ++ runs 1 3

/-- The thread is about to save. -/
def saving (h : Handler ℚ) : Bool :=
  match h with
  | .checkpointSave => true
  | _ => false

lemma eq_of_saving {h : Handler ℚ} (hs : saving h = true) : h = .checkpointSave := by
  cases h <;> first | rfl | cases hs

/-- The run to that point. -/
lemma reach_savesOnce : ∃ s, Reach (Cluster.step everyRound ownId)
    (fun s a s' => s.Healthy everyRound {0, 1} a s') idle s ∧ s.sys.rounds.length = 2 ∧
      (UpdatePath.after (.init (single 0) 1 0) (s.sys.rounds.take 1)).weights = single (-2) ∧
      s.sys.checkpoints.length = 1 ∧ (s.sys.conns 1).handler = .checkpointSave := by
  obtain ⟨s, hreach, hlen, hfirst, hsaved, hsaving⟩ := Reach.of_script (Cluster.step everyRound ownId)
    (fun s a s' => s.Healthy everyRound {0, 1} a s') idle savesOnce
    (healthyCluster everyRound {0, 1}) (fun _ _ _ => healthyCluster_sound)
    (fun s : Cluster ℚ => s.sys.rounds.length = 2 ∧
      (UpdatePath.after (.init (single 0) 1 0) (s.sys.rounds.take 1)).weights = single (-2) ∧
      s.sys.checkpoints.length = 1 ∧ saving (s.sys.conns 1).handler)
    (by decide +kernel)
  exact ⟨s, hreach, hlen, hfirst, hsaved, eq_of_saving hsaving⟩

end Scenario

open Scenario

/-- With the second round applied and not yet saved. -/
theorem rounds_serial_savesOnce : ∃ s, Reach (Cluster.step everyRound ownId)
    (fun s a s' => s.Healthy everyRound {0, 1} a s') idle s ∧ s.sys.rounds.length = 2 ∧
      s.sys.checkpoints.length = 1 ∧ s.sys.Serial everyRound.config (.init (single 0) 1 0) := by
  obtain ⟨s, hreach, hlen, -, hsaved, -⟩ := reach_savesOnce
  exact ⟨s, hreach, hlen, hsaved, (rounds_serial ownId_injective
    Response.code.pickle_lawful (by decide) (WeightStore.aligned_init _ _ _) hreach).1⟩

/-- Stopped there, it starts again on the first round. Stopped once the second save has opened the
file, it starts again on fresh weights. -/
theorem crash_recovery_savesOnce : ∃ s, Reach (Cluster.step everyRound ownId)
    (fun s a s' => s.Healthy everyRound {0, 1} a s') idle s ∧
      (∃ q, UpdatePath.resume bytewise (single 9) 1 0 (s.sys.updatePath.latest bytewise) = some q ∧
        q.store.weights = single (-2)) ∧
      UpdatePath.resume bytewise (single 9) 1 0 (s.sys.updatePath.cutOff bytewise 1) =
        some (UpdatePath.start (.init (single 9) 1 0)) := by
  obtain ⟨s, hreach, -, hfirst, hsaved, hsaving⟩ := reach_savesOnce
  obtain ⟨⟨j, hdurable, hresume⟩, hcut⟩ := crash_recovery ownId_injective
    Response.code.pickle_lawful rfl le_rfl (show (1 : ℤ) = (1 : ℕ) from rfl) le_rfl
    (WeightStore.aligned_init _ _ _) bytewise_lawful hreach (single 9)
  have hj : j = 1 := by
    rw [hdurable.checkpoints] at hsaved
    simpa [UpdatePath.every] using hsaved
  subst hj
  obtain ⟨q, hq, rfl, -⟩ := hresume Nat.one_pos
  refine ⟨s, hreach, ⟨_, hq, hfirst⟩, hcut 1 hsaving 1 Nat.one_pos ?_⟩
  intro hnil
  have hloads := bytewise_lawful.loads_dumps s.sys.store.checkpoint
  have hdumps : bytewise.dumps s.sys.store.checkpoint = [] := hnil
  have hempty : bytewise.loads [] = none := by decide
  rw [hdumps, hempty] at hloads
  cases hloads

end DistributedRL
