import DistributedRL.Server.Average
import DistributedRL.Worker.AckDiscipline

/-!
# No lost update

The buffer holds one delta for each worker, and a second push would overwrite the first one. In a
covered run a worker reads an ACK only after its delta has been averaged, so no delta is
overwritten, and none is dropped but by its own worker's hang-up.
-/

namespace DistributedRL

variable {α : Type*}

/-- The thread has unregistered its worker. -/
def Handler.Closed : Handler α → Bool
  | .close | .done => true
  | _ => false

/-! ### Kept updates -/

/-- The condition on one step that a pushed delta is well formed for the weights `w`. -/
def ClusterAction.WellFormed (w : Weights α) : ClusterAction α → Prop
  | .request _ (.pushGradients _ g) => WellShaped w (.dict g)
  | _ => True

/-- The delta is in the buffer or in a round, or has been averaged, or its worker has hung up. -/
def System.Kept (s : System α) (δ : Delta α) : Prop :=
  s.Buffered δ.id ∨ (∃ t, s.Pending t δ.id) ∨ δ.id ∈ s.averaged ∨
    (s.conns δ.conn).handler.Closed

namespace Cluster

/-- Where a delta goes in one step: from the buffer it is dropped only by its own worker's thread,
and from a round that is about to be applied it is averaged. -/
structure Moves (s s' : Cluster α) : Prop where
  buffered : ∀ i, s.sys.Buffered i →
    s'.sys.Buffered i ∨ (∃ t, s'.sys.Pending t i) ∨ (s'.sys.conns i.1).handler.Closed
  pending : ∀ t i, s.sys.Pending t i → s'.sys.Pending t i ∨ i ∈ s'.sys.averaged

/-- Every delta is averaged at most once; it is averaged if its worker has read an ACK for it; and
once accepted it is in the buffer or in a round until it is averaged, or its worker hangs up. -/
structure KeepsUpdates (s : Cluster α) : Prop where
  once : s.sys.averaged.Nodup
  acked : ∀ d n step, (n, step) ∈ (s.clients d).acks → (d, n) ∈ s.sys.averaged
  accepted : ∀ δ ∈ s.sys.history.accepted, s.sys.Kept δ

end Cluster

/-! ### Where deltas go -/

section Rules

variable [Scalar α] {env : ServerEnv α} {s s' : System α} {a : Action α} {t c d : ConnId}
  {r : Round α} {w : WorkerId} {δ : Delta α}

lemma Rule.closed (hr : Rule env s a s') (h : (s.conns d).handler.Closed) :
    (s'.conns d).handler.Closed := by
  by_cases ha : a.conn = some d
  · cases hr <;> cases ha <;> simp_all [Handler.Closed]
  · rwa [hr.handler_of_ne ha]

/-- A delta leaves the buffer with a round, under another push, or when its worker unregisters. -/
lemma Rule.buffered_of (hr : Rule env s a s') (h : s.agg.buffer.get? w = some δ) :
    s'.agg.buffer.get? w = some δ ∨ (∃ t r, (s'.conns t).handler = .apply r ∧ δ ∈ r.deltas) ∨
      (∃ c g, s.Submits a c w g) ∨
      ∃ c, (s.conns c).workerId = some w ∧ (s'.conns c).handler = .close := by
  have hset : ∀ {v δ'}, w ≠ v → (s.agg.buffer.set v δ').get? w = some δ := fun hne => by
    rw [Dict.get?_set, if_neg hne, h]
  cases hr
  case raised c now m v g e hh hw ht hg hn =>
    by_cases hwv : w = v
    · exact Or.inr (Or.inr (Or.inl ⟨c, g, ⟨now, rfl⟩, ⟨m, hh, ht, hg⟩, hwv ▸ hw⟩))
    · exact Or.inl (hset hwv)
  case buffered c now m v g norm hh hw ht hg hn hs =>
    by_cases hwv : w = v
    · exact Or.inr (Or.inr (Or.inl ⟨c, g, ⟨now, rfl⟩, ⟨m, hh, ht, hg⟩, hwv ▸ hw⟩))
    · exact Or.inl (hset hwv)
  case fired c now m v g norm hh hw ht hg hn hs =>
    by_cases hwv : w = v
    · exact Or.inr (Or.inr (Or.inl ⟨c, g, ⟨now, rfl⟩, ⟨m, hh, ht, hg⟩, hwv ▸ hw⟩))
    · exact Or.inr (Or.inl ⟨c, (s.agg.enter v (s.delta c g) norm).round, by simp,
        Dict.mem_values_iff.mpr ⟨w, hset hwv⟩⟩)
  case unregister c now v hh hw =>
    by_cases hwv : w = v
    · exact Or.inr (Or.inr (Or.inr ⟨c, hwv ▸ hw, by simp⟩))
    · exact Or.inl (by simpa [hwv] using h)
  all_goals exact Or.inl h

lemma Rule.actor_pending_of (hr : Rule env s a s') (ha : a.conn = some t)
    (h : (s.conns t).handler = .apply r) :
    (s'.conns t).handler = .apply r ∨ Rule.Applies s a s' t r ∨
      ∃ st e, s.store.applyGradients (r.deltas.map Delta.grads) = (st, .error e) := by
  cases hr <;> cases ha
  case arrive => exact Or.inl (by simpa using h)
  case hangup => exact Or.inl (by simpa using h)
  case applied now r' st hap hh =>
    obtain rfl : r' = r := Handler.apply.inj (hh.symm.trans h)
    exact Or.inr (Or.inl ⟨⟨now, rfl⟩, hh, hap, by simp, rfl⟩)
  case applyRaised now r' st e hap hh =>
    obtain rfl : r' = r := Handler.apply.inj (hh.symm.trans h)
    exact Or.inr (Or.inr ⟨st, e, hap⟩)
  all_goals simp_all

/-- A round that is about to be applied is applied, unless `apply_gradients` raises. -/
lemma Rule.pending_of (hr : Rule env s a s') (h : (s.conns t).handler = .apply r) :
    (s'.conns t).handler = .apply r ∨ Rule.Applies s a s' t r ∨
      ∃ st e, s.store.applyGradients (r.deltas.map Delta.grads) = (st, .error e) := by
  by_cases ha : a.conn = some t
  · exact hr.actor_pending_of ha h
  · rw [hr.handler_of_ne ha]
    exact Or.inl h

/-- Where every round that is about to be applied goes through, the store keeps its shapes. -/
lemma Rule.store_shapes (hr : Rule env s a s') (hal : s.store.Aligned)
    (hok : ∀ t r, (s.conns t).handler = .apply r →
      ∃ st, s.store.applyGradients (r.deltas.map Delta.grads) = (st, .ok ()) ∧
        SameShapes st.weights s.store.weights) :
    s'.store.Aligned ∧ SameShapes s'.store.weights s.store.weights := by
  rcases hr.store_of with he | ⟨t, r, hst⟩
  · rw [he]
    exact ⟨hal, .refl _⟩
  · obtain ⟨st, happ, hshapes⟩ := hok t r hst.handler
    have hal' := (WeightStore.applyGradients_spec (r.deltas.map Delta.grads) hal).1
    rw [happ] at hal'
    rw [hst.store, happ]
    exact ⟨hal', hshapes⟩

/-- A delta that is accepted goes into the buffer, or with it into a round. -/
lemma Rule.accepted_of (hr : Rule env s a s') (h : δ ∈ s'.history.accepted) :
    δ ∈ s.history.accepted ∨ s'.Buffered δ.id ∨ ∃ t, s'.Pending t δ.id := by
  cases hr
  case raised c now m v g e hh hw ht hg hn =>
    rcases List.mem_cons.mp h with rfl | h
    · exact Or.inr (Or.inl ⟨v, _, by simp, rfl⟩)
    · exact Or.inl h
  case buffered c now m v g norm hh hw ht hg hn hs =>
    rcases List.mem_cons.mp h with rfl | h
    · exact Or.inr (Or.inl ⟨v, _, by simp, rfl⟩)
    · exact Or.inl h
  case fired c now m v g norm hh hw ht hg hn hs =>
    rcases List.mem_cons.mp h with rfl | h
    · refine Or.inr (Or.inr ⟨c, (s.agg.enter v (s.delta c g) norm).round, by simp,
        List.mem_map.mpr ⟨_, ?_, rfl⟩⟩)
      exact Dict.mem_values_iff.mpr ⟨v, by simp⟩
    · exact Or.inl h
  all_goals exact Or.inl h

omit [Scalar α] in
lemma System.acking_ne_getStep (c : ConnId) (r' : Round α) (step : ℕ) (todo : List ConnId) :
    s.acking env c r' step todo ≠ .getStep r := by
  rcases s.acking_cases c env r' step todo with ⟨-, h⟩ | ⟨-, _, -, h⟩ | h <;> rw [h]
  · simp
  · simp
  · rcases s.exit_cases c with he | he <;> simp [he]

omit [Scalar α] in
lemma System.acks_of_acking {c : ConnId} {r' : Round α} {step step' : ℕ} {todo todo' : List ConnId}
    {rest : List UInt8} (h : s.acking env c r' step' todo' = .acks r step todo rest) :
    r' = r ∧ step' = step := by
  rcases s.acking_cases c env r' step' todo' with ⟨-, he⟩ | ⟨-, _, -, he⟩ | he
  · rw [he] at h; cases h
  · rw [he] at h; cases h; exact ⟨rfl, rfl⟩
  · rcases s.exit_cases c with he' | he' <;> rw [he, he'] at h <;> cases h

lemma Rule.actor_getStep_of (hr : Rule env s a s') (ha : a.conn = some t)
    (h : (s'.conns t).handler = .getStep r) :
    (s.conns t).handler = .getStep r ∨ Rule.Applies s a s' t r := by
  have hacking : (s'.conns t).handler.acking = some r := by rw [h]; rfl
  rcases hr.actor_acking_of ha hacking with ⟨hold, -⟩ | happ
  · left
    cases hh : (s.conns t).handler <;> rw [hh] at hold <;> cases hold
    · rfl
    · -- the ACK loop does not go back
      cases hr <;> cases ha <;> simp_all [System.acking_ne_getStep]
  · exact Or.inr happ

lemma Rule.actor_acks_of (hr : Rule env s a s') (ha : a.conn = some t) {step : ℕ}
    {todo : List ConnId} {rest : List UInt8} (h : (s'.conns t).handler = .acks r step todo rest) :
    (∃ todo' rest', (s.conns t).handler = .acks r step todo' rest') ∨
      (s.conns t).handler = .getStep r ∧ step = s.store.globalStep := by
  have hacking : (s'.conns t).handler.acking = some r := by rw [h]; rfl
  rcases hr.actor_acking_of ha hacking with ⟨hold, -⟩ | happ
  · cases hh : (s.conns t).handler <;> rw [hh] at hold <;> cases hold
    · refine Or.inr ⟨rfl, ?_⟩
      cases hr <;> cases ha <;> simp_all
      exact (System.acks_of_acking h).2.symm
    · refine Or.inl ⟨_, _, congrArg (Handler.acks r · _ _) ?_⟩
      cases hr <;> cases ha <;> simp_all
      all_goals exact (System.acks_of_acking h).2
  · rw [happ.next] at h
    cases h

/-- A thread is before `get_step` if it was, or has just applied its round. -/
lemma Rule.getStep_of (hr : Rule env s a s') (h : (s'.conns t).handler = .getStep r) :
    (s.conns t).handler = .getStep r ∨ Rule.Applies s a s' t r := by
  by_cases ha : a.conn = some t
  · exact hr.actor_getStep_of ha h
  · exact Or.inl (hr.handler_of_ne ha ▸ h)

/-- A thread sends the step that it has read at the start of its ACK loop. -/
lemma Rule.acks_of (hr : Rule env s a s') {step : ℕ} {todo : List ConnId} {rest : List UInt8}
    (h : (s'.conns t).handler = .acks r step todo rest) :
    (∃ todo' rest', (s.conns t).handler = .acks r step todo' rest') ∨
      (s.conns t).handler = .getStep r ∧ step = s.store.globalStep := by
  by_cases ha : a.conn = some t
  · exact hr.actor_acks_of ha h
  · exact Or.inl ⟨todo, rest, hr.handler_of_ne ha ▸ h⟩

/-- The step of the store changes where a round is recorded, and not where one raises. -/
lemma Rule.globalStep_cases (hr : Rule env s a s') :
    (s'.store.globalStep = s.store.globalStep ∧ s'.history.applied = s.history.applied) ∨
      ∃ t r, Rule.Applies s a s' t r := by
  cases hr
  case applied c now r st h ha => exact Or.inr ⟨c, r, ⟨now, rfl⟩, h, ha, by simp, rfl⟩
  case applyRaised c now r st e h ha =>
    exact Or.inl ⟨WeightStore.globalStep_of_error ha, rfl⟩
  all_goals exact Or.inl ⟨rfl, rfl⟩

/-- Where no round raises, the store and its record change together. -/
lemma Rule.round_of (hr : Rule env s a s')
    (hok : ∀ t r, (s.conns t).handler = .apply r →
      ∃ st, s.store.applyGradients (r.deltas.map Delta.grads) = (st, .ok ())) :
    (s'.store = s.store ∧ s'.history.applied = s.history.applied) ∨
      ∃ t r, Rule.Applies s a s' t r := by
  rcases hr.applied_of with he | ⟨t, r, happ⟩
  · rcases hr.store_of with hs | ⟨t, r, hst⟩
    · exact Or.inl ⟨hs, he⟩
    · rcases hr.pending_of hst.handler with hold | happ | ⟨st, e, hraise⟩
      · exact absurd hold (hst.next r)
      · exact Or.inr ⟨t, r, happ⟩
      · obtain ⟨st', hst'⟩ := hok t r hst.handler
        rw [hst'] at hraise
        cases hraise
  · exact Or.inr ⟨t, r, happ⟩

end Rules

/-! ### Runs -/

variable [Scalar α] {env : ServerEnv α} {ids : ConnId → WorkerId} {s s' : Cluster α}
  {a : ClusterAction α} {w₀ : Weights α}

namespace Cluster

/-- The store keeps its shapes, and the pushes under way fit them. -/
structure ShapeInv (w₀ : Weights α) (s : Cluster α) : Prop where
  pushed : ∀ d step g, (s.clients d).phase = .waiting (.pushGradients step g) →
    WellShaped w₀ (.dict g)
  aligned : s.sys.store.Aligned
  shapes : SameShapes w₀ s.sys.store.weights

omit [Scalar α] in
lemma shapeInv_init {st : WeightStore α} (hst : st.Aligned) (timeout : ℚ) :
    (init st timeout).ShapeInv st.weights where
  pushed _ _ _ h := by cases h
  aligned := hst
  shapes := .refl _

/-- A round of outstanding pushes goes through. -/
lemma ShapeInv.applies (h : s.ShapeInv w₀) (htr : s.Tracked env ids) {t : ConnId} {r : Round α}
    (hh : (s.sys.conns t).handler = .apply r) :
    ∃ st, s.sys.store.applyGradients (r.deltas.map Delta.grads) = (st, .ok ()) ∧
      SameShapes st.weights s.sys.store.weights := by
  obtain ⟨δ, hδ, -⟩ := htr.deltas.pending_own t r hh
  have hne : r.deltas.map Delta.grads ≠ [] := List.ne_nil_of_mem (List.mem_map_of_mem hδ)
  have hg : ∀ g ∈ r.deltas.map Delta.grads, WellShaped s.sys.store.weights g := by
    intro g hg
    obtain ⟨δ, hδ, rfl⟩ := List.mem_map.mp hg
    obtain ⟨-, -, step, g, hp, hgrads⟩ := htr.pushes.pending t r hh δ hδ
    rw [hgrads]
    exact (h.pushed _ _ _ hp).of_sameShapes h.shapes
  obtain ⟨st, hst, hshapes, -⟩ := WeightStore.applyGradients_wellShaped h.aligned hne hg
  exact ⟨st, hst, hshapes⟩

lemma ShapeInv.step (h : s.ShapeInv w₀) (htr : s.Tracked env ids) (hwf : a.WellFormed w₀)
    (hstep : s.step env ids a = some s') : s'.ShapeInv w₀ := by
  obtain ⟨hal, hshapes⟩ : s'.sys.store.Aligned ∧
      SameShapes s'.sys.store.weights s.sys.store.weights := by
    rcases sys_of_step hstep with he | ⟨b, -, hb⟩
    · rw [he]
      exact ⟨h.aligned, .refl _⟩
    · exact (System.rule_of_step hb).store_shapes h.aligned fun t r hh => h.applies htr hh
  refine ⟨?_, hal, h.shapes.trans hshapes.symm⟩
  intro d step g hp
  rcases waiting_of hstep hp with ⟨hold, -⟩ | ⟨-, rfl, -⟩
  · exact h.pushed d step g hold
  · exact hwf

/-- A worker that pushes has no delta in the buffer that it could overwrite. -/
lemma Sound.no_entry_of_submits (hs : s.Sound env ids) {b : Action α} {c : ConnId} {w : WorkerId}
    {g : Payload α} (h : s.sys.Submits b c w g) : s.sys.agg.buffer.get? w = none := by
  obtain ⟨m, hm, -⟩ := h.handler
  obtain ⟨_, -, -, -, -, -, he, -⟩ := (hs.stage c).of_held (m := m)
    (by simp only [System.view, hm]; rfl)
  rw [hs.identity c w h.workerId]
  exact he

lemma Tracked.moves (htr : s.Tracked env ids) (h : s.ShapeInv w₀) (hids : Function.Injective ids)
    (hstep : s.step env ids a = some s') : s.Moves s' := by
  rcases sys_of_step hstep with he | ⟨b, -, hb⟩
  · refine ⟨fun i hi => Or.inl ?_, fun t i hi => Or.inl ?_⟩ <;> rwa [he]
  have hr := System.rule_of_step hb
  constructor
  · rintro i ⟨w, δ, hδ, rfl⟩
    rcases hr.buffered_of hδ with hδ' | ⟨t, r, hh, hr⟩ | ⟨c, g, hsub⟩ | ⟨c, hc, hclose⟩
    · exact Or.inl ⟨w, δ, hδ', rfl⟩
    · exact Or.inr (Or.inl ⟨t, r, hh, List.mem_map_of_mem hr⟩)
    · rw [htr.sound.no_entry_of_submits hsub] at hδ
      cases hδ
    · have hkey := htr.sound.identity _ _ (htr.deltas.key w δ hδ)
      obtain rfl := hids ((htr.sound.identity c w hc).symm.trans hkey)
      exact Or.inr (Or.inr (by rw [Delta.id, hclose]; rfl))
  · rintro t i ⟨r, hh, hi⟩
    rcases hr.pending_of hh with hh' | happ | ⟨st, e, hraise⟩
    · exact Or.inl ⟨r, hh', hi⟩
    · refine Or.inr (System.mem_averaged.mpr ⟨⟨r.deltas, s.sys.store, s'.sys.store⟩, ?_, hi⟩)
      rw [happ.history]
      exact List.mem_cons_self
    · obtain ⟨st', hok, -⟩ := h.applies htr hh
      rw [hok] at hraise
      cases hraise

lemma kept_step (hmoves : s.Moves s') (hstep : s.step env ids a = some s')
    (h : ∀ δ ∈ s.sys.history.accepted, s.sys.Kept δ) :
    ∀ δ ∈ s'.sys.history.accepted, s'.sys.Kept δ := by
  intro δ hδ
  rcases sys_of_step hstep with he | ⟨b, -, hb⟩
  · rw [he] at hδ ⊢
    exact h δ hδ
  have hr := System.rule_of_step hb
  rcases hr.accepted_of hδ with hδ | hδ | hδ
  · rcases h δ hδ with hbuf | ⟨t, hpend⟩ | havg | hclosed
    · rcases hmoves.buffered _ hbuf with h | h | h
      · exact Or.inl h
      · exact Or.inr (Or.inl h)
      · exact Or.inr (Or.inr (Or.inr h))
    · rcases hmoves.pending t _ hpend with h | h
      · exact Or.inr (Or.inl ⟨t, h⟩)
      · exact Or.inr (Or.inr (Or.inl h))
    · obtain ⟨x, hx, hi⟩ := System.mem_averaged.mp havg
      exact Or.inr (Or.inr (Or.inl (System.mem_averaged.mpr ⟨x, hr.mem_applied hx, hi⟩)))
    · exact Or.inr (Or.inr (Or.inr (hr.closed hclosed)))
  · exact Or.inl hδ
  · exact Or.inr (Or.inl hδ)

end Cluster

/-- In every run in which each completed round holds a delta of every registered worker, and the
pushed deltas are well formed. -/
theorem keeps_updates {st : WeightStore α} {timeout : ℚ} (hids : Function.Injective ids)
    (hp : env.pickle.Lawful) (hst : st.Aligned)
    (h : Reach (Cluster.step env ids) (fun s a _ => s.Covers env a ∧ a.WellFormed st.weights)
      (.init st timeout) s) :
    s.KeepsUpdates ∧ ∀ a s', s.step env ids a = some s' → s.Moves s' := by
  have hinv : s.Tracked env ids ∧ s.ShapeInv st.weights ∧
      ∀ δ ∈ s.sys.history.accepted, s.sys.Kept δ := by
    refine h.invariant (P := fun s => s.Tracked env ids ∧ s.ShapeInv st.weights ∧
      ∀ δ ∈ s.sys.history.accepted, s.sys.Kept δ)
      ⟨Cluster.tracked_init env ids st timeout, Cluster.shapeInv_init hst timeout,
        fun δ hδ => by cases hδ⟩ ?_
    rintro s a s' ⟨htr, hshape, hkept⟩ hstep ⟨hk, hwf⟩
    exact ⟨htr.step hids hp hstep hk, hshape.step htr hwf hstep,
      Cluster.kept_step (htr.moves hshape hids hstep) hstep hkept⟩
  obtain ⟨htr, hshape, hkept⟩ := hinv
  refine ⟨⟨htr.deltas.averaged_nodup, ?_, hkept⟩,
    fun a s' hstep => htr.moves hshape hids hstep⟩
  intro d n step hmem
  obtain ⟨x, hx, hid, -⟩ := htr.reads.read d n step hmem
  exact htr.acks.averaged _ (System.mem_acknowledged.mpr ⟨x, hx, hid⟩)

/-! ### Two runs -/

namespace Scenario

/-- With a quorum of two, worker `2` takes the ACK of a round of the others for that of its first
push, and overwrites it with a second one. -/
def overwrites : List (ClusterAction ℚ) :=
  pulls 0 0 ++ pulls 1 0 ++ pulls 2 0 ++ calls 0 (push 1) ++ runs 0 1 ++ calls 1 (push 3) ++
    runs 1 3 ++ sends 1 0 (.ack 1) ++ sends 1 1 (.ack 1) ++ calls 2 (push 5) ++ runs 2 1 ++
    sends 1 2 (.ack 1) ++ calls 2 (push 7) ++ runs 2 1

/-- A check that implies `WellFormed`. -/
def wellFormed : ClusterAction ℚ → Bool
  | .request _ (.pushGradients _ g) => (g.get? "w").any fun b => b.shape = [1]
  | _ => true

lemma wellFormed_sound {a : ClusterAction ℚ} (h : wellFormed a = true) :
    a.WellFormed (single 0) := by
  cases a with
  | request c q =>
    cases q with
    | pushGradients step g =>
      intro name a ha
      obtain ⟨b, hb, hshape⟩ := (Option.any_eq_true _ _).mp h
      simp only [single, Dict.get?_set] at ha
      split_ifs at ha with hn
      · cases ha
        subst hn
        exact ⟨b, by simp [Payload.getItem, hb], of_decide_eq_true hshape⟩
      · cases ha
    | _ => trivial
  | _ => trivial

end Scenario

open Scenario

/-- The first push of worker `2`, its second message, has been accepted and acknowledged, but it is
neither averaged nor in the buffer, and the worker has not hung up. -/
theorem push_overwritten :
    ∃ s, Reach (Cluster.step (wireEnv 2) ownId) (fun _ a _ => a.WellFormed (single 0)) idle s ∧
      ((2, 1) ∈ (s.clients 2).acks ∧ (2, 2) ∈ s.sys.history.accepted.map Delta.id ∧
        (2, 2) ∉ s.sys.averaged ∧ (2, 2) ∉ s.sys.agg.buffer.values.map Delta.id ∧
        (s.sys.conns 2).eof = false) ∧ ¬ s.KeepsUpdates := by
  obtain ⟨s, hreach, hlost⟩ := Reach.of_script (Cluster.step (wireEnv 2) ownId)
    (fun _ a _ => a.WellFormed (single 0)) idle overwrites (fun _ a _ => wellFormed a)
    (fun _ _ _ h => wellFormed_sound h)
    (fun s : Cluster ℚ => (2, 1) ∈ (s.clients 2).acks ∧
      (2, 2) ∈ s.sys.history.accepted.map Delta.id ∧ (2, 2) ∉ s.sys.averaged ∧
      (2, 2) ∉ s.sys.agg.buffer.values.map Delta.id ∧ (s.sys.conns 2).eof = false)
    (by decide +kernel)
  exact ⟨s, hreach, hlost, fun h => hlost.2.2.1 (h.acked 2 2 1 hlost.1)⟩

/-- Both workers have read the ACK of their push, and both deltas have been averaged. -/
theorem keeps_updates_together :
    ∃ s, Reach (Cluster.step (wireEnv 2) ownId)
        (fun s a _ => s.Covers (wireEnv 2) a ∧ a.WellFormed (single 0)) idle s ∧
      s.sys.averaged = [(0, 2), (1, 2)] ∧
      s.KeepsUpdates ∧ ∀ a s', s.step (wireEnv 2) ownId a = some s' → s.Moves s' := by
  obtain ⟨s, hreach, havg⟩ := Reach.of_script (Cluster.step (wireEnv 2) ownId)
    (fun s a _ => s.Covers (wireEnv 2) a ∧ a.WellFormed (single 0)) idle pushesTogether
    (fun s a _ => decide (s.Covers (wireEnv 2) a) && wellFormed a)
    (fun s a _ h => ⟨of_decide_eq_true (Bool.and_eq_true_iff.mp h).1,
      wellFormed_sound (Bool.and_eq_true_iff.mp h).2⟩)
    (fun s : Cluster ℚ => s.sys.averaged = [(0, 2), (1, 2)])
    (by decide +kernel)
  exact ⟨s, hreach, havg, keeps_updates ownId_injective (wireEnv_lawful 2)
    (WeightStore.aligned_init _ _ _) hreach⟩

end DistributedRL
