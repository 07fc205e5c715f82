import DistributedRL.Server.AllOrNothing
import DistributedRL.Worker.Conversation
import DistributedRL.Worker.Updates

/-!
# Versions of the store

If every push is well formed, no call of `apply_gradients` raises, whatever the mode and however the
rounds overlap. The store then goes through a chain of versions, one for each step number, and no
ACK carries a step that the store has not reached.
-/

namespace DistributedRL

variable {α : Type*}

/-! ### Well-formed pushes -/

/-- A push carries a delta that is well formed for the weights `w`. -/
def Message.WellFormed (w : Weights α) (m : Message α) : Prop :=
  m.type = .pushGradients → ∀ g, m.gradients = some g → WellShaped w g

instance (w : Weights α) (m : Message α) : Decidable (m.WellFormed w) :=
  inferInstanceAs (Decidable (_ → ∀ g ∈ m.gradients, WellShaped w g))

/-- The condition on one step that a push that arrives is well formed. -/
def Action.WellFormed (w : Weights α) : Action α → Prop
  | .arrive _ (.message m) => m.WellFormed w
  | _ => True

instance (w : Weights α) : (a : Action α) → Decidable (a.WellFormed w)
  | .arrive _ (.message m) => inferInstanceAs (Decidable (m.WellFormed w))
  | .arrive _ .unreadable | .accept _ | .hangup _ | .scan _ | .run _ _ | .write _ _ | .fail _ =>
    .isTrue trivial

section Rules

variable [Scalar α] {env : ServerEnv α} {s s' : System α} {a : Action α} {d t : ConnId}
  {r : Round α} {m : Message α}

omit [Scalar α] in
@[simp] lemma System.held_exit (s : System α) (c : ConnId) : (s.exit c).held = none := by
  rcases s.exit_cases c with h | h <;> rw [h] <;> rfl

omit [Scalar α] in
@[simp] lemma System.held_replying (s : System α) (c : ConnId) (resp : Response α) :
    (s.replying env c resp).held = none := by
  rcases s.replying_cases c env resp with ⟨_, -, h⟩ | h <;> rw [h]
  · rfl
  · exact s.held_exit c

omit [Scalar α] in
@[simp] lemma System.held_acking (s : System α) (c : ConnId) (step : ℕ) (todo : List ConnId) :
    (s.acking env c r step todo).held = none := by
  rcases s.acking_cases c env r step todo with ⟨-, h⟩ | ⟨-, _, -, h⟩ | h <;> rw [h]
  · rfl
  · rfl
  · exact s.held_exit c

lemma Rule.actor_held_of (hr : Rule env s a s') (ha : a.conn = some d)
    (h : (s'.conns d).handler.held = some m) :
    (s.conns d).handler.held = some m ∨ .message m ∈ (s.conns d).inbox := by
  cases hr <;> cases ha
  case arrive => exact Or.inl (by simpa using h)
  case hangup => exact Or.inl (by simpa using h)
  case identify now m' rest w hm hh hi hw =>
    rw [System.conns_setConn, if_pos rfl] at h
    cases h
    exact Or.inr (hi ▸ List.mem_cons_self)
  case next now m' rest w hh hi hw =>
    rw [System.conns_setConn, if_pos rfl] at h
    cases h
    exact Or.inr (hi ▸ List.mem_cons_self)
  case checkpoint now step hh =>
    simp only [System.handler_goto, if_true] at h
    split_ifs at h <;> cases h
  case register now m' w hh hw =>
    rw [System.handler_goto, if_pos rfl] at h
    exact Or.inl (hh ▸ h)
  case registerSocket now m' w hh hw =>
    rw [System.handler_goto, if_pos rfl] at h
    exact Or.inl (hh ▸ h)
  case beat now m' w ht hh hw =>
    rw [System.handler_goto, if_pos rfl] at h
    exact Or.inl (hh ▸ h)
  all_goals
    simp only [System.handler_goto, System.conns_setConn, System.heartbeat, if_true,
      System.held_exit, System.held_replying, System.held_acking, reduceCtorEq] at h
    try cases h

/-- The message in hand was in hand before, or has just been read. -/
lemma Rule.held_of (hr : Rule env s a s') (h : (s'.conns d).handler.held = some m) :
    (s.conns d).handler.held = some m ∨ .message m ∈ (s.conns d).inbox := by
  by_cases ha : a.conn = some d
  · exact hr.actor_held_of ha h
  · exact Or.inl (hr.handler_of_ne ha ▸ h)

end Rules

/-! ### No round raises -/

namespace System

/-- All that has been sent to the server is well formed for `w`, and so is its store. -/
structure ShapeInv (w : Weights α) (s : System α) : Prop where
  aligned : s.store.Aligned
  shapes : SameShapes s.store.weights w
  inbox : ∀ d m, .message m ∈ (s.conns d).inbox → m.WellFormed w
  held : ∀ d m, (s.conns d).handler.held = some m → m.WellFormed w
  buffer : ∀ v δ, s.agg.buffer.get? v = some δ → WellShaped w δ.grads
  pending : ∀ t r, (s.conns t).handler = .apply r → ∀ δ ∈ r.deltas, WellShaped w δ.grads

lemma shapeInv_init {st : WeightStore α} (hst : st.Aligned) (timeout : ℚ) :
    (init st timeout).ShapeInv st.weights where
  aligned := hst
  shapes := .refl _
  inbox _ _ h := by cases h
  held _ _ h := by cases h
  buffer _ _ h := by cases h
  pending _ _ h := by cases h

variable [Scalar α] {env : ServerEnv α} {s s' : System α} {a : Action α} {w : Weights α}
  {t : ConnId} {r : Round α}

/-- A round that is about to be applied goes through. -/
lemma ShapeInv.applies (h : s.ShapeInv w) (hd : s.DeltasInv)
    (hh : (s.conns t).handler = .apply r) :
    ∃ now, s.store.applyGradients (r.deltas.map Delta.grads) = (now, .ok ()) ∧
      SameShapes now.weights s.store.weights := by
  obtain ⟨δ, hδ, -⟩ := hd.pending_own t r hh
  have hwell : ∀ g ∈ r.deltas.map Delta.grads, WellShaped s.store.weights g := by
    intro g hg
    obtain ⟨δ, hδ, rfl⟩ := List.mem_map.mp hg
    exact (h.pending t r hh δ hδ).of_sameShapes h.shapes.symm
  obtain ⟨now, hok, hshapes, -⟩ := WeightStore.applyGradients_wellShaped h.aligned
    (List.ne_nil_of_mem (List.mem_map_of_mem hδ)) hwell
  exact ⟨now, hok, hshapes⟩

lemma ShapeInv.step (h : s.ShapeInv w) (hd : s.DeltasInv) (hr : Rule env s a s')
    (ha : a.WellFormed w) : s'.ShapeInv w := by
  obtain ⟨hal, hshapes⟩ := hr.store_shapes h.aligned fun t r hh => h.applies hd hh
  have hsubmit : ∀ {c m g}, (s.conns c).handler = .dispatch m → m.type = .pushGradients →
      m.gradients = some g → WellShaped w g := by
    intro c m g hh ht hg
    exact h.held c m (by rw [hh]; rfl) ht g hg
  refine ⟨hal, hshapes.trans h.shapes, ?_, ?_, ?_, ?_⟩
  · intro d m hm
    rcases hr.inbox_of hm with hold | rfl
    · exact h.inbox d m hold
    · exact ha
  · intro d m hm
    rcases hr.held_of hm with hold | hin
    · exact h.held d m hold
    · exact h.inbox d m hin
  · intro v δ hδ
    rcases hr.entry_of hδ with hold | ⟨c, g, ⟨-, ⟨m, hh, ht, hg⟩, -⟩, rfl⟩
    · exact h.buffer v δ hold
    · exact hsubmit hh ht hg
  · intro t r hh δ hδ
    rcases hr.apply_of hh with hold | ⟨now, m, v, g, norm, -, hm, -, ht, hg, -, -, rfl⟩
    · exact h.pending t r hold δ hδ
    · obtain ⟨u, hu⟩ := Dict.mem_values_iff.mp hδ
      rw [GradientAggregator.get?_buffer_enter] at hu
      split_ifs at hu
      · cases hu
        exact hsubmit hm ht hg
      · exact h.buffer u δ hu

end System

/-! ### The chain of versions -/

/-- The rounds of the list, newest first, lead from the store `st` to the store `now`. -/
def Leads [Scalar α] (st : WeightStore α) : List (Applied α) → WeightStore α → Prop
  | [], now => now = st
  | x :: xs, now => now = x.after ∧
    x.before.applyGradients (x.deltas.map Delta.grads) = (x.after, .ok ()) ∧ Leads st xs x.before

/-- The store right after each of the rounds, newest first, and at the start. -/
def versions (st : WeightStore α) (xs : List (Applied α)) : List (WeightStore α) :=
  xs.map Applied.after ++ [st]

namespace Leads

variable [Scalar α] {st now v : WeightStore α} {x : Applied α} {xs : List (Applied α)}

lemma mem (h : Leads st xs now) : now ∈ versions st xs := by
  cases xs with
  | nil => exact List.mem_singleton.mpr h
  | cons x xs =>
    rw [h.1]
    exact List.mem_cons_self

lemma globalStep_le (h : Leads st xs now) (hv : v ∈ versions st xs) :
    v.globalStep ≤ now.globalStep := by
  induction xs generalizing now with
  | nil => rw [List.mem_singleton.mp hv, show now = st from h]
  | cons x xs ih =>
    obtain ⟨rfl, hok, hrest⟩ := h
    rcases List.mem_cons.mp hv with rfl | hv
    · exact le_rfl
    · rw [WeightStore.globalStep_of_ok hok]
      exact (ih hrest hv).trans (Nat.le_succ _)

/-- Each step number belongs to one version. -/
lemma numbered (h : Leads st xs now) :
    (versions st xs).Pairwise fun v v' => v'.globalStep < v.globalStep := by
  induction xs generalizing now with
  | nil => exact List.pairwise_singleton _ _
  | cons x xs ih =>
    obtain ⟨rfl, hok, hrest⟩ := h
    refine List.pairwise_cons.mpr ⟨?_, ih hrest⟩
    intro v hv
    rw [WeightStore.globalStep_of_ok hok]
    exact Nat.lt_succ_of_le (hrest.globalStep_le hv)

end Leads

variable [Scalar α] {env : ServerEnv α} {s s' : System α} {a : Action α} {st : WeightStore α}

/-- The step number never goes down. -/
lemma Rule.globalStep_le (hr : Rule env s a s') : s.store.globalStep ≤ s'.store.globalStep := by
  rcases hr.globalStep_cases with ⟨hstep, -⟩ | ⟨t, r, happ⟩
  · exact hstep.ge
  · rw [WeightStore.globalStep_of_ok happ.apply]
    exact Nat.le_succ _

/-- A step writes no checkpoint, or that of the store, which it leaves alone. -/
lemma Rule.checkpoints_of (hr : Rule env s a s') : s'.checkpoints = s.checkpoints ∨
    s'.checkpoints = s.store.checkpoint :: s.checkpoints ∧ s'.store = s.store := by
  cases hr
  case checkpointSave => exact Or.inr ⟨rfl, rfl⟩
  all_goals exact Or.inl rfl

namespace System

/-- The store is at the newest version, every ACK carries the step of it or of an earlier one, and
every checkpoint is that of a version. -/
structure VersionInv (st : WeightStore α) (s : System α) : Prop where
  shape : s.ShapeInv st.weights
  deltas : s.DeltasInv
  leads : Leads st s.history.applied s.store
  acks : ∀ t r step todo rest, (s.conns t).handler = .acks r step todo rest →
    step ≤ s.store.globalStep
  acked : ∀ y ∈ s.history.acked, y.step ≤ s.store.globalStep
  checkpoints : ∀ k ∈ s.checkpoints, ∃ v ∈ versions st s.history.applied, k = v.checkpoint
  ordered : s.checkpoints.Pairwise fun k k' => k'.globalStep ≤ k.globalStep

lemma versionInv_init (hst : st.Aligned) (timeout : ℚ) : (init st timeout).VersionInv st where
  shape := shapeInv_init hst timeout
  deltas := deltasInv_init st timeout
  leads := rfl
  acks _ _ _ _ _ h := by cases h
  acked _ h := by cases h
  checkpoints _ h := by cases h
  ordered := .nil

/-- The versions so far stay. -/
lemma versions_subset (hr : Rule env s a s') :
    versions st s.history.applied ⊆ versions st s'.history.applied := by
  intro v hv
  rcases hr.applied_of with he | ⟨t, r, happ⟩
  · rwa [he]
  · rw [happ.history]
    exact List.mem_cons_of_mem _ hv

lemma VersionInv.step (h : s.VersionInv st) (hr : Rule env s a s') (ha : a.WellFormed st.weights) :
    s'.VersionInv st := by
  have hround := hr.round_of fun t r hh => (h.shape.applies h.deltas hh).imp fun _ hnow => hnow.1
  have hle := hr.globalStep_le
  refine ⟨h.shape.step h.deltas hr ha, hr.deltasInv h.deltas, ?_, ?_, ?_, ?_, ?_⟩
  · rcases hround with ⟨hs, he⟩ | ⟨t, r, happ⟩
    · rw [hs, he]
      exact h.leads
    · rw [happ.history]
      exact ⟨rfl, happ.apply, h.leads⟩
  · intro t r step todo rest hh
    rcases hr.acks_of hh with ⟨todo', rest', hold⟩ | ⟨-, rfl⟩
    · exact (h.acks t r step todo' rest' hold).trans hle
    · exact hle
  · intro y hy
    rcases hr.acked_of with he | ⟨t, r, step, e, todo, rest, hack⟩
    · exact (h.acked y (he ▸ hy)).trans hle
    · rw [hack.acked] at hy
      rcases List.mem_cons.mp hy with rfl | hy
      · exact (h.acks t r step _ rest hack.handler).trans hle
      · exact (h.acked y hy).trans hle
  · intro k hk
    rcases hr.checkpoints_of with he | ⟨he, -⟩
    · obtain ⟨v, hv, hkv⟩ := h.checkpoints k (he ▸ hk)
      exact ⟨v, versions_subset hr hv, hkv⟩
    · rw [he] at hk
      rcases List.mem_cons.mp hk with rfl | hk
      · exact ⟨s.store, versions_subset hr h.leads.mem, rfl⟩
      · obtain ⟨v, hv, hkv⟩ := h.checkpoints k hk
        exact ⟨v, versions_subset hr hv, hkv⟩
  · rcases hr.checkpoints_of with he | ⟨he, -⟩
    · rw [he]
      exact h.ordered
    · rw [he]
      refine List.pairwise_cons.mpr ⟨?_, h.ordered⟩
      intro k hk
      obtain ⟨v, hv, rfl⟩ := h.checkpoints k hk
      exact h.leads.globalStep_le hv

/-- In every run in which the pushes that arrive are well formed. -/
lemma versionInv_of_reach {timeout : ℚ} (hst : st.Aligned)
    (h : Reach (System.step env) (fun _ a _ => a.WellFormed st.weights) (.init st timeout) s) :
    s.VersionInv st :=
  h.invariant (P := VersionInv st) (versionInv_init hst timeout) fun hs hstep ha =>
    hs.step (rule_of_step hstep) ha

end System

end DistributedRL
