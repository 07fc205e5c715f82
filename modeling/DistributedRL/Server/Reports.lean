import DistributedRL.Server.Barrier
import DistributedRL.Server.Submit

/-!
# Rounds and the steps they report

`submit` reads the step of the store in a critical section of its own, after `apply_gradients` has
released the lock. Another round can be applied in between, and then both report the later step. If
no round is applied while a thread stands there, every round reports the step to which it has taken
the store, and every step is reported once.
-/

namespace DistributedRL

variable {α : Type*}

/-! ### The step a round reports -/

namespace System

/-- The condition on one step that no round is applied while another thread is between its own
`apply_gradients` and `get_step`. A call that raises does not count. -/
def AppliesAlone [Scalar α] (s : System α) : Action α → Prop
  | .run c _ =>
    match (s.conns c).handler with
    | .apply r => s.store.Raises (r.deltas.map Delta.grads) ∨
      ∀ t r', (s.conns t).handler ≠ .getStep r'
    | _ => True
  | _ => True

/-- The round that has taken the store to step `k` is still to emit its metric. -/
def Finishes (s : System α) (k : ℕ) : Prop :=
  ∃ t r x, (s.conns t).handler.finishing = some r ∧ x ∈ s.history.applied ∧
    x.deltas = r.deltas ∧ x.after.globalStep = k

/-- A round is one call of `apply_gradients`, and its ACKs and its metric carry the step to which
this call has taken the store. So the metrics carry distinct steps, and these are all the steps the
store has taken but those whose rounds are still to emit theirs. -/
structure Reports (st : WeightStore α) (s : System α) : Prop where
  once : (s.history.applied.map Applied.deltas).Nodup
  sending : ∀ t r k, (s.conns t).handler.finishing = some r →
    (s.conns t).handler.stepRead = some k →
    ∃ x ∈ s.history.applied, x.deltas = r.deltas ∧ x.after.globalStep = k
  acked : ∀ y ∈ s.history.acked,
    ∃ x ∈ s.history.applied, x.deltas = y.deltas ∧ x.after.globalStep = y.step
  distinct : s.reported.Nodup
  complete : ∀ k, k ∈ s.reported ↔
    (st.globalStep < k ∧ k ≤ s.store.globalStep) ∧ ¬ s.Finishes k

/-! ### The invariant -/

/-- The rounds are numbered by their steps, and each has been reported or belongs to one thread. -/
structure ReportInv (env : ServerEnv α) (st : WeightStore α) (s : System α) : Prop where
  deltas : s.DeltasInv
  once : (s.history.applied.map Applied.deltas).Nodup
  numbered : (s.history.applied.map fun x => x.after.globalStep).Nodup
  start : st.globalStep ≤ s.store.globalStep
  steps : ∀ k, (∃ x ∈ s.history.applied, x.after.globalStep = k) ↔
    st.globalStep < k ∧ k ≤ s.store.globalStep
  framed : ∀ t k, (s.conns t).handler.stepRead = some k →
    ∃ bytes, frame env.pickle (.ack k) = .ok bytes
  newest : ∀ t r, (s.conns t).handler = .getStep r →
    ∃ x ∈ s.history.applied, x.deltas = r.deltas ∧ x.after.globalStep = s.store.globalStep
  sending : ∀ t r k, (s.conns t).handler.finishing = some r →
    (s.conns t).handler.stepRead = some k →
    ∃ x ∈ s.history.applied, x.deltas = r.deltas ∧ x.after.globalStep = k
  acked : ∀ y ∈ s.history.acked,
    ∃ x ∈ s.history.applied, x.deltas = y.deltas ∧ x.after.globalStep = y.step
  single : ∀ t u r r', (s.conns t).handler.finishing = some r →
    (s.conns u).handler.finishing = some r' → r.deltas = r'.deltas → t = u
  distinct : s.reported.Nodup
  steps_reported : ∀ k ∈ s.reported, ∃ x ∈ s.history.applied, x.after.globalStep = k
  open_iff : ∀ x ∈ s.history.applied, x.after.globalStep ∈ s.reported ↔
    ∀ t r, (s.conns t).handler.finishing = some r → r.deltas ≠ x.deltas

lemma reportInv_init (env : ServerEnv α) (st : WeightStore α) (timeout : ℚ) :
    (init st timeout).ReportInv env st where
  deltas := deltasInv_init st timeout
  once := List.nodup_nil
  numbered := List.nodup_nil
  start := le_rfl
  steps k := by
    constructor
    · rintro ⟨x, hx, -⟩
      cases hx
    · rintro ⟨hlt, hle⟩
      exact absurd hle (Nat.not_le.mpr hlt)
  framed _ _ h := by cases h
  newest _ _ h := by cases h
  sending _ _ _ h := by cases h
  acked _ h := by cases h
  single _ _ _ _ h := by cases h
  distinct := List.nodup_nil
  steps_reported _ h := by cases h
  open_iff _ h := by cases h

variable {s : System α} {st : WeightStore α} {env : ServerEnv α} {t : ConnId} {r : Round α}

/-- A round that is still to be applied is not one of those that have been. -/
lemma DeltasInv.not_applied (hs : s.DeltasInv) (hh : (s.conns t).handler = .apply r)
    {x : Applied α} (hx : x ∈ s.history.applied) : x.deltas ≠ r.deltas := by
  intro he
  obtain ⟨δ, hδ, -⟩ := hs.pending_own t r hh
  refine hs.pending_averaged t δ.id ⟨r, hh, List.mem_map_of_mem hδ⟩ ?_
  exact List.mem_flatMap.mpr ⟨x, hx, List.mem_map_of_mem (he ▸ hδ)⟩

/-- The round that a thread finishes has been applied. -/
lemma ReportInv.applied_of_finishing (h : s.ReportInv env st)
    (hf : (s.conns t).handler.finishing = some r) :
    ∃ x ∈ s.history.applied, x.deltas = r.deltas := by
  cases hk : (s.conns t).handler.stepRead with
  | some k =>
    obtain ⟨x, hx, hd, -⟩ := h.sending t r k hf hk
    exact ⟨x, hx, hd⟩
  | none =>
    cases hh : (s.conns t).handler <;> rw [hh] at hf hk <;> cases hf <;> cases hk
    obtain ⟨x, hx, hd, -⟩ := h.newest t r hh
    exact ⟨x, hx, hd⟩

/-- A round is determined by its deltas. -/
lemma ReportInv.eq_of_deltas (h : s.ReportInv env st) {x y : Applied α}
    (hx : x ∈ s.history.applied) (hy : y ∈ s.history.applied) (he : x.deltas = y.deltas) :
    x = y :=
  List.inj_on_of_nodup_map h.once hx hy he

/-- A round is determined by its step. -/
lemma ReportInv.eq_of_step (h : s.ReportInv env st) {x y : Applied α}
    (hx : x ∈ s.history.applied) (hy : y ∈ s.history.applied)
    (he : x.after.globalStep = y.after.globalStep) : x = y :=
  List.inj_on_of_nodup_map h.numbered hx hy he

lemma ReportInv.reports (h : s.ReportInv env st) : s.Reports st where
  once := h.once
  sending := h.sending
  acked := h.acked
  distinct := h.distinct
  complete k := by
    constructor
    · intro hk
      obtain ⟨x, hx, rfl⟩ := h.steps_reported k hk
      refine ⟨(h.steps _).mp ⟨x, hx, rfl⟩, ?_⟩
      rintro ⟨t, r, y, hf, hy, hd, hstep⟩
      obtain rfl := h.eq_of_step hy hx hstep
      exact (h.open_iff y hy).mp hk t r hf hd.symm
    · rintro ⟨hrange, hnot⟩
      obtain ⟨x, hx, rfl⟩ := (h.steps k).mpr hrange
      refine (h.open_iff x hx).mpr ?_
      intro t r hf hd
      exact hnot ⟨t, r, x, hf, hx, hd.symm, rfl⟩

end System

/-! ### Steps -/

variable [Scalar α] {env : ServerEnv α} {s s' : System α} {a : Action α} {st : WeightStore α}
  {t : ConnId} {r : Round α} {k : ℕ}

namespace System

lemma ReportInv.sending_step (h : s.ReportInv env st) (hr : Rule env s a s')
    (hsub : s.history.applied ⊆ s'.history.applied)
    (hf : (s'.conns t).handler.finishing = some r)
    (hk : (s'.conns t).handler.stepRead = some k) :
    ∃ x ∈ s'.history.applied, x.deltas = r.deltas ∧ x.after.globalStep = k := by
  rcases hr.finishing_of hf with hold | happ
  · obtain ⟨x, hx, hx'⟩ : ∃ x ∈ s.history.applied, x.deltas = r.deltas ∧
        x.after.globalStep = k := by
      rcases hr.stepRead_of hk with hread | ⟨now, r', -, hh, rfl⟩
      · exact h.sending t r k hold hread
      · rw [hh] at hold
        cases hold
        exact h.newest t r hh
    exact ⟨x, hsub hx, hx'⟩
  · rw [happ.next] at hk
    cases hk

lemma ReportInv.acked_step (h : s.ReportInv env st) (hr : Rule env s a s')
    (hsub : s.history.applied ⊆ s'.history.applied) {y : Acked α} (hy : y ∈ s'.history.acked) :
    ∃ x ∈ s'.history.applied, x.deltas = y.deltas ∧ x.after.globalStep = y.step := by
  rcases hr.acked_of with he | ⟨t, r, k, e, todo, rest, hack⟩
  · obtain ⟨x, hx, hx'⟩ := h.acked y (he ▸ hy)
    exact ⟨x, hsub hx, hx'⟩
  · rw [hack.acked] at hy
    rcases List.mem_cons.mp hy with rfl | hy
    · obtain ⟨x, hx, hx'⟩ := h.sending t r k (by rw [hack.handler]; rfl)
        (by rw [hack.handler]; rfl)
      exact ⟨x, hsub hx, hx'⟩
    · obtain ⟨x, hx, hx'⟩ := h.acked y hy
      exact ⟨x, hsub hx, hx'⟩

end System

lemma Rule.Applies.applied (happ : Rule.Applies s a s' t r) :
    s'.history.applied = ⟨r.deltas, s.store, s'.store⟩ :: s.history.applied := by
  rw [happ.history]
  rfl

/-- The thread that applies a round emits no metric. -/
lemma Rule.Applies.reported (happ : Rule.Applies s a s' t r) (hr : Rule env s a s') :
    s'.reported = s.reported := by
  obtain ⟨now, rfl⟩ := happ.action
  rcases hr.reported_of with he | ⟨u, r', k, hemit⟩
  · exact he
  · obtain ⟨_, he⟩ := hemit.action
    cases he
    cases happ.handler.symm.trans hemit.handler

/-- The thread that applies a round is the only one that begins to finish one. -/
lemma Rule.Applies.finishing (happ : Rule.Applies s a s' t r) (hr : Rule env s a s') {u : ConnId}
    {r' : Round α} (hu : (s'.conns u).handler.finishing = some r') :
    (s.conns u).handler.finishing = some r' ∨ u = t ∧ r' = r := by
  obtain ⟨now, rfl⟩ := happ.action
  by_cases hut : u = t
  · subst hut
    rw [happ.next] at hu
    exact Or.inr ⟨rfl, (Option.some.inj hu).symm⟩
  · exact Or.inl (hr.handler_of_ne (fun he => hut (Option.some.inj he).symm) ▸ hu)

/-- The other threads go on finishing theirs. -/
lemma Rule.Applies.still_finishing (happ : Rule.Applies s a s' t r) (hr : Rule env s a s')
    {u : ConnId} {r' : Round α} (hu : (s.conns u).handler.finishing = some r') :
    (s'.conns u).handler.finishing = some r' := by
  obtain ⟨now, rfl⟩ := happ.action
  have hut : u ≠ t := by
    rintro rfl
    rw [happ.handler] at hu
    cases hu
  rw [hr.handler_of_ne fun he => hut (Option.some.inj he).symm]
  exact hu

namespace System

/-- No other thread is about to read the step. -/
lemma AppliesAlone.not_getStep (halone : s.AppliesAlone a) (happ : Rule.Applies s a s' t r)
    (u : ConnId) (r' : Round α) : (s.conns u).handler ≠ .getStep r' := by
  obtain ⟨now, rfl⟩ := happ.action
  simp only [AppliesAlone, happ.handler] at halone
  rcases halone with ⟨e, he⟩ | hnone
  · rw [happ.apply] at he
    cases he
  · exact hnone u r'

/-- The step to which a round takes the store is new. -/
lemma ReportInv.step_new (h : s.ReportInv env st) (happ : Rule.Applies s a s' t r)
    {x : Applied α} (hx : x ∈ s.history.applied) :
    x.after.globalStep ≠ s'.store.globalStep := by
  have hle := ((h.steps _).mp ⟨x, hx, rfl⟩).2
  rw [WeightStore.globalStep_of_ok happ.apply]
  exact (Nat.lt_succ_of_le hle).ne

/-- The round of a thread that finishes one is not the round that is applied. -/
lemma ReportInv.finishing_ne (h : s.ReportInv env st) (happ : Rule.Applies s a s' t r)
    {u : ConnId} {r' : Round α} (hu : (s.conns u).handler.finishing = some r') :
    r'.deltas ≠ r.deltas := by
  obtain ⟨x, hx, hd⟩ := h.applied_of_finishing hu
  rw [← hd]
  exact h.deltas.not_applied happ.handler hx

/-- The new round is open, and the others are as open as before. -/
lemma ReportInv.open_applies (h : s.ReportInv env st) (hr : Rule env s a s')
    (happ : Rule.Applies s a s' t r) {x : Applied α} (hx : x ∈ s'.history.applied) :
    x.after.globalStep ∈ s'.reported ↔
      ∀ u r', (s'.conns u).handler.finishing = some r' → r'.deltas ≠ x.deltas := by
  rw [happ.applied] at hx
  rw [happ.reported hr]
  rcases List.mem_cons.mp hx with rfl | hold
  · refine iff_of_false ?_ ?_
    · intro hk
      obtain ⟨y, hy, hk⟩ := h.steps_reported _ hk
      exact h.step_new happ hy hk
    · intro hall
      exact hall t r (by rw [happ.next]; rfl) rfl
  · rw [h.open_iff x hold]
    constructor
    · intro hall u r' hu
      rcases happ.finishing hr hu with hu | ⟨-, rfl⟩
      · exact hall u r' hu
      · exact (h.deltas.not_applied happ.handler hold).symm
    · intro hall u r' hu
      exact hall u r' (happ.still_finishing hr hu)

/-- A round is applied. No thread has a step to read, so the new one is for its thread alone. -/
lemma ReportInv.applies (h : s.ReportInv env st) (hr : Rule env s a s')
    (hfit : s.AckFits env a) (halone : s.AppliesAlone a) (happ : Rule.Applies s a s' t r) :
    s'.ReportInv env st := by
  have hframed : s.Framed env a := ⟨hfit, h.framed⟩
  have hsub : s.history.applied ⊆ s'.history.applied := by
    rw [happ.applied]
    exact List.subset_cons_self _ _
  have hstep : s'.store.globalStep = s.store.globalStep + 1 :=
    WeightStore.globalStep_of_ok happ.apply
  refine ⟨hr.deltasInv h.deltas, ?_, ?_, ?_, ?_, fun u k hk => hr.framed_of hframed hk,
    ?_, fun u r' k hf hk => h.sending_step hr hsub hf hk,
    fun y hy => h.acked_step hr hsub hy, ?_, happ.reported hr ▸ h.distinct, ?_,
    fun x hx => h.open_applies hr happ hx⟩
  · rw [happ.applied, List.map_cons, List.nodup_cons]
    refine ⟨?_, h.once⟩
    intro hmem
    obtain ⟨x, hx, hd⟩ := List.mem_map.mp hmem
    exact h.deltas.not_applied happ.handler hx hd
  · rw [happ.applied, List.map_cons, List.nodup_cons]
    refine ⟨?_, h.numbered⟩
    intro hmem
    obtain ⟨x, hx, hd⟩ := List.mem_map.mp hmem
    exact h.step_new happ hx hd
  · rw [hstep]
    exact Nat.le_succ_of_le h.start
  · intro k
    have hstart := h.start
    simp only [happ.applied, List.mem_cons, exists_eq_or_imp, h.steps k, hstep]
    omega
  · intro u r' hu
    rcases happ.finishing hr (by rw [hu]; rfl) with hold | ⟨rfl, rfl⟩
    · rcases hr.getStep_of hu with hold' | happ'
      · exact absurd hold' (halone.not_getStep happ u r')
      · rw [happ'.handler] at hold
        cases hold
    · exact ⟨_, happ.applied ▸ List.mem_cons_self, rfl, rfl⟩
  · intro u v r' r'' hu hv hd
    rcases happ.finishing hr hu with hu | ⟨rfl, rfl⟩
    · rcases happ.finishing hr hv with hv | ⟨rfl, rfl⟩
      · exact h.single u v r' r'' hu hv hd
      · exact absurd hd (h.finishing_ne happ hu)
    · rcases happ.finishing hr hv with hv | ⟨rfl, rfl⟩
      · exact absurd hd.symm (h.finishing_ne happ hv)
      · rfl
  · intro k hk
    obtain ⟨x, hx, hk⟩ := h.steps_reported k (happ.reported hr ▸ hk)
    exact ⟨x, hsub hx, hk⟩

/-- What has been reported is right: no step twice, each of them that of a round, and a round whose
step is missing is still being finished. -/
structure Reported (s : System α) : Prop where
  distinct : s.reported.Nodup
  steps_reported : ∀ k ∈ s.reported, ∃ x ∈ s.history.applied, x.after.globalStep = k
  open_iff : ∀ x ∈ s.history.applied, x.after.globalStep ∈ s.reported ↔
    ∀ t r, (s.conns t).handler.finishing = some r → r.deltas ≠ x.deltas

/-- A step that reports nothing. -/
lemma ReportInv.silent (h : s.ReportInv env st) (hr : Rule env s a s') (hframed : s.Framed env a)
    (happlied : s'.history.applied = s.history.applied) (hreported : s'.reported = s.reported)
    (hfin : ∀ {u r}, (s'.conns u).handler.finishing = some r →
      (s.conns u).handler.finishing = some r) : s'.Reported := by
  refine ⟨hreported ▸ h.distinct, ?_, ?_⟩
  · rw [hreported, happlied]
    exact h.steps_reported
  · rw [happlied]
    intro x hx
    rw [hreported, h.open_iff x hx]
    refine ⟨fun hall u r hu => hall u r (hfin hu), ?_⟩
    intro hall u r hu
    rcases hr.finishing_next hframed hu with hu | ⟨k, hemit⟩
    · exact hall u r hu
    · have hcons := hemit.reported.symm.trans hreported
      simp at hcons

/-- A thread that emits its metric is the only one that finishes that round. -/
lemma ReportInv.emits (h : s.ReportInv env st) (hr : Rule env s a s') (hframed : s.Framed env a)
    (happlied : s'.history.applied = s.history.applied) (hemit : Rule.Emits s a s' t r k)
    (hfin : ∀ {u r}, (s'.conns u).handler.finishing = some r →
      (s.conns u).handler.finishing = some r) : s'.Reported := by
  have hown : (s.conns t).handler.finishing = some r := by
    rw [hemit.handler]
    rfl
  obtain ⟨x, hx, hd, rfl⟩ := h.sending t r k hown (by rw [hemit.handler]; rfl)
  have hopen : x.after.globalStep ∉ s.reported := by
    rw [h.open_iff x hx]
    intro hall
    exact hall t r hown hd.symm
  have hothers : ∀ {u r'}, (s'.conns u).handler.finishing = some r' → r'.deltas ≠ r.deltas := by
    intro u r' hu he
    obtain rfl := h.single u t r' r (hfin hu) hown he
    rw [hemit.next] at hu
    cases hu
  refine ⟨?_, ?_, ?_⟩
  · rw [hemit.reported]
    exact List.nodup_cons.mpr ⟨hopen, h.distinct⟩
  · intro k hk
    rw [hemit.reported] at hk
    rw [happlied]
    rcases List.mem_cons.mp hk with rfl | hk
    · exact ⟨x, hx, rfl⟩
    · exact h.steps_reported k hk
  · rw [happlied]
    intro y hy
    rw [hemit.reported, List.mem_cons, h.open_iff y hy]
    constructor
    · rintro (he | hall) u r' hu
      · rw [h.eq_of_step hy hx he, hd]
        exact hothers hu
      · exact hall u r' (hfin hu)
    · intro hall
      by_cases hyx : y.deltas = r.deltas
      · exact Or.inl (by rw [h.eq_of_deltas hy hx (hyx.trans hd.symm)])
      · right
        intro u r' hu
        rcases hr.finishing_next hframed hu with hu | ⟨k, hemit'⟩
        · exact hall u r' hu
        · obtain ⟨now, rfl⟩ := hemit.action
          obtain ⟨_, he⟩ := hemit'.action
          cases he
          cases hemit.handler.symm.trans hemit'.handler
          exact Ne.symm hyx

/-- Any other step. -/
lemma ReportInv.stays (h : s.ReportInv env st) (hr : Rule env s a s')
    (hfit : s.AckFits env a) (hstep : s'.store.globalStep = s.store.globalStep)
    (happlied : s'.history.applied = s.history.applied)
    (hnot : ∀ t r, ¬ Rule.Applies s a s' t r) : s'.ReportInv env st := by
  have hframed : s.Framed env a := ⟨hfit, h.framed⟩
  have hsub : s.history.applied ⊆ s'.history.applied := by
    rw [happlied]
    exact List.Subset.refl _
  have hfin : ∀ {u r}, (s'.conns u).handler.finishing = some r →
      (s.conns u).handler.finishing = some r :=
    fun hu => (hr.finishing_of hu).resolve_right (hnot _ _)
  have hreported : s'.Reported := by
    rcases hr.reported_of with he | ⟨t, r, k, hemit⟩
    · exact h.silent hr hframed happlied he hfin
    · exact h.emits hr hframed happlied hemit hfin
  refine ⟨hr.deltasInv h.deltas, happlied ▸ h.once, happlied ▸ h.numbered, hstep ▸ h.start, ?_,
    fun u k hk => hr.framed_of hframed hk, ?_,
    fun u r k hf hk => h.sending_step hr hsub hf hk, fun y hy => h.acked_step hr hsub hy,
    fun u v r r' hu hv hd => h.single u v r r' (hfin hu) (hfin hv) hd, hreported.distinct,
    hreported.steps_reported, hreported.open_iff⟩
  · rw [happlied, hstep]
    exact h.steps
  · intro u r hu
    rw [happlied, hstep]
    exact h.newest u r ((hr.getStep_of hu).resolve_right (hnot u r))

lemma ReportInv.step (h : s.ReportInv env st) (hr : Rule env s a s') (hfit : s.AckFits env a)
    (halone : s.AppliesAlone a) : s'.ReportInv env st := by
  by_cases happ : ∃ t r, Rule.Applies s a s' t r
  · obtain ⟨t, r, happ⟩ := happ
    exact h.applies hr hfit halone happ
  · obtain ⟨hstep, happlied⟩ := hr.globalStep_cases.resolve_right happ
    exact h.stays hr hfit hstep happlied fun t r hx => happ ⟨t, r, hx⟩

end System

/-- In every run in which no round is applied while another thread is about to read the step of its
own, whatever the clients send and in every mode, each round reports the step to which it has taken
the store, and every step is reported by one round. -/
theorem reports_own_step {timeout : ℚ}
    (h : Reach (System.step env) (fun s a _ => s.AppliesAlone a ∧ s.AckFits env a)
      (.init st timeout) s) : s.Reports st := by
  have hinv : s.ReportInv env st := by
    refine h.invariant (P := System.ReportInv env st) (System.reportInv_init env st timeout) ?_
    intro s a s' hs hstep hok
    exact hs.step (System.rule_of_step hstep) hok.2 hok.1
  exact hinv.reports

/-! ### Two runs -/

namespace Scenario

/-- A server with a quorum of one worker. -/
def quorumEnv : ServerEnv ℚ := ⟨some ⟨1, 100⟩, id, ⟨fun _ => [], fun _ => none⟩⟩

/-- The thread of `c` reads the step of its round. -/
def readsStep (c : ConnId) : List (Action ℚ) := [.run c 0]

/-- The thread of `c` sends its two ACKs and emits the metric. -/
def reports (c : ConnId) : List (Action ℚ) := [.write c 4, .write c 4, .run c 0]

/-- The worker of `c` pushes, and its round is applied. -/
def pushes (c : ConnId) : List (Action ℚ) := request c c (push 1) ++ [.run c 0, .run c 0]

/-- The round of worker `1` is applied before worker `0` has read the step of its own. -/
def overlaps : List (Action ℚ) :=
  joins 0 ++ joins 1 ++ pushes 0 ++ pushes 1 ++ readsStep 0 ++ reports 0 ++ readsStep 1 ++ reports 1

/-- The round of worker `1` is applied while worker `0` sends its ACKs. -/
def overlapsLater : List (Action ℚ) :=
  joins 0 ++ joins 1 ++ pushes 0 ++ readsStep 0 ++ pushes 1 ++ readsStep 1 ++ reports 1 ++ reports 0

/-- A check that implies `AppliesAlone` in a run of the first two connections. -/
def appliesAlone (s : System ℚ) : Action ℚ → Bool
  | .run c _ =>
    match (s.conns c).handler with
    | .apply _ => ∀ t < (2 : ℕ), ¬ ((s.conns t).handler matches .getStep _)
    | _ => true
  | _ => true

lemma appliesAlone_sound {s : System ℚ} {a : Action ℚ} (h : appliesAlone s a = true)
    (habs : ∀ c, ¬ c < 2 → (s.conns c).handler = .absent) : s.AppliesAlone a := by
  cases a with
  | run c now =>
    simp only [System.AppliesAlone]
    simp only [appliesAlone] at h
    split
    · next r hh =>
      simp only [hh, decide_eq_true_eq] at h
      right
      intro t r' ht
      by_cases hlt : t < 2
      · exact h t hlt (by rw [ht])
      · rw [habs t hlt] at ht
        cases ht
    · trivial
  | _ => trivial

end Scenario

open Scenario

/-- Both rounds report the step of the second one. -/
theorem both_report_last : ∃ s, Reach (System.step quorumEnv) (fun _ _ _ => True) start s ∧
    s.reported = [2, 2] ∧ ¬ s.Reports start.store := by
  obtain ⟨s, hreach, hrep⟩ := Reach.of_script (System.step quorumEnv) (fun _ _ _ => True) start
    overlaps (fun _ _ _ => true) (fun _ _ _ _ => trivial)
    (fun s : System ℚ => s.reported = [2, 2]) (by decide +kernel)
  refine ⟨s, hreach, hrep, ?_⟩
  intro h
  have hnodup := h.distinct
  rw [hrep] at hnodup
  exact absurd hnodup (by decide)

/-- The first round has read its step in time, and reports it after the second one. -/
theorem reports_own_step_overlapsLater :
    ∃ s, Reach (System.step quorumEnv)
      (fun s a _ => s.AppliesAlone a ∧ s.AckFits quorumEnv a) start s ∧
      s.reported = [1, 2] ∧ s.Reports start.store := by
  obtain ⟨s, hreach, hrep⟩ := Reach.of_script (System.step quorumEnv)
    (fun s a _ => (appliesAlone s a = true ∧ s.AckFits quorumEnv a) ∧ a.below 2 = true) start
    overlapsLater (fun s a _ => (appliesAlone s a && decide (s.AckFits quorumEnv a)) && a.below 2)
    (fun s a _ h => by simpa only [Bool.and_eq_true, decide_eq_true_eq] using h)
    (fun s : System ℚ => s.reported = [1, 2]) (by decide +kernel)
  have hrun : Reach (System.step quorumEnv)
      (fun s a _ => s.AppliesAlone a ∧ s.AckFits quorumEnv a) start s :=
    hreach.mono_of (P := fun s => ∀ d, ¬ d < 2 → (s.conns d).handler = .absent)
      (fun hr d hd => absent_of_scripted hr (fun h => h.2) hd)
      (fun habs _ h => ⟨appliesAlone_sound h.1.1 habs, h.1.2⟩)
  exact ⟨s, hrun, hrep, reports_own_step hrun⟩

end DistributedRL
