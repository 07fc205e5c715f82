import DistributedRL.Data.Transition
import DistributedRL.Server.Locked

/-!
# The sections are atomic

Every run of the server with the lock is a run of the server in which each section is one step: the
one in which its thread leaves the section. So whatever holds in all runs of that server also holds
while parameters are updated and copied one by one.
-/

namespace DistributedRL

variable {α : Type*}

/-! ### Copies -/

/-- A copy of the dict has been made up to the parameters of `names`. -/
structure Copies (d copy : Weights α) (names : List String) : Prop where
  keys : d.keys = copy.keys ++ names
  get? : ∀ name ∈ copy.keys, copy.get? name = d.get? name

namespace Copies

variable {d copy : Weights α} {name : String} {names : List String}

lemma start (d : Weights α) : Copies d ∅ d.keys := ⟨rfl, fun _ h => by cases h⟩

lemma next (h : Copies d copy (name :: names)) :
    Copies d (System.copyParam d name copy) names := by
  have hmem : name ∈ d.keys := by
    rw [h.keys]
    exact List.mem_append_right _ List.mem_cons_self
  have hnot : name ∉ copy.keys := by
    have hn := d.nodup_keys
    rw [h.keys] at hn
    exact fun hc => List.disjoint_of_nodup_append hn hc List.mem_cons_self
  obtain ⟨w, hw⟩ := Dict.mem_keys_iff.mp hmem
  rw [System.copyParam, hw, Option.elim]
  constructor
  · rw [h.keys, Dict.keys_set, if_neg hnot, List.append_assoc]
    rfl
  · intro other ho
    rw [Dict.get?_set]
    split_ifs with he
    · rw [he, hw]
    · exact h.get? other ((Dict.mem_keys_set.mp ho).resolve_left he)

lemma done (h : Copies d copy []) : copy = d := by
  have hkeys : copy.keys = d.keys := by rw [h.keys, List.append_nil]
  refine Dict.ext_get? hkeys ?_
  intro name
  by_cases hn : name ∈ copy.keys
  · exact h.get? name hn
  · rw [Dict.get?_eq_none_iff.mpr hn, Dict.get?_eq_none_iff.mpr (hkeys ▸ hn)]

end Copies

/-! ### What holds inside a section -/

variable [Scalar α]

lemma WeightStore.applyParams_append (grads : List (Payload α)) (names rest : List String)
    (st : WeightStore α) : applyParams grads (names ++ rest) st =
      match applyParams grads names st with
      | (st', .ok _) => applyParams grads rest st'
      | (st', .error e) => (st', .error e) := by
  induction names generalizing st with
  | nil => rfl
  | cons name names ih =>
    simp only [List.cons_append, applyParams]
    cases applyParam grads name st with
    | mk st' r =>
      cases r with
      | ok _ => exact ih st'
      | error e => rfl

/-- The thread stands at `h`, the store is `st`, and it was `before` when the thread took the lock.
-/
inductive Critical.Sound (h : Handler α) (w : Option WorkerId) (st before : WeightStore α) :
    Critical α → Prop
  | getWeights {m names copy} (hh : h = .dispatch m) (ht : m.type = .pullWeights)
      (hw : w.isSome) (hs : st = before) (hc : Copies before.weights copy names) :
    Sound h w st before (.getWeights names copy)
  | getStep {step} (hh : (∃ m, h = .beaten m ∧ w.isSome) ∨ ∃ r, h = .getStep r)
      (hs : st = before) (hstep : ∀ k ∈ step, k = before.globalStep) :
    Sound h w st before (.getStep step)
  | applyGradients {r names done} (hh : h = .apply r)
      (hk : before.weights.keys = done ++ names)
      (ha : WeightStore.applyParams (r.deltas.map Delta.grads) done before = (st, .ok ())) :
    Sound h w st before (.applyGradients (r.deltas.map Delta.grads) names)
  | applied {r} (hh : h = .apply r)
      (ha : before.applyGradients (r.deltas.map Delta.grads) = (st, .ok ())) :
    Sound h w st before .applied
  | raised {r e} (hh : h = .apply r)
      (ha : before.applyGradients (r.deltas.map Delta.grads) = (st, .error e)) :
    Sound h w st before .raised
  | saveWeights {names weights} (hh : h = .checkpointSave) (hs : st = before)
      (hc : Copies before.weights weights names) :
    Sound h w st before (.saveWeights names weights)
  | saveBuffers {names buffers} (hh : h = .checkpointSave) (hs : st = before)
      (hc : Copies before.momentumBuffers buffers names) :
    Sound h w st before (.saveBuffers before.weights names buffers)
  | saveDump (hh : h = .checkpointSave) (hs : st = before) :
    Sound h w st before (.saveDump before.checkpoint)

variable {env : ServerEnv α} {s s' : System α} {a : Action α} {c : ConnId} {h : Handler α}
  {w : Option WorkerId} {st before : WeightStore α} {x x' : Critical α}

/-- A thread inside a section is one that needed the lock. -/
lemma Critical.Sound.needsLock (hs : x.Sound h w st before) : h.NeedsLock = true := by
  cases hs with
  | getWeights hh ht => rw [hh]; simpa [Handler.NeedsLock] using ht
  | getStep hh => obtain ⟨m, hh, -⟩ | ⟨r, hh⟩ := hh <;> rw [hh] <;> rfl
  | applyGradients hh | applied hh | raised hh | saveWeights hh | saveBuffers hh | saveDump hh =>
    rw [hh]; rfl

lemma Critical.sound_acquire (hx : s.critical c = some x) :
    x.Sound (s.conns c).handler (s.conns c).workerId s.store s.store := by
  simp only [System.critical] at hx
  split at hx
  · next m w hh hw =>
    split_ifs at hx with ht
    cases hx
    exact .getWeights hh ht (by rw [hw]; rfl) rfl (.start _)
  · next m w hh hw =>
    cases hx
    exact .getStep (Or.inl ⟨m, hh, by rw [hw]; rfl⟩) rfl (fun k hk => by cases hk)
  · next r w hh =>
    cases hx
    exact .applyGradients hh (List.nil_append _).symm rfl
  · next w r hh =>
    cases hx
    exact .getStep (Or.inr ⟨r, hh⟩) rfl (fun k hk => by cases hk)
  · next w hh =>
    cases hx
    exact .saveWeights hh rfl (.start _)
  · cases hx

/-- One turn of the loop of `apply_gradients`, whose earlier turns went through. -/
lemma Critical.Sound.turn_param {r : Round α} {name : String} {done names : List String}
    (hh : h = .apply r) (hk : before.weights.keys = done ++ name :: names)
    (ha : WeightStore.applyParams (r.deltas.map Delta.grads) done before = (s.store, .ok ()))
    (ht : s.turn (.applyGradients (r.deltas.map Delta.grads) (name :: names)) = some (s', x')) :
    x'.Sound h w s'.store before ∧ s' = { s with store := s'.store } := by
  have happ := WeightStore.applyParams_append (r.deltas.map Delta.grads) done (name :: names)
    before
  rw [ha, ← hk] at happ
  simp only [WeightStore.applyParams] at happ
  simp only [System.turn] at ht
  split at ht
  · next st _ he =>
    cases ht
    have hk' : before.weights.keys = (done ++ [name]) ++ names := by
      rw [hk, List.append_assoc]; rfl
    have ha' : WeightStore.applyParams (r.deltas.map Delta.grads) (done ++ [name]) before =
        (st, .ok ()) := by
      rw [WeightStore.applyParams_append, ha]
      simp only [WeightStore.applyParams, he]
    exact ⟨.applyGradients hh hk' ha', rfl⟩
  · next st e he =>
    cases ht
    have ha' : before.applyGradients (r.deltas.map Delta.grads) = (st, .error e) := by
      rw [WeightStore.applyGradients, happ, he]
    exact ⟨.raised hh ha', rfl⟩

/-- One step inside the section. Nothing but the store changes. -/
lemma Critical.Sound.turn (hs : x.Sound h w s.store before) (ht : s.turn x = some (s', x')) :
    x'.Sound h w s'.store before ∧ s' = { s with store := s'.store } := by
  cases hs with
  | @getWeights m names copy hh hp hw hst hc =>
    cases names with
    | nil => cases ht
    | cons name names =>
      cases ht
      refine ⟨.getWeights hh hp hw hst ?_, rfl⟩
      rw [hst]
      exact hc.next
  | @getStep step hh hst hstep =>
    cases step with
    | some k => cases ht
    | none =>
      cases ht
      refine ⟨.getStep hh hst ?_, rfl⟩
      intro k hk
      rw [← Option.some.inj hk, hst]
  | @applyGradients r names done hh hk ha =>
    cases names with
    | nil =>
      cases ht
      refine ⟨.applied hh ?_, rfl⟩
      rw [List.append_nil] at hk
      rw [WeightStore.applyGradients, hk, ha]
    | cons name names => exact turn_param hh hk ha ht
  | applied | raised => cases ht
  | saveDump => cases ht
  | @saveWeights names weights hh hst hc =>
    cases names with
    | nil =>
      cases ht
      rw [hc.done]
      refine ⟨.saveBuffers hh hst ?_, rfl⟩
      rw [hst]
      exact .start _
    | cons name names =>
      cases ht
      refine ⟨.saveWeights hh hst ?_, rfl⟩
      rw [hst]
      exact hc.next
  | @saveBuffers names buffers hh hst hc =>
    cases names with
    | nil =>
      cases ht
      subst hst
      rw [hc.done]
      exact ⟨.saveDump hh rfl, rfl⟩
    | cons name names =>
      cases ht
      refine ⟨.saveBuffers hh hst ?_, rfl⟩
      rw [hst]
      exact hc.next

/-- The thread that holds the lock stands where its section says. -/
def Locked.Sound (s : Locked α) : Prop :=
  ∀ h, s.held = some h → h.point.Sound (s.sys.conns h.conn).handler (s.sys.conns h.conn).workerId
    s.sys.store h.before

/-! ### The other threads -/

lemma System.store_of_step (hs : s.step env a = some s') (hn : s.NeedsLock a = false) :
    s'.store = s.store := by
  have hstore : s.step env a = (s.step env a).map fun s' => { s' with store := s.store } :=
    step_withStore s.store hn
  rw [hs, Option.map_some] at hstore
  rw [Option.some.inj hstore]

/-- A step that does not need the lock does not move the thread that holds it. -/
lemma Rule.holder_of (hr : Rule env s a s') (hn : s.NeedsLock a = false)
    (hl : (s.conns c).handler.NeedsLock = true) :
    (s'.conns c).handler = (s.conns c).handler ∧
      (s'.conns c).workerId = (s.conns c).workerId := by
  by_cases ha : a.conn = some c
  · cases hr <;> cases ha <;>
      simp_all [System.NeedsLock, Handler.NeedsLock]
  · exact ⟨hr.handler_of_ne ha, hr.workerId_of_ne ha⟩

/-! ### Simulation -/

/-- What the action records if it is a whole section. -/
def System.pulls (s : System α) : Action α → List (Pulled α)
  | .run c _ =>
    match (s.conns c).handler with
    | .dispatch m =>
      if m.type = .pullWeights then [⟨c, s.store.weights, s.store.globalStep⟩] else []
    | _ => []
  | _ => []

omit [Scalar α] in
lemma System.pulls_eq_nil (hn : s.NeedsLock a = false) : s.pulls a = [] := by
  cases a with
  | run c now =>
    simp only [pulls]
    split
    · next m hh =>
      simp only [NeedsLock, hh, Handler.NeedsLock, decide_eq_false_iff_not] at hn
      rw [if_neg hn]
    · rfl
  | _ => rfl

/-- What the step is to the server whose sections are single steps. -/
def Locked.performed (s : Locked α) : LockedAction α → Option (Action α)
  | .other a => some a
  | .acquire _ | .turn => none
  | .release => s.held.map fun h => .run h.conn 0
  | .abort => s.held.map fun h => .fail h.conn

/-- Leaving a section is the whole section, in one step. -/
lemma Critical.Sound.step_of_release
    (hs : x.Sound (s.conns c).handler (s.conns c).workerId s.store before)
    (h : s.release env ⟨c, before, x⟩ = some s') :
    { s with store := before }.step env (.run c 0) = some s' := by
  show { s with store := before }.advance env c 0 = some s'
  generalize hh' : (s.conns c).handler = handler at hs
  generalize hw' : (s.conns c).workerId = worker at hs
  cases hs with
  | @getWeights m names copy hh hp hw hst hc =>
    obtain ⟨w, rfl⟩ := Option.isSome_iff_exists.mp hw
    cases names with
    | cons name names => cases h
    | nil =>
      rw [hc.done] at h
      subst hst
      simp only [System.release] at h
      simp only [System.advance, hh', hh, hw', System.dispatch, hp]
      exact h
  | @getStep step hh hst hstep =>
    subst hst
    cases step with
    | none => cases h
    | some k =>
      obtain rfl : k = s.store.globalStep := hstep k rfl
      obtain ⟨m, rfl, hw⟩ | ⟨r, rfl⟩ := hh
      · obtain ⟨w, rfl⟩ := Option.isSome_iff_exists.mp hw
        simp only [System.release, hh', hw'] at h
        simp only [System.advance, hh', hw', System.heartbeat]
        exact h
      · simp only [System.release, hh'] at h
        simp only [System.advance, hh']
        exact h
  | applyGradients => cases h
  | @applied r hh ha =>
    subst hh
    simp only [System.release, hh'] at h
    simp only [System.advance, hh', System.applyGradients, ha]
    exact h
  | @raised r e hh ha =>
    subst hh
    simp only [System.release] at h
    simp only [System.advance, hh', System.applyGradients, ha]
    exact h
  | saveWeights => cases h
  | saveBuffers => cases h
  | saveDump hh hst =>
    subst hh hst
    simp only [System.release] at h
    simp only [System.advance, hh']
    exact h

namespace Locked

variable {l l' : Locked α} {b : LockedAction α}

/-- What a step of the server with the lock is to the atomic one: nothing, or a step. -/
inductive Simulates (env : ServerEnv α) (l : Locked α) (b : LockedAction α) (l' : Locked α) : Prop
  | stutter (hp : l.performed b = none) (hatomic : l'.atomic = l.atomic)
      (hpulled : l'.pulled = l.pulled)
  | step {a : Action α} (hp : l.performed b = some a) (hstep : l.atomic.step env a = some l'.atomic)
      (hpulled : l'.pulled = l.atomic.pulls a ++ l.pulled)

lemma recordPull_eq {held : Held α}
    (hs : held.point.Sound (l.sys.conns held.conn).handler (l.sys.conns held.conn).workerId
      l.sys.store held.before) (h : l.sys.release env held = some s') :
    l.recordPull held =
      { l.sys with store := held.before }.pulls (.run held.conn 0) ++ l.pulled := by
  obtain ⟨c, before, x⟩ := held
  simp only [recordPull, System.pulls]
  simp only at hs h
  generalize hh' : (l.sys.conns c).handler = handler at hs
  cases hs with
  | @getWeights m names copy hh hp hw hst hc =>
    cases names with
    | cons name names => cases h
    | nil =>
      subst hst
      rw [hc.done, hh]
      simp only [hp, if_true]
      rfl
  | getStep hh => obtain ⟨m, rfl, -⟩ | ⟨r, rfl⟩ := hh <;> rfl
  | applyGradients hh | applied hh | raised hh | saveWeights hh | saveBuffers hh => subst hh; rfl
  | saveDump hh => subst hh; rfl

lemma Sound.other (hl : l.Sound) (hstep : l.step env (.other a) = some l') :
    l'.Sound ∧ Simulates env l (.other a) l' := by
  simp only [Locked.step] at hstep
  split_ifs at hstep with hn
  obtain ⟨sys, hsys, rfl⟩ := Option.map_eq_some_iff.mp hstep
  have hn' : l.sys.NeedsLock a = false := by simpa using hn
  have hr := System.rule_of_step hsys
  constructor
  · intro h hheld
    have hs := hl h hheld
    obtain ⟨hhandler, hworker⟩ := hr.holder_of hn' hs.needsLock
    show h.point.Sound (sys.conns h.conn).handler (sys.conns h.conn).workerId sys.store h.before
    rw [hhandler, hworker, System.store_of_step hsys hn']
    exact hs
  · cases hheld : l.held with
    | none =>
      refine .step rfl ?_ ?_
      · simp only [atomic, hheld]
        exact hsys
      · simp only [atomic, hheld, System.pulls_eq_nil hn', List.nil_append]
    | some h =>
      have hn'' : { l.sys with store := h.before }.NeedsLock a = false := by
        cases a <;> exact hn'
      refine .step rfl ?_ ?_
      · simp only [atomic, hheld]
        rw [System.step_withStore h.before hn', hsys, Option.map_some]
      · simp only [atomic, hheld, System.pulls_eq_nil hn'', List.nil_append]

lemma sound_acquire (hstep : l.step env (.acquire c) = some l') :
    l'.Sound ∧ Simulates env l (.acquire c) l' := by
  simp only [Locked.step] at hstep
  split at hstep
  · next hheld =>
    obtain ⟨x, hx, rfl⟩ := Option.map_eq_some_iff.mp hstep
    constructor
    · intro h hh
      cases hh
      exact Critical.sound_acquire hx
    · refine .stutter rfl ?_ rfl
      simp only [atomic, hheld]
  · cases hstep

lemma Sound.turn (hl : l.Sound) (hstep : l.step env .turn = some l') :
    l'.Sound ∧ Simulates env l .turn l' := by
  simp only [Locked.step] at hstep
  obtain ⟨h, hheld, hp⟩ := Option.bind_eq_some_iff.mp hstep
  obtain ⟨⟨sys, x⟩, hx, rfl⟩ := Option.map_eq_some_iff.mp hp
  obtain ⟨hs, he⟩ := (hl h hheld).turn hx
  constructor
  · intro h' hh
    cases hh
    show x.Sound (sys.conns h.conn).handler (sys.conns h.conn).workerId sys.store h.before
    rw [he]
    exact hs
  · refine .stutter rfl ?_ rfl
    simp only [atomic, hheld]
    rw [he]

lemma Sound.release (hl : l.Sound) (hstep : l.step env .release = some l') :
    l'.Sound ∧ Simulates env l .release l' := by
  simp only [Locked.step] at hstep
  obtain ⟨h, hheld, hp⟩ := Option.bind_eq_some_iff.mp hstep
  obtain ⟨sys, hsys, rfl⟩ := Option.map_eq_some_iff.mp hp
  have hs := hl h hheld
  constructor
  · intro h' hh
    cases hh
  · have hp : l.performed .release = some (.run h.conn 0) := by
      rw [performed, hheld, Option.map_some]
    refine .step hp ?_ ?_
    · simp only [atomic, hheld]
      exact hs.step_of_release hsys
    · simp only [atomic, hheld]
      exact recordPull_eq hs hsys

lemma Sound.abort (hl : l.Sound) (hstep : l.step env .abort = some l') :
    l'.Sound ∧ Simulates env l .abort l' := by
  simp only [Locked.step] at hstep
  obtain ⟨h, hheld, hp⟩ := Option.bind_eq_some_iff.mp hstep
  split at hp
  · next k hk =>
    cases hp
    have hs := hl h hheld
    rw [hk] at hs
    generalize hh' : (l.sys.conns h.conn).handler = handler at hs
    cases hs with
    | saveDump hh hst =>
      subst hh
      constructor
      · intro h' hh
        cases hh
      · have hp : l.performed .abort = some (.fail h.conn) := by
          rw [performed, hheld, Option.map_some]
        refine .step hp ?_ rfl
        simp only [atomic, hheld, ← hst, System.step, System.osError, hh']
  · cases hp

/-- A section that has not ended does not show, and one that ends is a single step. -/
lemma Sound.step (hl : l.Sound) (hstep : l.step env b = some l') :
    l'.Sound ∧ Simulates env l b l' := by
  cases b with
  | other a => exact hl.other hstep
  | acquire c => exact sound_acquire hstep
  | turn => exact hl.turn hstep
  | release => exact hl.release hstep
  | abort => exact hl.abort hstep

/-- Every run of the server with the lock is one of the atomic server, of what its steps perform.
-/
theorem atomic_of_reach {ok : Action α → Prop} {st : WeightStore α} {timeout : ℚ}
    (h : Reach (Locked.step env) (fun l b _ => ∀ a, l.performed b = some a → ok a)
      (.init st timeout) l) :
    l.Sound ∧ Reach (System.step env) (fun _ a _ => ok a) (.init st timeout) l.atomic := by
  refine h.invariant (P := fun l => l.Sound ∧
    Reach (System.step env) (fun _ a _ => ok a) (.init st timeout) l.atomic)
    ⟨fun _ hh => (by cases hh), .refl⟩ ?_
  rintro l b l' ⟨hl, hreach⟩ hstep hok
  obtain ⟨hl', hsim⟩ := hl.step hstep
  refine ⟨hl', ?_⟩
  cases hsim with
  | stutter hp he => rwa [he]
  | step hp ha => exact hreach.tail ha (hok _ hp)

end Locked

end DistributedRL
