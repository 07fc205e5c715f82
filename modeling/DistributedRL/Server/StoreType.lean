import DistributedRL.Network.StateDict
import DistributedRL.Server.AllOrNothing
import DistributedRL.Server.Loading

/-!
# The type of the store

The names and shapes in the store are meant to be those of the networks that the server was built
with. Nothing checks them where a checkpoint is loaded, and the arithmetic of `apply_gradients`
broadcasts: a parameter takes the shape that it and the first delta of the round are broadcast to.
-/

namespace DistributedRL

variable {α : Type*}

/-! ### The type of a store -/

namespace WeightStore

/-- Weights and momentum buffers have the names and shapes of `initial`. -/
def Typed (initial : Weights α) (st : WeightStore α) : Prop :=
  SameShapes st.weights initial ∧ SameShapes st.momentumBuffers initial

end WeightStore

namespace LoadedStore

/-- The store is one of these networks, and serves them: their workers can load a pull, and rounds
of deltas with an array of the right shape for each parameter apply. -/
structure Serves [Scalar α] (actor critic : StateDict α) (st : LoadedStore α) : Prop where
  typed : st.arrays.Typed (serializeWeights actor critic)
  pulls : ∀ actor' critic', SameShapes actor' actor → SameShapes critic' critic →
    ∃ models, deserializeWeights st.weights actor' critic' = some models
  rounds : ∀ grads ≠ [], (∀ g ∈ grads, WellShaped (serializeWeights actor critic) g) →
    (st.applyGradients grads).2 = .ok ()

/-- The store, and the stores after each of the calls of `apply_gradients`; `none` if a call
raises. -/
def calls [Scalar α] : LoadedStore α → List (List (Payload α)) → Option (List (LoadedStore α))
  | st, [] => some [st]
  | st, grads :: gs =>
    match st.applyGradients grads with
    | (st', .ok _) => (calls st' gs).map (st :: ·)
    | (_, .error _) => none

end LoadedStore

/-- The arrays of the first delta fit into the parameters. -/
def Conforms (initial : Weights α) (grads : List (Payload α)) : Prop :=
  ∀ name a g b, initial.get? name = some a → grads.head? = some g → g.getItem name = .ok b →
    broadcastShape a.shape b.shape = some a.shape

/-! ### One call -/

variable [Scalar α] {initial : Weights α} {grads : List (Payload α)} {name : String}
  {names : List String}

/-- The average has the shape of the array in the first delta. -/
lemma averageGrad_head {avg : NDArray α} (h : averageGrad grads name = .ok avg) :
    ∃ g b, grads.head? = some g ∧ g.getItem name = .ok b ∧ avg.shape = b.shape := by
  cases grads with
  | nil => cases h
  | cons g gs =>
    simp only [averageGrad] at h
    split at h
    · cases h
    · next first hfirst =>
      split at h
      · cases h
      · next sum hsum =>
        simp only [Except.ok.injEq] at h
        subst h
        exact ⟨g, first, rfl, Payload.copyItem_eq_ok_iff.mp hfirst, (addGrads_shape hsum).1⟩

namespace WeightStore

variable {st st' : WeightStore α}

omit [Scalar α] in
lemma Typed.aligned (h : st.Typed initial) : st.Aligned :=
  fun name => (h.2 name).trans (h.1 name).symm

/-- A parameter takes the shape that it and its average are broadcast to. -/
lemma shape_moved (h : st.Typed initial) {a v w : NDArray α} (ha : initial.get? name = some a)
    (hv : st.velocity grads name = some v) (hw : st.moved name v = some w) :
    ∃ g b, grads.head? = some g ∧ g.getItem name = .ok b ∧
      broadcastShape a.shape b.shape = some v.shape ∧ v.shape = w.shape := by
  obtain ⟨u, hu, hus⟩ := h.1.get? ha
  obtain ⟨c, hc, hcs⟩ := h.2.get? ha
  simp only [velocity, hc, Option.bind_some, Option.bind_eq_some_iff] at hv
  simp only [moved, hu, Option.bind_some] at hw
  obtain ⟨avg, havg, hv⟩ := hv
  have havg' : averageGrad grads name = .ok avg := by
    cases hx : averageGrad grads name with
    | error e => rw [hx] at havg; cases havg
    | ok x => rw [hx] at havg; cases havg; rfl
  obtain ⟨g, b, hg, hb, hs⟩ := averageGrad_head havg'
  have hvs := NDArray.shape_binop hv
  have hws := NDArray.shape_binop hw
  rw [NDArray.shape_map, hcs, hs] at hvs
  rw [NDArray.shape_map, hus, broadcastShape_absorb hvs] at hws
  exact ⟨g, b, hg, hb, hvs, Option.some.inj hws⟩

/-- A call that returns keeps the type of the store just if its first delta conforms to it. -/
lemma Typed.applyGradients_iff (h : st.Typed initial)
    (hcall : st.applyGradients grads = (st', .ok ())) :
    st'.Typed initial ↔ Conforms initial grads := by
  obtain ⟨st₁, hparams, rfl⟩ := applyGradients_ok_iff.mp hcall
  have hsame := sameExcept_loop st grads
  rw [hparams] at hsame
  have hparam : ∀ name a, initial.get? name = some a → ∃ v w g b,
      st₁.momentumBuffers.get? name = some v ∧ st₁.weights.get? name = some w ∧
      grads.head? = some g ∧ g.getItem name = .ok b ∧
      broadcastShape a.shape b.shape = some v.shape ∧ v.shape = w.shape := by
    intro name a ha
    obtain ⟨u, hu, -⟩ := h.1.get? ha
    obtain ⟨v, w, hv, hw, hv', hw'⟩ := applyParams_get? (fun n hn => hn) st.weights.nodup_keys
      hparams (Dict.mem_keys_iff.mpr ⟨u, hu⟩)
    obtain ⟨g, b, hg, hb, hs⟩ := shape_moved h ha hv hw
    exact ⟨v, w, g, b, hv', hw', hg, hb, hs⟩
  constructor
  · intro htyped name a g b ha hg hb
    obtain ⟨v, w, g', b', -, hw, hg', hb', hs, hvw⟩ := hparam name a ha
    rw [hg] at hg'
    cases hg'
    rw [hb] at hb'
    cases hb'
    have hwa := htyped.1 name
    rw [hw, ha, Option.map_some, Option.map_some, Option.some.injEq] at hwa
    rw [hs, hvw, hwa]
  · intro hconf
    have hshapes : ∀ name a, initial.get? name = some a → ∃ v w,
        st₁.momentumBuffers.get? name = some v ∧ st₁.weights.get? name = some w ∧
        v.shape = a.shape ∧ w.shape = a.shape := by
      intro name a ha
      obtain ⟨v, w, g, b, hv, hw, hg, hb, hs, hvw⟩ := hparam name a ha
      have hva := hconf name a g b ha hg hb
      rw [hs, Option.some.injEq] at hva
      exact ⟨v, w, hv, hw, hva, hvw ▸ hva⟩
    -- the other names are in neither dict, before the call and after it
    have hnone : ∀ name, initial.get? name = none →
        st₁.momentumBuffers.get? name = none ∧ st₁.weights.get? name = none := by
      intro name hn
      have hw : st.weights.get? name = none := by simpa [hn] using h.1 name
      have hb : st.momentumBuffers.get? name = none := by simpa [hn] using h.2 name
      have hkey := Dict.get?_eq_none_iff.mp hw
      exact ⟨(hsame.buffers name hkey).trans hb, (hsame.weights name hkey).trans hw⟩
    constructor
    · intro name
      cases ha : initial.get? name with
      | none => simp [(hnone name ha).2]
      | some a =>
        obtain ⟨v, w, -, hw, -, hs⟩ := hshapes name a ha
        simp [hw, hs]
    · intro name
      cases ha : initial.get? name with
      | none => simp [(hnone name ha).1]
      | some a =>
        obtain ⟨v, w, hv, -, hs, -⟩ := hshapes name a ha
        simp [hv, hs]

/-! ### The step -/

/-- A turn does not look at the step. -/
lemma applyParam_withStep (k : StepValue) (st : WeightStore α) :
    applyParam grads name (st.withStep k).arrays =
      (((applyParam grads name st).1.withStep k).arrays, (applyParam grads name st).2) := by
  simp only [applyParam, withStep, LoadedStore.arrays]
  cases averageGrad grads name with
  | error e => rfl
  | ok avg =>
    cases st.momentumBuffers.get? name with
    | none => rfl
    | some b =>
      cases hv : (b.map (st.momentum * ·)).binop (· + ·) avg with
      | none => simp only [hv]
      | some v =>
        cases hw : st.weights.get? name with
        | none => simp only [hv]
        | some w =>
          cases hw' : w.binop (· - ·) (v.map (st.baseLr * ·)) <;> simp only [hv, hw']

lemma applyParams_withStep (k : StepValue) (st : WeightStore α) :
    applyParams grads names (st.withStep k).arrays =
      (((applyParams grads names st).1.withStep k).arrays, (applyParams grads names st).2) := by
  induction names generalizing st with
  | nil => rfl
  | cons first names ih =>
    simp only [applyParams, applyParam_withStep k st]
    obtain ⟨st', res⟩ := applyParam grads first st
    cases res with
    | ok _ => exact ih st'
    | error e => rfl

/-- Loaded as it is, a store does what it did before. -/
lemma applyGradients_loaded (st : WeightStore α) (grads : List (Payload α)) :
    st.loaded.applyGradients grads =
      ((st.applyGradients grads).1.loaded, (st.applyGradients grads).2) := by
  have hloop : applyParams grads st.weights.keys (st.withStep (.number st.globalStep)).arrays = _ :=
    applyParams_withStep (.number st.globalStep) st
  have hstep := (sameExcept_loop st grads).globalStep
  have hkeys : st.loaded.weights.keys = st.weights.keys := rfl
  simp only [LoadedStore.applyGradients, applyGradients, hkeys]
  rw [show st.loaded.arrays = (st.withStep (.number st.globalStep)).arrays from rfl, hloop]
  generalize applyParams grads st.weights.keys st = called at hstep ⊢
  obtain ⟨st', res⟩ := called
  cases res with
  | ok _ =>
    simp only [loaded, withStep, StepValue.succ, LoadedStore.arrays] at hstep ⊢
    rw [hstep, Nat.cast_succ]
  | error e =>
    simp only [loaded, withStep, LoadedStore.arrays] at hstep ⊢
    rw [hstep]

end WeightStore

/-! ### Any number of calls -/

namespace LoadedStore

open WeightStore

variable {st st' : LoadedStore α} {actor critic : StateDict α}

lemma applyGradients_ok_iff : st.applyGradients grads = (st', .ok ()) ↔
    ∃ a k, st.arrays.applyGradients grads = (a, .ok ()) ∧ st.globalStep.succ = .ok k ∧
      st' = a.withStep k := by
  simp only [LoadedStore.applyGradients, WeightStore.applyGradients_ok_iff]
  constructor
  · intro h
    split at h
    · cases h
    · next a _ ha =>
      split at h
      · cases h
      · next k hk => exact ⟨_, k, ⟨a, ha, rfl⟩, hk, (Prod.mk.inj h).1.symm⟩
  · rintro ⟨_, k, ⟨a, ha, rfl⟩, hk, rfl⟩
    split
    · next he => cases ha.symm.trans he
    · next b _ hb =>
      cases ha.symm.trans hb
      rw [hk]
      rfl

/-- A store serves its networks just if it has their type and its step is a number. -/
lemma serves_iff : st.Serves actor critic ↔
    st.arrays.Typed (serializeWeights actor critic) ∧ ∃ q, st.globalStep = .number q := by
  constructor
  · intro h
    refine ⟨h.typed, ?_⟩
    -- a round of one delta, which has the arrays of the networks themselves
    have hcall := h.rounds [.dict (serializeWeights actor critic)] (List.cons_ne_nil _ _) (by
      intro g hg name a ha
      rw [List.mem_singleton.mp hg, Payload.getItem, ha]
      exact ⟨a, rfl, rfl⟩)
    obtain ⟨a, k, -, hk, -⟩ := applyGradients_ok_iff.mp (Prod.ext rfl hcall)
    cases hq : st.globalStep with
    | number q => exact ⟨q, rfl⟩
    | object =>
      rw [hq] at hk
      cases hk
  · rintro ⟨htyped, q, hq⟩
    refine ⟨htyped, fun _ _ ha hc => deserializeWeights_of_sameShapes htyped.1 ha hc, ?_⟩
    intro grads hne hg
    obtain ⟨a, ha, -⟩ := applyGradients_wellShaped htyped.aligned hne fun g hmem =>
      (hg g hmem).of_sameShapes htyped.1.symm
    rw [applyGradients_ok_iff.mpr ⟨a, _, ha, by rw [hq]; rfl, rfl⟩]

/-- A call that returns leaves a store that serves the networks just if its first delta conforms to
them. -/
lemma Serves.applyGradients_iff (h : st.Serves actor critic)
    (hcall : st.applyGradients grads = (st', .ok ())) :
    st'.Serves actor critic ↔ Conforms (serializeWeights actor critic) grads := by
  obtain ⟨htyped, q, hq⟩ := serves_iff.mp h
  obtain ⟨a, k, ha, hk, rfl⟩ := applyGradients_ok_iff.mp hcall
  rw [hq] at hk
  cases hk
  rw [← htyped.applyGradients_iff ha, serves_iff]
  exact and_iff_left ⟨q + 1, rfl⟩

lemma serves_calls_iff {gs : List (List (Payload α))} {sts : List (LoadedStore α)}
    (h : st.calls gs = some sts) : (∀ s ∈ sts, s.Serves actor critic) ↔
      st.Serves actor critic ∧ ∀ grads ∈ gs, Conforms (serializeWeights actor critic) grads := by
  induction gs generalizing st sts with
  | nil =>
    cases h
    simp
  | cons grads gs ih =>
    simp only [calls] at h
    split at h
    · next st' _ hcall =>
      obtain ⟨sts', hsts', rfl⟩ := Option.map_eq_some_iff.mp h
      rw [List.forall_mem_cons, List.forall_mem_cons, ih hsts', and_congr_right_iff]
      intro hst
      rw [hst.applyGradients_iff hcall]
    · cases h

end LoadedStore

/-- After a load that succeeds, the store has the names and shapes of the networks, and serves
them, at every point of every sequence of calls that return, exactly when the file has these names
and shapes and a number as its step, and the first delta of every call conforms to the networks. -/
theorem store_type_iff {loads : List UInt8 → Option (CheckpointObj α)} {bytes : List UInt8}
    {w m : Weights α} {k : StepValue} {actor critic : StateDict α} {lr momentum : α}
    {gs : List (List (Payload α))} {sts : List (LoadedStore α)}
    (hfile : loads bytes = some (.dict (some w) (some m) (some k)))
    (hcalls : ((WeightStore.init (serializeWeights actor critic) lr momentum).loadCheckpoint loads
      (some bytes)).1.calls gs = some sts) :
    (∀ st ∈ sts, st.Serves actor critic) ↔
      SameShapes w (serializeWeights actor critic) ∧
      SameShapes m (serializeWeights actor critic) ∧ (∃ q, k = .number q) ∧
      ∀ grads ∈ gs, Conforms (serializeWeights actor critic) grads := by
  rw [LoadedStore.serves_calls_iff hcalls, LoadedStore.serves_iff, and_assoc]
  simp only [WeightStore.Typed, WeightStore.loadCheckpoint, hfile, WeightStore.restore,
    LoadedStore.arrays, and_assoc]

/-! ### Concrete networks -/

/-- A network with one parameter. -/
private def network (name : String) (shape : List ℕ) : StateDict ℚ :=
  Dict.empty.set name ⟨shape, List.replicate shape.prod 0, by simp⟩

/-- A server for networks with one parameter each, of shape `[1]`. -/
private def small : WeightStore ℚ :=
  .init (serializeWeights (network "w" [1]) (network "v" [1])) 1 0

/-- A server for networks of another shape. -/
private def large : WeightStore ℚ :=
  .init (serializeWeights (network "w" [2]) (network "v" [1])) 1 0

/-- A delta for `small` in which one array has two elements. -/
private def wideDelta : Payload ℚ :=
  .dict (serializeWeights (network "w" [2]) (network "v" [1]))

open WeightStore in
/-- The checkpoint of a server for networks of another shape loads, and the workers cannot load
what they pull from then on. Without a checkpoint, a delta that is too wide does the same. -/
theorem store_loses_type :
    (∃ st, small.loadCheckpoint bytewise.loads (some (bytewise.dumps large.checkpoint)) =
      (st, true) ∧ ¬ st.Serves (network "w" [1]) (network "v" [1])) ∧
    ∃ st, small.loaded.applyGradients [wideDelta] = (st, .ok ()) ∧
      ¬ st.Serves (network "w" [1]) (network "v" [1]) := by
  have hnot : ∀ st : LoadedStore ℚ,
      deserializeWeights st.weights (network "w" [1]) (network "v" [1]) = none →
      ¬ st.Serves (network "w" [1]) (network "v" [1]) := by
    intro st hnone hserves
    obtain ⟨models, hmodels⟩ := hserves.pulls _ _ (.refl _) (.refl _)
    rw [hnone] at hmodels
    cases hmodels
  constructor
  · exact ⟨_, loadCheckpoint_dumps bytewise_lawful small large, hnot _ (by decide +kernel)⟩
  · refine ⟨(small.loaded.applyGradients [wideDelta]).1, Prod.ext rfl ?_, hnot _ ?_⟩
    · decide +kernel
    · decide +kernel

open WeightStore in
/-- The checkpoint of a server for the same networks, and a round of one delta. -/
theorem store_serves_small :
    ∃ sts, (small.loadCheckpoint bytewise.loads (some (bytewise.dumps small.checkpoint))).1.calls
      [[.dict small.weights]] = some sts ∧
      ∀ st ∈ sts, st.Serves (network "w" [1]) (network "v" [1]) := by
  have hcalls : ((small.loadCheckpoint bytewise.loads
      (some (bytewise.dumps small.checkpoint))).1.calls [[.dict small.weights]]).isSome := by
    rw [loadCheckpoint_dumps bytewise_lawful]
    decide +kernel
  obtain ⟨sts, hsts⟩ := Option.isSome_iff_exists.mp hcalls
  refine ⟨sts, hsts, (store_type_iff (bytewise_lawful.loads_dumps _) hsts).mpr
    ⟨.refl _, ?_, ⟨_, rfl⟩, ?_⟩⟩
  · intro name
    simp only [small, init, checkpoint, Dict.get?_mapValues, Option.map_map]
    rfl
  · intro grads hgrads name a g b ha hg hb
    rw [List.mem_singleton.mp hgrads, List.head?_cons, Option.some.injEq] at hg
    subst hg
    have hab : small.weights.get? name = some b := by
      simp only [Payload.getItem] at hb
      cases hw : small.weights.get? name with
      | none => rw [hw] at hb; cases hb
      | some c => rw [hw] at hb; cases hb; rfl
    have heq : b = a := Option.some.inj (hab.symm.trans ha)
    rw [heq, broadcastShape_self]

end DistributedRL
