import DistributedRL.Server.WeightStore

/-!
# What `apply_gradients` does

One parameter is updated after the other, each without regard to the others, and an exception
leaves the parameters before it updated. A delta that lacks a parameter, or has an array there
that cannot be broadcast against it, makes the call raise whatever else the round holds.
-/

namespace DistributedRL

variable {α : Type*} [Scalar α]

namespace WeightStore

/-! ### The invariant of the store -/

/-- Weights and momentum buffers have the same names, and the same shape at each of them. -/
def Aligned (st : WeightStore α) : Prop :=
  ∀ name, (st.momentumBuffers.get? name).map NDArray.shape =
    (st.weights.get? name).map NDArray.shape

/-- The two assignments of one turn of the loop. -/
def assign (st : WeightStore α) (name : String) (v w : NDArray α) : WeightStore α :=
  { st with
    momentumBuffers := st.momentumBuffers.set name v, weights := st.weights.set name w }

/-- The two operations on a parameter `w` with momentum buffer `b`, for a given average. -/
def update (st : WeightStore α) (b w avgGrad : NDArray α) : Option (NDArray α × NDArray α) :=
  ((b.map (st.momentum * ·)).binop (· + ·) avgGrad).bind fun v =>
    (w.binop (· - ·) (v.map (st.baseLr * ·))).map fun w' => (v, w')

variable {st st' : WeightStore α} {grads : List (Payload α)} {name : String} {names : List String}

lemma aligned_init (weights : Weights α) (lr momentum : α) :
    (init weights lr momentum).Aligned := by
  intro name
  simp only [init, Dict.get?_mapValues, Option.map_map]
  rfl

omit [Scalar α] in
lemma Aligned.exists_buffer (h : st.Aligned) {w : NDArray α} (hw : st.weights.get? name = some w) :
    ∃ b, st.momentumBuffers.get? name = some b ∧ b.shape = w.shape := by
  have := h name
  rw [hw, Option.map_some, Option.map_eq_some_iff] at this
  exact this

omit [Scalar α] in
lemma Aligned.assign (h : st.Aligned) {v w : NDArray α} (hs : v.shape = w.shape) :
    (st.assign name v w).Aligned := by
  intro other
  simp only [WeightStore.assign, Dict.get?_set]
  split_ifs
  · simp [hs]
  · exact h other

/-- The two operations fail together: once the new velocity exists, so does the new weight. -/
lemma update_eq_none_iff {b w avg : NDArray α} (hs : b.shape = w.shape) :
    st.update b w avg = none ↔ broadcastShape w.shape avg.shape = none := by
  rw [← hs]
  constructor
  · intro h
    rw [update, Option.bind_eq_none_iff] at h
    by_contra hne
    obtain ⟨t, ht⟩ := Option.ne_none_iff_exists'.mp hne
    obtain ⟨v, hv⟩ := Option.ne_none_iff_exists'.mp fun e =>
      hne (NDArray.binop_eq_none_iff.mp e : broadcastShape (b.map (st.momentum * ·)).shape _ = _)
    have hvs : broadcastShape b.shape avg.shape = some v.shape := by
      simpa using NDArray.shape_binop hv
    have hnone := Option.map_eq_none_iff.mp (h v hv)
    rw [NDArray.binop_eq_none_iff, NDArray.shape_map, ← hs, broadcastShape_absorb hvs] at hnone
    cases hnone
  · intro h
    have hv : (b.map (st.momentum * ·)).binop (· + ·) avg = none :=
      NDArray.binop_eq_none_iff.mpr h
    rw [update, hv, Option.bind_none]

lemma shape_update {b w avg v w' : NDArray α} (hs : b.shape = w.shape)
    (h : st.update b w avg = some (v, w')) : v.shape = w'.shape := by
  simp only [update, Option.bind_eq_some_iff, Option.map_eq_some_iff, Prod.mk.injEq] at h
  obtain ⟨v, hv, w', hw, rfl, rfl⟩ := h
  have hvs : broadcastShape b.shape avg.shape = some v.shape := by
    simpa using NDArray.shape_binop hv
  have hws := NDArray.shape_binop hw
  rw [NDArray.shape_map, ← hs, broadcastShape_absorb hvs] at hws
  exact Option.some.inj hws

/-! ### One parameter -/

/-- On an aligned store one turn of the loop makes both assignments or none. -/
lemma applyParam_eq (grads : List (Payload α)) (h : st.Aligned) {w : NDArray α}
    (hw : st.weights.get? name = some w) :
    ∃ b, st.momentumBuffers.get? name = some b ∧ b.shape = w.shape ∧
      ((∃ e, averageGrad grads name = .error e ∧ applyParam grads name st = (st, .error e)) ∨
        ∃ avg, averageGrad grads name = .ok avg ∧
          ((st.update b w avg = none ∧ applyParam grads name st = (st, .error .valueError)) ∨
            ∃ v w', st.update b w avg = some (v, w') ∧
              applyParam grads name st = (st.assign name v w', .ok ()))) := by
  obtain ⟨b, hb, hs⟩ := h.exists_buffer hw
  refine ⟨b, hb, hs, ?_⟩
  cases ha : averageGrad grads name with
  | error e => exact Or.inl ⟨e, rfl, by simp only [applyParam, ha]⟩
  | ok avg =>
    refine Or.inr ⟨avg, rfl, ?_⟩
    simp only [applyParam, ha, hb]
    cases hv : (b.map (st.momentum * ·)).binop (· + ·) avg with
    | none => exact Or.inl ⟨by simp [update, hv], rfl⟩
    | some v =>
      right
      cases hw' : w.binop (· - ·) (v.map (st.baseLr * ·)) with
      | none =>
        have hnone : st.update b w avg = none := by simp [update, hv, hw']
        rw [update_eq_none_iff hs, ← hs] at hnone
        have := NDArray.shape_binop hv
        rw [NDArray.shape_map, hnone] at this
        cases this
      | some w' => exact ⟨v, w', by simp [update, hv, hw'], by simp [hw, hw', assign]⟩

lemma applyParam_aligned (grads : List (Payload α)) (h : st.Aligned)
    (hmem : name ∈ st.weights.keys) :
    (applyParam grads name st).1.Aligned := by
  obtain ⟨w, hw⟩ := Dict.mem_keys_iff.mp hmem
  obtain ⟨b, -, hs, ⟨e, -, he⟩ | ⟨avg, -, ⟨-, he⟩ | ⟨v, w', hu, he⟩⟩⟩ := applyParam_eq grads h hw
  · rw [he]; exact h
  · rw [he]; exact h
  · rw [he]; exact h.assign (shape_update hs hu)

/-- One turn of the loop leaves the other parameters, and everything else, alone. -/
structure SameExcept (names : List String) (st st' : WeightStore α) : Prop where
  keys : st'.weights.keys = st.weights.keys
  weights : ∀ other ∉ names, st'.weights.get? other = st.weights.get? other
  buffers : ∀ other ∉ names, st'.momentumBuffers.get? other = st.momentumBuffers.get? other
  baseLr : st'.baseLr = st.baseLr
  momentum : st'.momentum = st.momentum
  globalStep : st'.globalStep = st.globalStep

omit [Scalar α] in
lemma SameExcept.refl (names : List String) (st : WeightStore α) : SameExcept names st st :=
  ⟨rfl, fun _ _ => rfl, fun _ _ => rfl, rfl, rfl, rfl⟩

omit [Scalar α] in
lemma SameExcept.cons {st'' : WeightStore α} (h : SameExcept [name] st st')
    (h' : SameExcept names st' st'') : SameExcept (name :: names) st st'' := by
  refine ⟨h'.keys.trans h.keys, ?_, ?_,
    h'.baseLr.trans h.baseLr, h'.momentum.trans h.momentum, h'.globalStep.trans h.globalStep⟩
  · intro other ho
    obtain ⟨ho, ho'⟩ := not_or.mp (List.mem_cons.not.mp ho)
    exact (h'.weights other ho').trans (h.weights other (by simpa using ho))
  · intro other ho
    obtain ⟨ho, ho'⟩ := not_or.mp (List.mem_cons.not.mp ho)
    exact (h'.buffers other ho').trans (h.buffers other (by simpa using ho))

omit [Scalar α] in
lemma sameExcept_assign {v w : NDArray α} (hmem : name ∈ st.weights.keys) :
    SameExcept [name] st (st.assign name v w) := by
  refine ⟨Dict.keys_set_of_mem w hmem, ?_, ?_, rfl, rfl, rfl⟩
  · intro other ho
    simp only [List.mem_singleton] at ho
    simp [assign, ho]
  · intro other ho
    simp only [List.mem_singleton] at ho
    simp [assign, ho]

omit [Scalar α] in
lemma sameExcept_set_buffer (v : NDArray α) :
    SameExcept [name] st { st with momentumBuffers := st.momentumBuffers.set name v } := by
  refine ⟨rfl, fun _ _ => rfl, ?_, rfl, rfl, rfl⟩
  intro other ho
  have hne : other ≠ name := by simpa using ho
  simp [hne]

/-- Whatever the store, a turn touches its own parameter alone. -/
lemma sameExcept_applyParam (grads : List (Payload α)) (hmem : name ∈ st.weights.keys) :
    SameExcept [name] st (applyParam grads name st).1 := by
  simp only [applyParam]
  split
  · exact .refl _ _
  split
  · exact .refl _ _
  split
  · exact .refl _ _
  -- the buffer has been assigned
  split
  · exact sameExcept_set_buffer _
  split
  · exact sameExcept_set_buffer _
  · exact sameExcept_assign hmem

/-! ### The loop -/

lemma sameExcept_applyParams (grads : List (Payload α))
    (hsub : ∀ n ∈ names, n ∈ st.weights.keys) :
    SameExcept names st (applyParams grads names st).1 := by
  induction names generalizing st with
  | nil => exact .refl _ _
  | cons first names ih =>
    have hsame := sameExcept_applyParam grads (hsub first List.mem_cons_self)
    simp only [applyParams]
    split
    · next st' _ he =>
      rw [he] at hsame
      refine hsame.cons (ih ?_)
      intro n hn
      rw [hsame.keys]
      exact hsub n (List.mem_cons_of_mem _ hn)
    · next st' e he =>
      rw [he] at hsame
      exact hsame.cons (.refl _ _)

/-- The loop changes no more than the weights and the momentum buffers of the parameters. -/
lemma sameExcept_loop (st : WeightStore α) (grads : List (Payload α)) :
    SameExcept st.weights.keys st (applyParams grads st.weights.keys st).1 :=
  sameExcept_applyParams grads fun _ hn => hn

/-- `global_step` counts the calls that return. -/
lemma globalStep_of_ok (h : st.applyGradients grads = (st', .ok ())) :
    st'.globalStep = st.globalStep + 1 := by
  have hsame := sameExcept_loop st grads
  simp only [applyGradients] at h
  split at h
  · next st₁ _ he =>
    rw [he] at hsame
    cases h
    exact congrArg (· + 1) hsame.globalStep
  · cases h

lemma globalStep_of_error {e : PyError} (h : st.applyGradients grads = (st', .error e)) :
    st'.globalStep = st.globalStep := by
  have hsame := sameExcept_loop st grads
  simp only [applyGradients] at h
  split at h
  · cases h
  · next st₁ _ he =>
    rw [he] at hsame
    cases h
    exact hsame.globalStep

lemma applyParams_aligned (grads : List (Payload α)) (h : st.Aligned)
    (hsub : ∀ n ∈ names, n ∈ st.weights.keys) :
    (applyParams grads names st).1.Aligned := by
  induction names generalizing st with
  | nil => exact h
  | cons name names ih =>
    have hmem := hsub name List.mem_cons_self
    have hal := applyParam_aligned grads h hmem
    have hsame := sameExcept_applyParam grads hmem
    simp only [applyParams]
    split
    · next st' _ he =>
      rw [he] at hal hsame
      refine ih hal ?_
      intro n hn
      rw [hsame.keys]
      exact hsub n (List.mem_cons_of_mem _ hn)
    · next st' e he =>
      rw [he] at hal
      exact hal

/-- `apply_gradients` keeps the store aligned and its parameter names, also where it raises. -/
lemma applyGradients_spec (grads : List (Payload α)) (h : st.Aligned) :
    (st.applyGradients grads).1.Aligned ∧
      (st.applyGradients grads).1.weights.keys = st.weights.keys ∧
      (st.applyGradients grads).1.baseLr = st.baseLr ∧
      (st.applyGradients grads).1.momentum = st.momentum := by
  have hal := applyParams_aligned grads h fun n hn => hn
  have hsame := sameExcept_loop st grads
  simp only [applyGradients]
  split
  · next st' _ he =>
    rw [he] at hal hsame
    exact ⟨hal, hsame.keys, hsame.baseLr, hsame.momentum⟩
  · next st' e he =>
    rw [he] at hal hsame
    exact ⟨hal, hsame.keys, hsame.baseLr, hsame.momentum⟩

/-- If the loop gets through, so does each of its turns, on the value the parameter started with. -/
lemma applyParams_ok (h : st.Aligned) (hsub : ∀ n ∈ names, n ∈ st.weights.keys)
    (hn : names.Nodup) (hok : (applyParams grads names st).2 = .ok ()) {w : NDArray α}
    (hname : name ∈ names) (hw : st.weights.get? name = some w) :
    ∃ avg, averageGrad grads name = .ok avg ∧ broadcastShape w.shape avg.shape ≠ none := by
  induction names generalizing st with
  | nil => cases hname
  | cons first names ih =>
    obtain ⟨hfirst, hn⟩ := List.nodup_cons.mp hn
    have hmem := hsub first List.mem_cons_self
    have hal := applyParam_aligned grads h hmem
    have hsame := sameExcept_applyParam grads hmem
    simp only [applyParams] at hok
    split at hok
    · next st' _ he =>
      rcases List.mem_cons.mp hname with rfl | hname
      · obtain ⟨b, -, hs, ⟨e, -, he'⟩ | ⟨avg, havg, ⟨-, he'⟩ | ⟨v, w', hu, -⟩⟩⟩ :=
          applyParam_eq grads h hw
        · rw [he] at he'; cases he'
        · rw [he] at he'; cases he'
        · refine ⟨avg, havg, ?_⟩
          intro hnone
          rw [(update_eq_none_iff hs).mpr hnone] at hu
          cases hu
      · rw [he] at hal hsame
        have hne : name ∉ [first] := by
          rintro hmem
          exact hfirst ((List.mem_singleton.mp hmem) ▸ hname)
        exact ih hal (fun n hn => by rw [hsame.keys]; exact hsub n (List.mem_cons_of_mem _ hn)) hn
          hok hname ((hsame.weights name hne).trans hw)
    · cases hok

end WeightStore

/-! ### Deltas that make the call raise -/

/-- The delta has an array for the parameter, of a shape that combines with the parameter's. -/
def WeightStore.accepts (st : WeightStore α) (g : Payload α) (name : String) : Bool :=
  match st.weights.get? name, g.getItem name with
  | some w, .ok a => (broadcastShape w.shape a.shape).isSome
  | _, _ => false

/-- The delta is no dict, lacks a parameter, or has an array for one that cannot be broadcast against
it. -/
def WeightStore.Rejects (st : WeightStore α) (g : Payload α) : Prop :=
  ∃ name ∈ st.weights.keys, st.accepts g name = false

lemma addGrads_shape {name : String} {gs : List (Payload α)} {avg avg' : NDArray α}
    (h : addGrads name avg gs = .ok avg') : avg'.shape = avg.shape ∧
      ∀ g ∈ gs, ∃ a, g.getItem name = .ok a ∧
        broadcastShape avg.shape a.shape = some avg.shape := by
  induction gs generalizing avg with
  | nil =>
    cases h
    exact ⟨rfl, fun _ h => by cases h⟩
  | cons g gs ih =>
    simp only [addGrads] at h
    split at h
    · cases h
    · next avg₁ h₁ =>
      simp only [addGrad] at h₁
      split at h₁
      · cases h₁
      · next a ha =>
        cases hi : avg.inplace (· + ·) a with
        | none => simp [hi] at h₁
        | some c =>
          simp only [hi, Option.elim, Except.ok.injEq] at h₁
          subst h₁
          obtain ⟨hs, hb⟩ := NDArray.shape_inplace hi
          obtain ⟨hs', hall⟩ := ih h
          refine ⟨hs'.trans hs, ?_⟩
          intro g' hg'
          rcases List.mem_cons.mp hg' with rfl | hg'
          · exact ⟨a, ha, hb⟩
          · simpa only [hs] using hall g' hg'

/-- The average has the shape of the first array, and the other arrays fit into that shape. -/
lemma averageGrad_shape {name : String} {gs : List (Payload α)} {avg : NDArray α}
    (h : averageGrad gs name = .ok avg) {g : Payload α} (hg : g ∈ gs) :
    ∃ a, g.getItem name = .ok a ∧ broadcastShape avg.shape a.shape = some avg.shape := by
  cases gs with
  | nil => cases h
  | cons g₀ gs =>
    simp only [averageGrad] at h
    split at h
    · cases h
    · next first hfirst =>
      split at h
      · cases h
      · next sum hsum =>
        simp only [Except.ok.injEq] at h
        subst h
        obtain ⟨hs, hall⟩ := addGrads_shape hsum
        rw [NDArray.shape_map, hs]
        rcases List.mem_cons.mp hg with rfl | hg
        · exact ⟨first, Payload.copyItem_eq_ok_iff.mp hfirst, broadcastShape_self _⟩
        · exact hall g hg

namespace WeightStore

variable {st : WeightStore α} {grads : List (Payload α)} {g : Payload α} {name : String}

omit [Scalar α] in
lemma accepts_of_getItem {w a : NDArray α} (hw : st.weights.get? name = some w)
    (ha : g.getItem name = .ok a) :
    st.accepts g name = (broadcastShape w.shape a.shape).isSome := by
  simp only [accepts, hw, ha]

/-- A round with such a delta raises, in whichever thread and whatever else it holds. -/
lemma applyGradients_of_rejects (h : st.Aligned) (hg : g ∈ grads) (hm : st.Rejects g) :
    ∃ st' e, st.applyGradients grads = (st', .error e) := by
  obtain ⟨name, hmem, hbad⟩ := hm
  obtain ⟨w, hw⟩ := Dict.mem_keys_iff.mp hmem
  simp only [applyGradients]
  split
  · next st' _ he =>
    exfalso
    obtain ⟨avg, havg, hne⟩ := applyParams_ok h (fun n hn => hn) st.weights.nodup_keys
      (by rw [he]) hmem hw
    obtain ⟨a, ha, hab⟩ := averageGrad_shape havg hg
    rw [accepts_of_getItem hw ha, Option.isSome_eq_false_iff, Option.isNone_iff_eq_none] at hbad
    exact hne (broadcastShape_none_of_absorbed hbad hab)
  · next st' e he => exact ⟨st', e, rfl⟩

/-- A parameter for which a round of the single delta `g` leaves buffer and weight as they are. -/
def Unmoved (st : WeightStore α) (g : Payload α) (name : String) : Prop :=
  ∀ b w a, st.momentumBuffers.get? name = some b → st.weights.get? name = some w →
    g.getItem name = .ok a → st.update b w (a.map (· / ((1 : ℕ) : α))) = some (b, w)

lemma averageGrad_single {a : NDArray α} (ha : g.getItem name = .ok a) :
    averageGrad [g] name = .ok (a.map (· / ((1 : ℕ) : α))) := by
  simp only [averageGrad, Payload.copyItem_eq_ok_iff.mpr ha, addGrads, List.length_singleton]

omit [Scalar α] in
lemma assign_eq_self {b w : NDArray α} (hb : st.momentumBuffers.get? name = some b)
    (hw : st.weights.get? name = some w) : st.assign name b w = st := by
  rw [assign, Dict.set_eq_self hb, Dict.set_eq_self hw]

/-- A parameter that the delta does not fit stops the loop before anything is assigned. -/
lemma applyParam_single_of_not (h : st.Aligned) (hmem : name ∈ st.weights.keys)
    (hbad : st.accepts g name = false) : ∃ e, applyParam [g] name st = (st, .error e) := by
  obtain ⟨w, hw⟩ := Dict.mem_keys_iff.mp hmem
  obtain ⟨b, -, hs, ⟨e, -, he⟩ | ⟨avg, havg, ⟨-, he⟩ | ⟨v, w', hu, -⟩⟩⟩ :=
    applyParam_eq [g] h hw
  · exact ⟨e, he⟩
  · exact ⟨_, he⟩
  · exfalso
    obtain ⟨a, ha, hab⟩ := averageGrad_shape havg (List.mem_singleton_self g)
    rw [accepts_of_getItem hw ha, Option.isSome_eq_false_iff, Option.isNone_iff_eq_none] at hbad
    rw [(update_eq_none_iff hs).mpr (broadcastShape_none_of_absorbed hbad hab)] at hu
    cases hu

lemma applyParam_single (h : st.Aligned) {a w : NDArray α}
    (ha : g.getItem name = .ok a) (hw : st.weights.get? name = some w)
    (hgood : st.accepts g name = true) :
    ∃ b v w', st.momentumBuffers.get? name = some b ∧
      st.update b w (a.map (· / ((1 : ℕ) : α))) = some (v, w') ∧
      applyParam [g] name st = (st.assign name v w', .ok ()) := by
  obtain ⟨b, hb, hs, ⟨e, havg, -⟩ | ⟨avg, havg, ⟨hu, -⟩ | ⟨v, w', hu, he⟩⟩⟩ :=
    applyParam_eq [g] h hw
  · rw [averageGrad_single ha] at havg
    cases havg
  · rw [averageGrad_single ha] at havg
    cases havg
    rw [accepts_of_getItem hw ha] at hgood
    rw [update_eq_none_iff hs, NDArray.shape_map] at hu
    rw [hu] at hgood
    cases hgood
  · rw [averageGrad_single ha] at havg
    cases havg
    exact ⟨b, v, w', hb, hu, he⟩

omit [Scalar α] in
lemma exists_of_accepts (hgood : st.accepts g name = true) :
    ∃ w a, st.weights.get? name = some w ∧ g.getItem name = .ok a := by
  simp only [accepts] at hgood
  split at hgood
  · next w a hw ha => exact ⟨w, a, hw, ha⟩
  · cases hgood

/-- What the loop leaves behind where it raises on a single delta: nothing has changed just if the
parameters before the first one it does not fit are unmoved. -/
lemma applyParams_single_eq_iff (h : st.Aligned) (hsub : ∀ n ∈ names, n ∈ st.weights.keys)
    (hn : names.Nodup) (hbad : ∃ n ∈ names, st.accepts g n = false) :
    (applyParams [g] names st).1 = st ↔
      ∀ n ∈ names.takeWhile (st.accepts g), st.Unmoved g n := by
  induction names with
  | nil => obtain ⟨n, hn, -⟩ := hbad; cases hn
  | cons first names ih =>
    obtain ⟨hfirst, hn⟩ := List.nodup_cons.mp hn
    have hmem := hsub first List.mem_cons_self
    cases hacc : st.accepts g first with
    | false =>
      obtain ⟨e, he⟩ := applyParam_single_of_not h hmem hacc
      simp [applyParams, he, hacc]
    | true =>
      obtain ⟨w, a, hw, ha⟩ := exists_of_accepts hacc
      obtain ⟨b, v, w', hb, hu, he⟩ := applyParam_single h ha hw hacc
      have hrest : ∃ n ∈ names, st.accepts g n = false := by
        obtain ⟨n, hmem, hbad⟩ := hbad
        rcases List.mem_cons.mp hmem with rfl | hmem
        · rw [hacc] at hbad; cases hbad
        · exact ⟨n, hmem, hbad⟩
      rw [List.takeWhile_cons_of_pos hacc, List.forall_mem_cons]
      simp only [applyParams, he]
      by_cases hfix : v = b ∧ w' = w
      · obtain ⟨rfl, rfl⟩ := hfix
        have hunmoved : st.Unmoved g first := by
          intro b' w'' a' hb' hw'' ha'
          rw [hb] at hb'; rw [hw] at hw''; rw [ha] at ha'
          cases hb'; cases hw''; cases ha'
          exact hu
        rw [assign_eq_self hb hw, ih (fun n hn => hsub n (List.mem_cons_of_mem _ hn)) hn hrest]
        exact ⟨fun h => ⟨hunmoved, h⟩, fun h => h.2⟩
      · -- the first parameter has moved, and no later turn touches it again
        have hs := shape_update (by
          obtain ⟨b', hb', hs⟩ := h.exists_buffer hw
          rw [hb] at hb'; cases hb'; exact hs) hu
        have hkeys : ∀ n ∈ names, n ∈ (st.assign first v w').weights.keys := by
          intro n hn
          rw [(sameExcept_assign hmem).keys]
          exact hsub n (List.mem_cons_of_mem _ hn)
        have hsame := sameExcept_applyParams [g] hkeys
        refine iff_of_false (fun heq => hfix ?_) (fun ⟨hunmoved, _⟩ => hfix ?_)
        · have hb' := hsame.buffers first hfirst
          have hw' := hsame.weights first hfirst
          rw [heq] at hb' hw'
          simp only [assign, Dict.get?_set, if_true, hb, hw, Option.some.injEq] at hb' hw'
          exact ⟨hb'.symm, hw'.symm⟩
        · have := hunmoved b w a hb hw ha
          rw [hu] at this
          cases this
          exact ⟨rfl, rfl⟩

lemma applyGradients_single_eq_iff (h : st.Aligned) (hm : st.Rejects g) :
    (st.applyGradients [g]).1 = st ↔
      ∀ n ∈ st.weights.keys.takeWhile (st.accepts g), st.Unmoved g n := by
  rw [← applyParams_single_eq_iff h (fun n hn => hn) st.weights.nodup_keys hm]
  obtain ⟨st', e, he⟩ := applyGradients_of_rejects h (List.mem_singleton_self g) hm
  have hparams : applyParams [g] st.weights.keys st = (st', .error e) := by
    simp only [applyGradients] at he
    split at he
    · cases he
    · next hp => cases he; exact hp
  rw [he, hparams]

end WeightStore

end DistributedRL
