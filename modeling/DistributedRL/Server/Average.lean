import DistributedRL.Server.ApplyGradients

/-!
# Rounds of well-formed deltas

If every delta of a round has an array of the right shape for every parameter, `apply_gradients`
goes through, keeps the shapes, and updates each parameter from the average of its arrays.
-/

namespace DistributedRL

variable {α : Type*}

/-- Two named sets of arrays have the same names, and the same shape at each of them. -/
def SameShapes (w w' : Weights α) : Prop :=
  ∀ name, (w.get? name).map NDArray.shape = (w'.get? name).map NDArray.shape

/-- The delta has an array of the same shape for every parameter. -/
def WellShaped (w : Weights α) (g : Payload α) : Prop :=
  ∀ name a, w.get? name = some a → ∃ b, g.getItem name = .ok b ∧ b.shape = a.shape

section

variable {w w' w'' : Weights α} {name : String} {a : NDArray α} {g : Payload α}

lemma SameShapes.refl (w : Weights α) : SameShapes w w := fun _ => rfl

lemma SameShapes.symm (h : SameShapes w w') : SameShapes w' w := fun name => (h name).symm

lemma SameShapes.trans (h : SameShapes w w') (h' : SameShapes w' w'') : SameShapes w w'' :=
  fun name => (h name).trans (h' name)

lemma SameShapes.get? (h : SameShapes w w') (ha : w'.get? name = some a) :
    ∃ b, w.get? name = some b ∧ b.shape = a.shape := by
  have := h name
  rw [ha, Option.map_some, Option.map_eq_some_iff] at this
  exact this

lemma SameShapes.set (h : SameShapes w w') {b : NDArray α} (ha : w'.get? name = some a)
    (hb : b.shape = a.shape) : SameShapes (w.set name b) w' := by
  intro other
  rw [Dict.get?_set]
  split_ifs with hn
  · rw [hn, ha, Option.map_some, Option.map_some, hb]
  · exact h other

lemma wellShaped_iff : WellShaped w g ↔
    ∀ p ∈ w.entries, ∃ b ∈ (g.getItem p.1).toOption, b.shape = p.2.shape := by
  have hitem : ∀ name b, b ∈ (g.getItem name).toOption ↔ g.getItem name = .ok b := by
    intro name b
    cases g.getItem name <;> simp [Except.toOption]
  simp only [WellShaped, Dict.get?_eq_some_iff, hitem, Prod.forall]

instance (w : Weights α) (g : Payload α) : Decidable (WellShaped w g) :=
  decidable_of_iff _ wellShaped_iff.symm

lemma WellShaped.of_sameShapes (h : WellShaped w g) (hs : SameShapes w w') : WellShaped w' g := by
  intro name a ha
  obtain ⟨b, hb, hba⟩ := hs.get? ha
  obtain ⟨c, hc, hcb⟩ := h name b hb
  exact ⟨c, hc, hcb.trans hba⟩

end

variable [Scalar α] {grads : List (Payload α)} {name : String} {names : List String}

lemma addGrads_ok {avg : NDArray α}
    (h : ∀ g ∈ grads, ∃ a, g.getItem name = .ok a ∧ a.shape = avg.shape) :
    ∃ sum, addGrads name avg grads = .ok sum := by
  induction grads generalizing avg with
  | nil => exact ⟨avg, rfl⟩
  | cons g grads ih =>
    obtain ⟨a, ha, hs⟩ := h g List.mem_cons_self
    obtain ⟨c, hc, hcs, -⟩ := NDArray.exists_inplace (· + ·) hs.symm
    have hrest : ∀ g' ∈ grads, ∃ a, g'.getItem name = .ok a ∧ a.shape = c.shape := by
      intro g' hg'
      rw [hcs]
      exact h g' (List.mem_cons_of_mem _ hg')
    obtain ⟨sum, hsum⟩ := ih hrest
    refine ⟨sum, ?_⟩
    rw [addGrads]
    simp only [addGrad, ha, hc, Option.elim]
    exact hsum

lemma averageGrad_ok {shape : List ℕ} (hne : grads ≠ [])
    (h : ∀ g ∈ grads, ∃ a, g.getItem name = .ok a ∧ a.shape = shape) :
    ∃ avg, averageGrad grads name = .ok avg ∧ avg.shape = shape := by
  obtain ⟨g, grads, rfl⟩ := List.exists_cons_of_ne_nil hne
  obtain ⟨first, hfirst, rfl⟩ := h g List.mem_cons_self
  obtain ⟨sum, hsum⟩ := addGrads_ok fun g' hg' => h g' (List.mem_cons_of_mem _ hg')
  refine ⟨sum.map (· / ((g :: grads).length : α)), ?_, (addGrads_shape hsum).1⟩
  simp only [averageGrad, Payload.copyItem_eq_ok_iff.mpr hfirst, hsum]

namespace WeightStore

variable {st st' : WeightStore α}

/-- The parameter `name` has been updated from its average over the deltas. -/
def Updated (grads : List (Payload α)) (st st' : WeightStore α) (name : String) : Prop :=
  ∀ w, st.weights.get? name = some w → ∃ b avg v w', st.momentumBuffers.get? name = some b ∧
    averageGrad grads name = .ok avg ∧ avg.shape = w.shape ∧ st.update b w avg = some (v, w') ∧
    st'.weights.get? name = some w'

/-- The parameter `name` and its momentum buffer have been updated from the average. -/
def UpdatedBoth (grads : List (Payload α)) (st st' : WeightStore α) (name : String) : Prop :=
  ∀ w, st.weights.get? name = some w → ∃ b avg v w', st.momentumBuffers.get? name = some b ∧
    b.shape = w.shape ∧ averageGrad grads name = .ok avg ∧ st.update b w avg = some (v, w') ∧
    st'.momentumBuffers.get? name = some v ∧ st'.weights.get? name = some w'

lemma shape_update_self {b w avg v w' : NDArray α} (hb : b.shape = w.shape)
    (hs : avg.shape = w.shape) (h : st.update b w avg = some (v, w')) : w'.shape = w.shape := by
  rw [← shape_update hb h]
  simp only [update, Option.bind_eq_some_iff, Option.map_eq_some_iff, Prod.mk.injEq] at h
  obtain ⟨v, hv, _, -, rfl, -⟩ := h
  have hvs := NDArray.shape_binop hv
  rw [NDArray.shape_map, hb, hs, broadcastShape_self] at hvs
  exact (Option.some.inj hvs).symm

lemma applyParam_wellShaped (h : st.Aligned) {w avg : NDArray α}
    (hw : st.weights.get? name = some w) (havg : averageGrad grads name = .ok avg)
    (hs : avg.shape = w.shape) :
    ∃ b v w', st.momentumBuffers.get? name = some b ∧ st.update b w avg = some (v, w') ∧
      v.shape = w'.shape ∧ w'.shape = w.shape ∧
      applyParam grads name st = (st.assign name v w', .ok ()) := by
  obtain ⟨b, hb, hbs, ⟨e, he, -⟩ | ⟨avg', havg', ⟨hu, -⟩ | ⟨v, w', hu, he⟩⟩⟩ :=
    applyParam_eq grads h hw
  · rw [havg] at he
    cases he
  · rw [havg] at havg'
    cases havg'
    rw [update_eq_none_iff hbs, hs, broadcastShape_self] at hu
    cases hu
  · rw [havg] at havg'
    cases havg'
    exact ⟨b, v, w', hb, hu, shape_update hbs hu, shape_update_self hbs hs hu, he⟩

/-- A loop that gets through updates each of its parameters from what it was at the start. -/
lemma applyParams_updated (h : st.Aligned) (hn : names.Nodup)
    (hnames : ∀ name ∈ names, name ∈ st.weights.keys)
    (hok : applyParams grads names st = (st', .ok ())) :
    ∀ name ∈ names, UpdatedBoth grads st st' name := by
  induction names generalizing st with
  | nil =>
    intro name hname
    cases hname
  | cons first names ih =>
    obtain ⟨hfirst, hn⟩ := List.nodup_cons.mp hn
    have hmem := hnames first List.mem_cons_self
    obtain ⟨w, hw⟩ := Dict.mem_keys_iff.mp hmem
    simp only [applyParams] at hok
    obtain ⟨b, hb, hbs, ⟨e, -, he⟩ | ⟨avg, havg, ⟨-, he⟩ | ⟨v, w', hu, he⟩⟩⟩ :=
      applyParam_eq grads h hw
    · rw [he] at hok
      cases hok
    · rw [he] at hok
      cases hok
    · rw [he] at hok
      dsimp only at hok
      have hsame := sameExcept_assign (v := v) (w := w') hmem
      have hkeys : ∀ name ∈ names, name ∈ (st.assign first v w').weights.keys := by
        intro name hname
        rw [hsame.keys]
        exact hnames name (List.mem_cons_of_mem _ hname)
      have hlater := sameExcept_applyParams grads hkeys
      rw [hok] at hlater
      intro name hname u hu'
      rcases List.mem_cons.mp hname with rfl | hname
      · rw [hw] at hu'
        cases hu'
        -- the later turns leave the first parameter alone
        exact ⟨b, avg, v, w', hb, hbs, havg, hu,
          (hlater.buffers name hfirst).trans (by simp [assign]),
          (hlater.weights name hfirst).trans (by simp [assign])⟩
      · have hne : name ∉ [first] := by
          intro hin
          exact hfirst (List.mem_singleton.mp hin ▸ hname)
        obtain ⟨b', avg', v', u', hb', hrest⟩ :=
          ih (h.assign (shape_update hbs hu)) hn hkeys hok name hname u
            ((hsame.weights name hne).trans hu')
        exact ⟨b', avg', v', u', (hsame.buffers name hne).symm.trans hb', hrest⟩

/-- The loop goes through on averages of the right shapes. -/
lemma applyParams_ok_of_shapes (h : st.Aligned) (hn : names.Nodup)
    (hnames : ∀ name ∈ names, name ∈ st.weights.keys)
    (hg : ∀ name ∈ names, ∀ w, st.weights.get? name = some w →
      ∃ avg, averageGrad grads name = .ok avg ∧ avg.shape = w.shape) :
    ∃ st', applyParams grads names st = (st', .ok ()) ∧ SameShapes st'.weights st.weights := by
  induction names generalizing st with
  | nil => exact ⟨st, rfl, .refl _⟩
  | cons first names ih =>
    obtain ⟨hfirst, hn⟩ := List.nodup_cons.mp hn
    have hmem := hnames first List.mem_cons_self
    obtain ⟨w, hw⟩ := Dict.mem_keys_iff.mp hmem
    obtain ⟨avg, havg, hs⟩ := hg first List.mem_cons_self w hw
    obtain ⟨b, v, w', -, -, hvs, hws, he⟩ := applyParam_wellShaped h hw havg hs
    have hsame := sameExcept_assign (v := v) (w := w') hmem
    have hkeys : ∀ name ∈ names, name ∈ (st.assign first v w').weights.keys := by
      intro name hname
      rw [hsame.keys]
      exact hnames name (List.mem_cons_of_mem _ hname)
    have hshapes : ∀ name ∈ names, ∀ u, (st.assign first v w').weights.get? name = some u →
        ∃ avg, averageGrad grads name = .ok avg ∧ avg.shape = u.shape := by
      intro name hname u hu
      have hne : name ∉ [first] := by
        intro hin
        exact hfirst (List.mem_singleton.mp hin ▸ hname)
      rw [hsame.weights name hne] at hu
      exact hg name (List.mem_cons_of_mem _ hname) u hu
    obtain ⟨st', hst', hshape⟩ := ih (h.assign hvs) hn hkeys hshapes
    refine ⟨st', ?_, hshape.trans ((SameShapes.refl _).set hw hws)⟩
    simp only [applyParams, he, hst']

/-- The loop goes through, and updates each of its parameters. -/
lemma applyParams_wellShaped (h : st.Aligned) (hn : names.Nodup)
    (hnames : ∀ name ∈ names, name ∈ st.weights.keys)
    (hg : ∀ name ∈ names, ∀ w, st.weights.get? name = some w →
      ∃ avg, averageGrad grads name = .ok avg ∧ avg.shape = w.shape) :
    ∃ st', applyParams grads names st = (st', .ok ()) ∧ SameShapes st'.weights st.weights ∧
      ∀ name ∈ names, Updated grads st st' name := by
  obtain ⟨st', hst', hshape⟩ := applyParams_ok_of_shapes h hn hnames hg
  refine ⟨st', hst', hshape, ?_⟩
  intro name hname w hw
  obtain ⟨b, avg, v, w', hb, -, havg, hu, -, hw'⟩ :=
    applyParams_updated h hn hnames hst' name hname w hw
  obtain ⟨avg', havg', hs⟩ := hg name hname w hw
  rw [havg] at havg'
  cases havg'
  exact ⟨b, avg, v, w', hb, havg, hs, hu, hw'⟩

/-- `apply_gradients` goes through on well-formed deltas, and keeps the shapes. -/
lemma applyGradients_wellShaped (h : st.Aligned) (hne : grads ≠ [])
    (hg : ∀ g ∈ grads, WellShaped st.weights g) :
    ∃ st', st.applyGradients grads = (st', .ok ()) ∧ SameShapes st'.weights st.weights ∧
      st'.globalStep = st.globalStep + 1 ∧ ∀ name, Updated grads st st' name := by
  have havg : ∀ name ∈ st.weights.keys, ∀ w, st.weights.get? name = some w →
      ∃ avg, averageGrad grads name = .ok avg ∧ avg.shape = w.shape :=
    fun name _ w hw => averageGrad_ok hne fun g hg' => hg g hg' name w hw
  obtain ⟨st', hst', hshape, hupd⟩ := applyParams_wellShaped h st.weights.nodup_keys
    (fun _ hn => hn) havg
  have hstep : st'.globalStep = st.globalStep := by
    have := (sameExcept_loop st grads).globalStep
    rwa [hst'] at this
  refine ⟨{ st' with globalStep := st'.globalStep + 1 }, ?_, hshape, ?_, ?_⟩
  · simp only [applyGradients, hst']
  · simp [hstep]
  · intro name w hw
    exact hupd name (Dict.mem_keys_iff.mpr ⟨w, hw⟩) w hw

end WeightStore

end DistributedRL
