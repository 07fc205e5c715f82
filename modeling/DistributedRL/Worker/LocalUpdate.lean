import DistributedRL.Data.Mean
import DistributedRL.Server.Average
import DistributedRL.Worker.Client
import Mathlib.Algebra.BigOperators.Group.List.Lemmas
import Mathlib.Tactic.FieldSimp
import Mathlib.Tactic.Ring

/-!
# Averages of local updates

A worker pushes the difference between the weights it started from and its own. With a learning
rate of one and no momentum, `apply_gradients` replaces the weights by the mean of those of the
workers.
-/

namespace DistributedRL

section

variable {α : Type*} [Scalar α] {old w model acc g : Weights α} {name : String}

/-! ### The pushed delta -/

/-- The comprehension assigns every name once. -/
lemma weightDeltaLoop_get? {rest : List (String × NDArray α)} (hn : (rest.map Prod.fst).Nodup)
    (h : weightDeltaLoop old rest acc = .ok g) :
    (∀ new, (name, new) ∈ rest → ∃ a d, old.get? name = some a ∧ a.binop (· - ·) new = some d ∧
      g.get? name = some d) ∧ (name ∉ rest.map Prod.fst → g.get? name = acc.get? name) := by
  induction rest generalizing acc with
  | nil =>
    cases h
    exact ⟨fun new hnew => (List.not_mem_nil hnew).elim, fun _ => rfl⟩
  | cons p rest ih =>
    obtain ⟨k, new⟩ := p
    obtain ⟨hk, hn⟩ := List.nodup_cons.mp hn
    simp only [weightDeltaLoop] at h
    split at h
    · cases h
    · next a ha =>
      split at h
      · cases h
      · next d hd =>
        obtain ⟨hin, hout⟩ := ih hn h
        constructor
        · intro new' hnew
          rcases List.mem_cons.mp hnew with heq | hnew
          · cases heq
            exact ⟨a, d, ha, hd, by rw [hout hk, Dict.get?_set, if_pos rfl]⟩
          · exact hin new' hnew
        · intro hname
          obtain ⟨hne, hname⟩ := not_or.mp (List.mem_cons.not.mp hname)
          rw [hout hname, Dict.get?_set, if_neg hne]

lemma weightDelta_get? (h : weightDelta old model = .ok g) {l : NDArray α}
    (hl : model.get? name = some l) : ∃ a d, old.get? name = some a ∧
      a.binop (· - ·) l = some d ∧ g.get? name = some d :=
  (weightDeltaLoop_get? model.nodup h).1 l (Dict.get?_eq_some_iff.mp hl)

/-- The delta of a model with the shapes of the weights has these shapes too. -/
lemma wellShaped_weightDelta (hs : SameShapes model w) (h : weightDelta w model = .ok g) :
    WellShaped w (.dict g) := by
  intro name a ha
  obtain ⟨l, hl, hla⟩ := hs.get? ha
  obtain ⟨a', d, ha', hd, hg⟩ := weightDelta_get? h hl
  rw [ha] at ha'
  cases ha'
  obtain ⟨c, hc, hca, -⟩ := NDArray.exists_binop (· - ·) hla.symm
  rw [hd] at hc
  cases hc
  exact ⟨d, by simp [Payload.getItem, hg], hca⟩

end

/-! ### Elements -/

section

variable {𝕂 : Type*} [Field 𝕂] {w model g : Weights 𝕂} {grads : List (Payload 𝕂)} {name : String}

/-- The element at a position of an array in the payload of a push. -/
def Payload.item (g : Payload 𝕂) (name : String) (i : ℕ) : 𝕂 :=
  match g with
  | .dict d => d.item name i
  | .mixed d _ => ((d.get? name).bind id).elim 0 fun a => a.item i
  | .other => 0

lemma Payload.item_of_getItem {g : Payload 𝕂} {a : NDArray 𝕂} (h : g.getItem name = .ok a)
    (i : ℕ) : g.item name i = a.item i := by
  cases g with
  | other => cases h
  | dict d =>
    cases hd : d.get? name with
    | none => simp [getItem, hd] at h
    | some b =>
      simp only [getItem, hd, Option.elim, Except.ok.injEq] at h
      rw [item, Dict.item_of_get? hd, h]
  | mixed d hmixed =>
    cases hd : d.get? name with
    | none => simp [getItem, hd] at h
    | some v =>
      cases v with
      | none => simp [getItem, hd] at h
      | some b =>
        simp only [getItem, hd, Option.elim, Except.ok.injEq] at h
        simp [item, hd, h]

lemma item_weightDelta (hs : SameShapes model w) (h : weightDelta w model = .ok g)
    {a : NDArray 𝕂} (ha : w.get? name = some a) (i : ℕ) :
    g.item name i = a.item i - model.item name i := by
  obtain ⟨l, hl, hla⟩ := hs.get? ha
  obtain ⟨a', d, ha', hd, hg⟩ := weightDelta_get? h hl
  rw [ha] at ha'
  cases ha'
  rw [Dict.item_of_get? hg, Dict.item_of_get? hl]
  exact NDArray.item_binop (sub_self 0) hla.symm hd i

lemma addGrads_item {avg sum : NDArray 𝕂}
    (hs : ∀ g ∈ grads, ∃ a, g.getItem name = .ok a ∧ a.shape = avg.shape)
    (h : addGrads name avg grads = .ok sum) (i : ℕ) :
    sum.item i = avg.item i + (grads.map (Payload.item · name i)).sum := by
  induction grads generalizing avg with
  | nil =>
    cases h
    simp
  | cons g grads ih =>
    obtain ⟨a, ha, has⟩ := hs g List.mem_cons_self
    obtain ⟨c, hc, hcs, -⟩ := NDArray.exists_inplace (· + ·) has.symm
    simp only [addGrads, addGrad, ha, hc, Option.elim] at h
    have hrest := ih (fun g' hg' => hcs ▸ hs g' (List.mem_cons_of_mem _ hg')) h
    rw [hrest, NDArray.item_inplace (add_zero 0) has.symm hc, List.map_cons, List.sum_cons,
      Payload.item_of_getItem ha, add_assoc]

/-- The elements of the average are the averages of the elements. -/
lemma averageGrad_item {shape : List ℕ} {avg : NDArray 𝕂}
    (hs : ∀ g ∈ grads, ∃ a, g.getItem name = .ok a ∧ a.shape = shape)
    (h : averageGrad grads name = .ok avg) (i : ℕ) :
    avg.item i = (grads.map (Payload.item · name i)).sum / grads.length := by
  cases grads with
  | nil => cases h
  | cons g grads =>
    obtain ⟨first, hfirst, rfl⟩ := hs g List.mem_cons_self
    simp only [averageGrad, Payload.copyItem_eq_ok_iff.mpr hfirst] at h
    split at h
    · cases h
    · next sum hsum =>
      simp only [Except.ok.injEq] at h
      rw [← h, NDArray.item_map _ (zero_div _),
        addGrads_item (fun g' hg' => hs g' (List.mem_cons_of_mem _ hg')) hsum, List.map_cons,
        List.sum_cons, Payload.item_of_getItem hfirst]

/-- The velocity and the weight, element by element. -/
lemma WeightStore.update_items {st : WeightStore 𝕂} {b a avg v a' : NDArray 𝕂}
    (hb : b.shape = a.shape) (hs : avg.shape = a.shape) (h : st.update b a avg = some (v, a'))
    (i : ℕ) : v.item i = st.momentum * b.item i + avg.item i ∧
      a'.item i = a.item i - st.baseLr * v.item i := by
  simp only [update, Option.bind_eq_some_iff, Option.map_eq_some_iff, Prod.mk.injEq] at h
  obtain ⟨v, hv, a'', ha, rfl, rfl⟩ := h
  have hbs : (b.map (st.momentum * ·)).shape = avg.shape := by rw [NDArray.shape_map, hb, hs]
  obtain ⟨c, hc, hcs, -⟩ := NDArray.exists_binop (· + ·) hbs
  rw [hv] at hc
  cases hc
  have hvs : a.shape = (v.map (st.baseLr * ·)).shape := by
    rw [NDArray.shape_map, hcs, NDArray.shape_map, hb]
  rw [NDArray.item_binop (sub_self 0) hvs ha, NDArray.item_map _ (mul_zero _),
    NDArray.item_binop (add_zero 0) hbs hv, NDArray.item_map _ (mul_zero _)]
  exact ⟨rfl, rfl⟩

/-- With a learning rate of one and no momentum, the average is subtracted. -/
lemma WeightStore.update_item {st : WeightStore 𝕂} (hlr : st.baseLr = 1) (hmom : st.momentum = 0)
    {b a avg v a' : NDArray 𝕂} (hb : b.shape = a.shape) (hs : avg.shape = a.shape)
    (h : st.update b a avg = some (v, a')) (i : ℕ) : a'.item i = a.item i - avg.item i := by
  obtain ⟨hv, ha⟩ := update_items hb hs h i
  rw [ha, hv, hlr, hmom, zero_mul, zero_add, one_mul]

/-! ### A round -/

variable {st : WeightStore 𝕂} {deltas : List (Delta 𝕂)} {members : Finset ConnId}
  {locals : ConnId → Weights 𝕂}

/-- The sum of the differences to `x`, one for each member. -/
lemma sum_deltas {f : Delta 𝕂 → 𝕂} {y : ConnId → 𝕂} {x : 𝕂}
    (hconns : (deltas.map Delta.conn).Perm members.toList)
    (hf : ∀ δ ∈ deltas, f δ = x - y δ.conn) :
    (deltas.map f).sum = members.card * x - ∑ d ∈ members, y d := by
  have hmap : deltas.map f = (deltas.map Delta.conn).map fun d => x - y d := by
    rw [List.map_map]
    exact List.map_congr_left hf
  rw [hmap, (hconns.map _).sum_eq, Finset.sum_map_toList, Finset.sum_sub_distrib, Finset.sum_const,
    nsmul_eq_mul]

namespace WeightStore

variable [CharZero 𝕂]

/-- A round of one delta for each member, each computed from the weights of the store, leaves the
mean of the members' weights. -/
lemma applyGradients_mean (hst : st.Aligned) (hlr : st.baseLr = 1) (hmom : st.momentum = 0)
    (hne : deltas ≠ []) (hconns : (deltas.map Delta.conn).Perm members.toList)
    (hd : ∀ δ ∈ deltas, ∃ g, δ.grads = .dict g ∧ weightDelta st.weights (locals δ.conn) = .ok g)
    (hs : ∀ δ ∈ deltas, SameShapes (locals δ.conn) st.weights) :
    ∃ st', st.applyGradients (deltas.map Delta.grads) = (st', .ok ()) ∧
      st'.weights = st.weights.mean members locals ∧ st'.globalStep = st.globalStep + 1 := by
  have hwell : ∀ g ∈ deltas.map Delta.grads, WellShaped st.weights g := by
    intro g hg
    obtain ⟨δ, hδ, rfl⟩ := List.mem_map.mp hg
    obtain ⟨g, hg, hdelta⟩ := hd δ hδ
    rw [hg]
    exact wellShaped_weightDelta (hs δ hδ) hdelta
  obtain ⟨st', hok, hshapes, hstep, hupd⟩ := applyGradients_wellShaped hst
    (by simpa using hne) hwell
  refine ⟨st', hok, Dict.eq_mean ?_ ?_, hstep⟩
  · have := (applyGradients_spec (deltas.map Delta.grads) hst).2.1
    rwa [hok] at this
  · intro name a ha
    obtain ⟨b, avg, v, a', hb, havg, havgs, hu, ha'⟩ := hupd name a ha
    obtain ⟨b', hb', hbs⟩ := hst.exists_buffer ha
    rw [hb] at hb'
    cases hb'
    refine ⟨a', ha', shape_update_self hbs havgs hu, ?_⟩
    intro i _
    have hcard : (deltas.map Delta.grads).length = members.card := by
      rw [List.length_map, ← Finset.length_toList, ← hconns.length_eq, List.length_map]
    have hpos : (members.card : 𝕂) ≠ 0 := by
      rw [← hcard, List.length_map]
      exact Nat.cast_ne_zero.mpr (mt List.length_eq_zero_iff.mp hne)
    have hitem : ∀ δ ∈ deltas, δ.grads.item name i = a.item i - (locals δ.conn).item name i := by
      intro δ hδ
      obtain ⟨g, hg, hdelta⟩ := hd δ hδ
      rw [hg]
      exact item_weightDelta (hs δ hδ) hdelta ha i
    have hsum : ((deltas.map Delta.grads).map (Payload.item · name i)).sum =
        members.card * a.item i - ∑ d ∈ members, (locals d).item name i := by
      rw [List.map_map]
      exact sum_deltas hconns hitem
    rw [update_item hlr hmom hbs havgs hu,
      averageGrad_item (fun g hg => hwell g hg name a ha) havg, hcard, hsum]
    field_simp
    ring

end WeightStore

end

end DistributedRL
