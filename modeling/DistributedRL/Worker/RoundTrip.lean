import DistributedRL.Network.StateDict
import DistributedRL.Worker.LocalUpdate

/-!
# Weights there and back

`serialize_weights` and `deserialize_weights` are inverse to each other, whatever the names of the
parameters, and what a worker pushes gives its own weights when it is subtracted from those that it
started from.
-/

namespace DistributedRL

section

variable {α : Type*} {actor critic actor' critic' model sd : StateDict α} {w : Weights α}

/-! ### Names -/

/-- The names under which the two networks are serialized are all different. -/
lemma nodup_prefixed (actor critic : StateDict α) :
    (actor.keys.map ("actor." ++ ·) ++ critic.keys.map ("critic." ++ ·)).Nodup := by
  refine (actor.nodup_keys.map (append_injective _)).append
    (critic.nodup_keys.map (append_injective _)) ?_
  intro k hactor hcritic
  obtain ⟨m, -, rfl⟩ := List.mem_map.mp hactor
  obtain ⟨m', -, heq⟩ := List.mem_map.mp hcritic
  exact actor_append_ne_critic m m' heq.symm

lemma entries_serializeWeights (actor critic : StateDict α) :
    (serializeWeights actor critic).entries =
      actor.entries.map (fun p => ("actor." ++ p.1, p.2)) ++
        critic.entries.map fun p => ("critic." ++ p.1, p.2) := by
  have hnodup := nodup_prefixed actor critic
  have hfst : ∀ (head : String) (sd : StateDict α),
      (sd.entries.map fun p => (head ++ p.1, p.2)).map Prod.fst = sd.keys.map (head ++ ·) := by
    intro head sd
    simp only [Dict.keys, List.map_map, Function.comp_def]
  have hactor : (Dict.empty.setAll (actor.entries.map fun p => ("actor." ++ p.1, p.2))).entries =
      actor.entries.map fun p => ("actor." ++ p.1, p.2) := by
    refine Dict.entries_setAll ?_
    rw [hfst]
    exact hnodup.of_append_left
  rw [serializeWeights, Dict.entries_setAll, hactor]
  rw [Dict.keys, hactor, hfst, hfst]
  exact hnodup

lemma keys_serializeWeights (actor critic : StateDict α) :
    (serializeWeights actor critic).keys =
      actor.keys.map ("actor." ++ ·) ++ critic.keys.map ("critic." ++ ·) := by
  simp only [Dict.keys, entries_serializeWeights, List.map_append, List.map_map,
    Function.comp_def]

/-- Weights whose names all have one of the two heads are what is under these heads. -/
lemma agree_serializeWeights (hw : ∀ k ∈ w.keys, ∃ m, k = "actor." ++ m ∨ k = "critic." ++ m)
    (hactor : ∀ m, actor.get? m = w.get? ("actor." ++ m))
    (hcritic : ∀ m, critic.get? m = w.get? ("critic." ++ m)) :
    (serializeWeights actor critic).Agree w := by
  intro k
  by_cases hk : ∃ m, k = "actor." ++ m ∨ k = "critic." ++ m
  · obtain ⟨m, rfl | rfl⟩ := hk
    · rw [get?_serializeWeights_actor, hactor]
    · rw [get?_serializeWeights_critic, hcritic]
  · have hnone : w.get? k = none := Dict.get?_eq_none_iff.mpr (mt (hw k) hk)
    rw [hnone, Dict.get?_eq_none_iff, keys_serializeWeights]
    intro hmem
    rcases List.mem_append.mp hmem with hmem | hmem
    · obtain ⟨m, -, rfl⟩ := List.mem_map.mp hmem
      exact hk ⟨m, Or.inl rfl⟩
    · obtain ⟨m, -, rfl⟩ := List.mem_map.mp hmem
      exact hk ⟨m, Or.inr rfl⟩

/-! ### Loading -/

lemma sameShapes_of_loadStateDict {model' : StateDict α}
    (h : loadStateDict model sd = some model') : SameShapes sd model := by
  rw [loadStateDict] at h
  split_ifs at h with hload
  intro k
  by_cases hk : k ∈ model.keys
  · exact hload.2 k hk
  · rw [Dict.get?_eq_none_iff.mpr hk, Dict.get?_eq_none_iff.mpr (mt (hload.1 k) hk)]

/-- The loaded dict has the values that were loaded, in the order of the model. -/
lemma loadStateDict_spec {model' : StateDict α} (h : loadStateDict model sd = some model') :
    model'.Agree sd ∧ model'.keys = model.keys := by
  have hs := sameShapes_of_loadStateDict h
  rw [loadStateDict] at h
  split_ifs at h
  cases h
  refine ⟨?_, Dict.keys_mapValues _ _⟩
  intro k
  rw [Dict.get?_mapValues]
  have hk := hs k
  cases hm : model.get? k with
  | none =>
    rw [hm, Option.map_none, Option.map_eq_none_iff] at hk
    rw [hk, Option.map_none]
  | some v =>
    obtain ⟨v', hv', -⟩ := hs.get? hm
    rw [hv']
    rfl

lemma deserializeWeights_spec {models : StateDict α × StateDict α}
    (h : deserializeWeights w actor critic = some models) :
    (∀ m, models.1.get? m = w.get? ("actor." ++ m)) ∧
      (∀ m, models.2.get? m = w.get? ("critic." ++ m)) ∧
      models.1.keys = actor.keys ∧ models.2.keys = critic.keys := by
  simp only [deserializeWeights, Option.bind_eq_some_iff, Option.map_eq_some_iff] at h
  obtain ⟨a, ha, c, hc, rfl⟩ := h
  obtain ⟨hactor, hakeys⟩ := loadStateDict_spec ha
  obtain ⟨hcritic, hckeys⟩ := loadStateDict_spec hc
  refine ⟨?_, ?_, hakeys, hckeys⟩
  · intro m
    rw [hactor m, get?_stripped]
  · intro m
    rw [hcritic m, get?_stripped]

/-- Whatever networks it is loaded into, what was serialized is restored. -/
lemma deserialize_serialize {models : StateDict α × StateDict α}
    (h : deserializeWeights (serializeWeights actor critic) actor' critic' = some models) :
    models.1.Agree actor ∧ models.2.Agree critic ∧
      models.1.keys = actor'.keys ∧ models.2.keys = critic'.keys := by
  obtain ⟨hactor, hcritic, hakeys, hckeys⟩ := deserializeWeights_spec h
  refine ⟨?_, ?_, hakeys, hckeys⟩
  · intro m
    rw [hactor, get?_serializeWeights_actor]
  · intro m
    rw [hcritic, get?_serializeWeights_critic]

lemma serialize_deserialize {models : StateDict α × StateDict α}
    (hw : ∀ k ∈ w.keys, ∃ m, k = "actor." ++ m ∨ k = "critic." ++ m)
    (h : deserializeWeights w actor critic = some models) :
    (serializeWeights models.1 models.2).Agree w := by
  obtain ⟨hactor, hcritic, -, -⟩ := deserializeWeights_spec h
  exact agree_serializeWeights hw hactor hcritic

end

/-! ### The difference -/

section

variable {α : Type*} [Scalar α] {old new acc g : Weights α}

/-- The comprehension goes through on arrays of the same shapes, and lists the names in order. -/
lemma weightDeltaLoop_ok {rest : List (String × NDArray α)}
    (hrest : ∀ p ∈ rest, ∃ a, old.get? p.1 = some a ∧ a.shape = p.2.shape)
    (hn : (acc.keys ++ rest.map Prod.fst).Nodup) :
    ∃ g, weightDeltaLoop old rest acc = .ok g ∧ g.keys = acc.keys ++ rest.map Prod.fst := by
  induction rest generalizing acc with
  | nil => exact ⟨acc, rfl, (List.append_nil _).symm⟩
  | cons p rest ih =>
    obtain ⟨k, b⟩ := p
    obtain ⟨a, ha, hab⟩ := hrest (k, b) List.mem_cons_self
    obtain ⟨d, hd, -, -⟩ := NDArray.exists_binop (· - ·) hab
    have hk : k ∉ acc.keys := by
      intro hmem
      exact List.disjoint_of_nodup_append hn hmem List.mem_cons_self
    have hkeys : (acc.set k d).keys ++ rest.map Prod.fst =
        acc.keys ++ ((k, b) :: rest).map Prod.fst := by
      rw [Dict.keys_set, if_neg hk, List.append_assoc, List.singleton_append, List.map_cons]
    obtain ⟨g, hg, hgkeys⟩ := ih (fun q hq => hrest q (List.mem_cons_of_mem _ hq))
      (hkeys.symm ▸ hn)
    refine ⟨g, ?_, hgkeys.trans hkeys⟩
    simp only [weightDeltaLoop, ha, hd]
    exact hg

lemma weightDelta_ok (hs : SameShapes old new) :
    ∃ g, weightDelta old new = .ok g ∧ g.keys = new.keys ∧ SameShapes g old := by
  have hrest : ∀ p ∈ new.entries, ∃ a, old.get? p.1 = some a ∧ a.shape = p.2.shape := by
    intro p hp
    exact hs.get? (Dict.get?_eq_some_iff.mpr hp)
  have hn : ((∅ : Weights α).keys ++ new.entries.map Prod.fst).Nodup := new.nodup
  obtain ⟨g, hg, hkeys⟩ := weightDeltaLoop_ok hrest hn
  refine ⟨g, hg, hkeys, ?_⟩
  intro name
  cases hname : new.get? name with
  | none =>
    have hnew : name ∉ g.keys := by
      rw [hkeys]
      exact Dict.get?_eq_none_iff.mp hname
    rw [hs name, hname, Dict.get?_eq_none_iff.mpr hnew]
  | some b =>
    obtain ⟨a, d, ha, hd, hgd⟩ := weightDelta_get? hg hname
    obtain ⟨a', ha', hab⟩ := hs.get? hname
    rw [ha] at ha'
    cases ha'
    obtain ⟨c, hc, hca, -⟩ := NDArray.exists_binop (· - ·) hab
    rw [hd] at hc
    cases hc
    rw [hgd, ha, Option.map_some, Option.map_some, hca]

end

section

variable {𝕂 : Type*} [Field 𝕂] {base new δ : Weights 𝕂}

/-- What has been subtracted is left when the difference is subtracted. -/
lemma NDArray.binop_sub_sub {a b d : NDArray 𝕂} (hs : a.shape = b.shape)
    (h : a.binop (· - ·) b = some d) : a.binop (· - ·) d = some b := by
  obtain ⟨d', hd', hds, -⟩ := exists_binop (· - ·) hs
  rw [h] at hd'
  cases hd'
  obtain ⟨c, hc, hcs, -⟩ := exists_binop (· - ·) hds.symm
  rw [hc, ext_item (hcs.trans hs)]
  intro i _
  rw [item_binop (sub_self 0) hds.symm hc, item_binop (sub_self 0) hs h, sub_sub_cancel]

/-- `weight_delta` of the difference gives the weights back. -/
lemma weightDelta_weightDelta (hs : SameShapes base new) (h : weightDelta base new = .ok δ) :
    weightDelta base δ = .ok new := by
  obtain ⟨δ', hδ', hkeys, hshapes⟩ := weightDelta_ok hs
  rw [h] at hδ'
  cases hδ'
  obtain ⟨g, hg, hgkeys, -⟩ := weightDelta_ok hshapes.symm
  rw [hg]
  refine congrArg Except.ok (Dict.ext_get? (hgkeys.trans hkeys) ?_)
  intro name
  cases hname : new.get? name with
  | none =>
    rw [Dict.get?_eq_none_iff, hgkeys, hkeys]
    exact Dict.get?_eq_none_iff.mp hname
  | some b =>
    obtain ⟨a, d, ha, hd, hδd⟩ := weightDelta_get? h hname
    obtain ⟨a', c, ha', hc, hgc⟩ := weightDelta_get? hg hδd
    rw [ha] at ha'
    cases ha'
    obtain ⟨a', ha', hab⟩ := hs.get? hname
    rw [ha] at ha'
    cases ha'
    rw [NDArray.binop_sub_sub hab hd] at hc
    rw [hgc, hc]

/-- A round of one delta, with a learning rate of one, leaves the weights of the worker less the
velocity that the store carries over. -/
lemma WeightStore.applyGradients_delta {st : WeightStore 𝕂} (hst : st.Aligned)
    (hlr : st.baseLr = 1) (hs : SameShapes st.weights new)
    (h : weightDelta st.weights new = .ok δ) :
    ∃ st', st.applyGradients [.dict δ] = (st', .ok ()) ∧ SameShapes st'.weights new ∧
      ∀ name i, st'.weights.item name i =
        new.item name i - st.momentum * st.momentumBuffers.item name i := by
  have hwell : ∀ g ∈ [Payload.dict δ], WellShaped st.weights g := by
    intro g hg
    rw [List.mem_singleton.mp hg]
    exact wellShaped_weightDelta hs.symm h
  obtain ⟨st', hok, hshapes, -, hupd⟩ := applyGradients_wellShaped hst
    (List.cons_ne_nil _ _) hwell
  refine ⟨st', hok, hshapes.trans hs, ?_⟩
  intro name i
  cases hname : st.weights.get? name with
  | none =>
    have hnone : ∀ {w : Weights 𝕂}, (w.get? name).map NDArray.shape =
        (st.weights.get? name).map NDArray.shape → w.item name i = 0 := by
      intro w hw
      rw [hname, Option.map_none, Option.map_eq_none_iff] at hw
      rw [Dict.item, hw, Option.elim]
    rw [hnone (hshapes name), hnone (hs name).symm, hnone (hst name), mul_zero, sub_zero]
  | some a =>
    obtain ⟨b, avg, v, a', hb, havg, havgs, hu, ha'⟩ := hupd name a hname
    obtain ⟨b', hb', hbs⟩ := hst.exists_buffer hname
    rw [hb] at hb'
    cases hb'
    obtain ⟨hv, ha⟩ := update_items hbs havgs hu i
    have hitem := averageGrad_item (fun g hg => hwell g hg name a hname) havg i
    rw [List.map_singleton, List.sum_singleton, List.length_singleton, Nat.cast_one, div_one,
      Payload.item, item_weightDelta hs.symm h hname] at hitem
    rw [Dict.item_of_get? ha', Dict.item_of_get? hb, ha, hv, hlr, hitem]
    ring

/-- Arrays of the same shapes with the same elements are the same. -/
lemma SameShapes.agree {w w' : Weights 𝕂} (hs : SameShapes w w')
    (h : ∀ name i, w.item name i = w'.item name i) : w.Agree w' := by
  intro name
  cases hname : w'.get? name with
  | none =>
    have hs := hs name
    rwa [hname, Option.map_none, Option.map_eq_none_iff] at hs
  | some b =>
    obtain ⟨a, ha, hab⟩ := hs.get? hname
    rw [ha, NDArray.ext_item hab]
    intro i _
    have hi := h name i
    rwa [Dict.item_of_get? ha, Dict.item_of_get? hname] at hi

end

/-- The names of the serialized weights do not collide. Networks with the same names and shapes can
load them, and whatever networks do restore them exactly. Weights whose names all have one of the
two heads are given back. A pushed delta gives the local weights when it is subtracted from the
base, and so does a store with the base and a learning rate of one, but for the velocity that it
carries over. -/
theorem weights_roundTrip {𝕂 : Type*} [Field 𝕂] (actor critic : StateDict 𝕂) :
    (actor.keys.map ("actor." ++ ·) ++ critic.keys.map ("critic." ++ ·)).Nodup ∧
    (serializeWeights actor critic).keys =
      actor.keys.map ("actor." ++ ·) ++ critic.keys.map ("critic." ++ ·) ∧
    (∀ actor' critic', SameShapes actor' actor → SameShapes critic' critic →
      ∃ models, deserializeWeights (serializeWeights actor critic) actor' critic' = some models) ∧
    (∀ actor' critic' models,
      deserializeWeights (serializeWeights actor critic) actor' critic' = some models →
      models.1.Agree actor ∧ models.2.Agree critic ∧
      (actor'.keys = actor.keys → critic'.keys = critic.keys → models = (actor, critic))) ∧
    (∀ w : Weights 𝕂, (∀ k ∈ w.keys, ∃ m, k = "actor." ++ m ∨ k = "critic." ++ m) →
      ∀ actor' critic', SameShapes (stripped "actor." w) actor' →
      SameShapes (stripped "critic." w) critic' →
      ∃ models, deserializeWeights w actor' critic' = some models ∧
        (serializeWeights models.1 models.2).Agree w) ∧
    ∀ base, SameShapes base (serializeWeights actor critic) →
      ∃ δ, weightDelta base (serializeWeights actor critic) = .ok δ ∧
        weightDelta base δ = .ok (serializeWeights actor critic) ∧
        ∀ st : WeightStore 𝕂, st.Aligned → st.weights = base → st.baseLr = 1 →
          ∃ st', st.applyGradients [.dict δ] = (st', .ok ()) ∧
            (∀ name i, st'.weights.item name i = (serializeWeights actor critic).item name i -
              st.momentum * st.momentumBuffers.item name i) ∧
            (st.momentum = 0 → st'.weights.Agree (serializeWeights actor critic)) := by
  refine ⟨nodup_prefixed actor critic, keys_serializeWeights actor critic, ?_, ?_, ?_, ?_⟩
  · intro actor' critic' ha hc
    exact deserializeWeights_of_sameShapes (.refl _) ha hc
  · intro actor' critic' models h
    obtain ⟨hactor, hcritic, hakeys, hckeys⟩ := deserialize_serialize h
    refine ⟨hactor, hcritic, ?_⟩
    intro ha hc
    exact Prod.ext (hactor.eq (hakeys.trans ha)) (hcritic.eq (hckeys.trans hc))
  · intro w hw actor' critic' ha hc
    obtain ⟨models, hmodels⟩ := deserializeWeights_ok ha hc
    exact ⟨models, hmodels, serialize_deserialize hw hmodels⟩
  · intro base hs
    obtain ⟨δ, hδ, -, -⟩ := weightDelta_ok hs
    refine ⟨δ, hδ, weightDelta_weightDelta hs hδ, ?_⟩
    rintro st hst rfl hlr
    obtain ⟨st', hok, hshapes, hitem⟩ := WeightStore.applyGradients_delta hst hlr hs hδ
    refine ⟨st', hok, hitem, ?_⟩
    intro hmom
    refine hshapes.agree ?_
    intro name i
    rw [hitem, hmom, zero_mul, sub_zero]

namespace Scenario

/-- One parameter has the name of one of the critic, the name of the other begins with the head of
the critic. -/
def clashingActor : StateDict ℚ :=
  ((∅ : StateDict ℚ).set "w" (.singleton 2)).set "critic.w" ⟨[2], [3, 4], rfl⟩

/-- One parameter has the name of one of the actor, the name of the other begins with the head of
the actor. -/
def clashingCritic : StateDict ℚ :=
  ((∅ : StateDict ℚ).set "w" (.singleton 5)).set "actor.w" (.singleton 6)

/-- The weights that they started from. -/
def clashingBase : Weights ℚ :=
  (serializeWeights clashingActor clashingCritic).mapValues fun _ a => a.map (· + 1)

lemma sameShapes_clashingBase :
    SameShapes clashingBase (serializeWeights clashingActor clashingCritic) := by
  intro name
  rw [clashingBase, Dict.get?_mapValues, Option.map_map]
  rfl

end Scenario

open Scenario

theorem weights_roundTrip_clashing :
    (∃ models, deserializeWeights (serializeWeights clashingActor clashingCritic) clashingActor
      clashingCritic = some models) ∧
    ∃ δ, weightDelta clashingBase (serializeWeights clashingActor clashingCritic) = .ok δ ∧
      weightDelta clashingBase δ = .ok (serializeWeights clashingActor clashingCritic) := by
  obtain ⟨-, -, hload, -, -, hdelta⟩ := weights_roundTrip clashingActor clashingCritic
  obtain ⟨δ, hδ, hback, -⟩ := hdelta clashingBase sameShapes_clashingBase
  exact ⟨hload _ _ (.refl _) (.refl _), δ, hδ, hback⟩

end DistributedRL
