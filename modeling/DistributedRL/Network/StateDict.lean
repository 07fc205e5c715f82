import DistributedRL.Server.Average

/-!
# Weights as state dicts

`network/utils.py`: one flat dict carries the state dicts of the actor and of the critic, under
names that begin with `actor.` or `critic.`. The conversion between tensors and arrays of
`comms/serialization.py` is the identity here.
-/

namespace DistributedRL

variable {α : Type*}

/-- The state dict of a network. -/
abbrev StateDict (α : Type*) := Weights α

/-- `k[len(head):]` if `k.startswith(head)` -/
def stripName (head k : String) : Option String :=
  if head.toList <+: k.toList then some (String.ofList (k.toList.drop head.toList.length))
  else none

/-- `serialize_weights` -/
def serializeWeights (actor critic : StateDict α) : Weights α :=
  (Dict.empty.setAll (actor.entries.map fun p => ("actor." ++ p.1, p.2))).setAll
    (critic.entries.map fun p => ("critic." ++ p.1, p.2))

/-- The comprehensions of `deserialize_weights`: the entries under `head`, without it. -/
def stripped (head : String) (w : Weights α) : StateDict α :=
  Dict.empty.setAll (w.entries.filterMap fun p => (stripName head p.1).map (·, p.2))

/-- `load_state_dict`, which is strict: it raises if a name is missing, unexpected, or has an
array of another shape. -/
def loadStateDict (model sd : StateDict α) : Option (StateDict α) :=
  if (∀ k ∈ sd.keys, k ∈ model.keys) ∧
      ∀ k ∈ model.keys, (sd.get? k).map NDArray.shape = (model.get? k).map NDArray.shape then
    some (model.mapValues fun k v => (sd.get? k).getD v)
  else none

/-- `deserialize_weights`, on the current state dicts of the actor and the critic. -/
def deserializeWeights (w : Weights α) (actor critic : StateDict α) :
    Option (StateDict α × StateDict α) :=
  (loadStateDict actor (stripped "actor." w)).bind fun actor' =>
    (loadStateDict critic (stripped "critic." w)).map fun critic' => (actor', critic')

/-! ### Names -/

lemma stripName_eq_some_iff {head k m : String} : stripName head k = some m ↔ k = head ++ m := by
  rw [stripName, ← String.toList_inj, String.toList_append]
  constructor
  · intro h
    split_ifs at h with hpre
    cases h
    rw [String.toList_ofList]
    exact (List.prefix_iff_eq_append.mp hpre).symm
  · intro h
    rw [if_pos ⟨m.toList, h.symm⟩, h, List.drop_left, String.ofList_toList]

lemma append_injective (head : String) : Function.Injective (head ++ ·) := by
  intro m m' h
  have h' := congrArg String.toList h
  simp only [String.toList_append, List.append_cancel_left_eq] at h'
  exact String.toList_inj.mp h'

lemma actor_append_ne_critic (m m' : String) : "actor." ++ m ≠ "critic." ++ m' := by
  intro h
  have h' := congrArg (fun s => s.toList.head?) h
  simp [String.toList_append] at h'

/-! ### What is under a name -/

lemma get?_stripped (head : String) (w : Weights α) (k : String) :
    (stripped head w).get? k = w.get? (head ++ k) := by
  rw [stripped, Dict.get?_setAll_filterMap (fun _ => stripName_eq_some_iff)]
  · cases w.get? (head ++ k) <;> rfl
  · intro k₁ k₂ m h₁ h₂
    rw [stripName_eq_some_iff.mp h₁, stripName_eq_some_iff.mp h₂]

variable {actor critic actor' critic' : StateDict α} {w : Weights α}

lemma get?_serializeWeights_actor (m : String) :
    (serializeWeights actor critic).get? ("actor." ++ m) = actor.get? m := by
  have hcritic : "actor." ++ m ∉
      (critic.entries.map fun p => ("critic." ++ p.1, p.2)).map Prod.fst := by
    intro h
    simp only [List.map_map, List.mem_map, Function.comp_apply] at h
    obtain ⟨p, -, hp⟩ := h
    exact actor_append_ne_critic m p.1 hp.symm
  rw [serializeWeights, Dict.get?_setAll_of_not_mem hcritic,
    Dict.get?_setAll_map (append_injective _)]
  cases actor.get? m <;> rfl

lemma get?_serializeWeights_critic (m : String) :
    (serializeWeights actor critic).get? ("critic." ++ m) = critic.get? m := by
  rw [serializeWeights, Dict.get?_setAll_map (append_injective _)]
  cases hm : critic.get? m with
  | some v => rfl
  | none =>
    refine Dict.get?_setAll_of_not_mem fun h => ?_
    simp only [List.map_map, List.mem_map, Function.comp_apply] at h
    obtain ⟨p, -, hp⟩ := h
    exact actor_append_ne_critic p.1 m hp

/-! ### Loading -/

lemma loadStateDict_of_sameShapes {model sd : StateDict α} (h : SameShapes sd model) :
    ∃ model', loadStateDict model sd = some model' ∧ SameShapes model' model := by
  have hkeys : ∀ k ∈ sd.keys, k ∈ model.keys := by
    intro k hk
    obtain ⟨v, hv⟩ := Dict.mem_keys_iff.mp hk
    obtain ⟨v', hv', -⟩ := h.symm.get? hv
    exact Dict.mem_keys_iff.mpr ⟨v', hv'⟩
  refine ⟨_, if_pos ⟨hkeys, fun k _ => h k⟩, ?_⟩
  intro k
  rw [Dict.get?_mapValues]
  cases hk : model.get? k with
  | none => rfl
  | some v =>
    obtain ⟨v', hv', hs⟩ := h.get? hk
    simp [hv', hs]

/-- Weights can be loaded into networks that have the names and shapes of their two parts. -/
lemma deserializeWeights_ok (ha : SameShapes (stripped "actor." w) actor)
    (hc : SameShapes (stripped "critic." w) critic) :
    ∃ models, deserializeWeights w actor critic = some models := by
  obtain ⟨a, ha, -⟩ := loadStateDict_of_sameShapes ha
  obtain ⟨c, hc, -⟩ := loadStateDict_of_sameShapes hc
  exact ⟨(a, c), by rw [deserializeWeights, ha, hc]; rfl⟩

/-- Weights with the names and shapes of the networks can be loaded into networks of these
shapes. -/
lemma deserializeWeights_of_sameShapes (h : SameShapes w (serializeWeights actor critic))
    (ha : SameShapes actor' actor) (hc : SameShapes critic' critic) :
    ∃ models, deserializeWeights w actor' critic' = some models := by
  have hactor : SameShapes (stripped "actor." w) actor' := by
    intro k
    rw [get?_stripped, h, get?_serializeWeights_actor, ha]
  have hcritic : SameShapes (stripped "critic." w) critic' := by
    intro k
    rw [get?_stripped, h, get?_serializeWeights_critic, hc]
  exact deserializeWeights_ok hactor hcritic

end DistributedRL
