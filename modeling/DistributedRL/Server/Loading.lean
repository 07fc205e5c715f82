import DistributedRL.Server.Checkpoint

/-!
# Failed loads

`load_checkpoint` assigns the weights before it looks at the other keys of the file, and the blanket
`except` makes a `False` of whatever goes wrong from there on. A file that has the weights and lacks
another key leaves its weights in the store, and the server trains on as after a load that has not
happened.
-/

namespace DistributedRL

variable {α : Type*} {loads : List UInt8 → Option (CheckpointObj α)} {file : Option (List UInt8)}
  {st : WeightStore α}

namespace WeightStore

/-- A load that fails leaves the store as it was, and one that succeeds takes weights, momentum
buffers and step from the file. -/
structure LoadsWhole (loads : List UInt8 → Option (CheckpointObj α)) (file : Option (List UInt8))
    (st : WeightStore α) : Prop where
  failed : (st.loadCheckpoint loads file).2 = false → (st.loadCheckpoint loads file).1 = st.loaded
  loaded : (st.loadCheckpoint loads file).2 = true → ∃ bytes w m k, file = some bytes ∧
    loads bytes = some (.dict (some w) (some m) (some k)) ∧ (st.loadCheckpoint loads file).1 =
      { st.loaded with weights := w, momentumBuffers := m, globalStep := k }

/-- The assignments of a load that breaks off change nothing: what the file has in front of the
first key that it lacks is in the store already. -/
def BreaksOffStill (obj : CheckpointObj α) (st : WeightStore α) : Prop :=
  match obj with
  | .dict (some w) none _ => w = st.weights
  | .dict (some w) (some m) none => w = st.weights ∧ m = st.momentumBuffers
  | _ => True

/-- A load succeeds on any dict with the three keys, whatever arrays are in it. -/
lemma loadCheckpoint_eq_true_iff :
    (st.loadCheckpoint loads file).2 = true ↔ ∃ bytes w m k, file = some bytes ∧
      loads bytes = some (.dict (some w) (some m) (some k)) := by
  constructor
  · intro h
    cases file with
    | none => cases h
    | some bytes =>
      simp only [loadCheckpoint] at h
      cases hobj : loads bytes with
      | none => simp [hobj] at h
      | some obj =>
        rw [hobj] at h
        obtain ⟨_ | w, _ | m, _ | k⟩ | _ := obj <;> simp [restore] at h
        exact ⟨bytes, w, m, k, rfl, hobj⟩
  · rintro ⟨bytes, w, m, k, rfl, hobj⟩
    simp only [loadCheckpoint, hobj, restore]

lemma weights_eq_self_iff {w : Weights α} :
    { st.loaded with weights := w } = st.loaded ↔ w = st.weights := by
  constructor
  · intro h
    exact congrArg LoadedStore.weights h
  · rintro rfl
    rfl

lemma arrays_eq_self_iff {w m : Weights α} :
    { st.loaded with weights := w, momentumBuffers := m } = st.loaded ↔
      w = st.weights ∧ m = st.momentumBuffers := by
  constructor
  · intro h
    exact ⟨congrArg LoadedStore.weights h, congrArg LoadedStore.momentumBuffers h⟩
  · rintro ⟨rfl, rfl⟩
    rfl

/-- The only loads that fail and assign something are those that break off. -/
lemma restore_failed_iff {obj : CheckpointObj α} :
    ((st.restore obj).2 = false → (st.restore obj).1 = st.loaded) ↔ BreaksOffStill obj st := by
  match obj with
  | .other => simp [restore, BreaksOffStill]
  | .dict none m k => simp [restore, BreaksOffStill]
  | .dict (some w) none k =>
    simp only [restore, BreaksOffStill, true_implies]
    exact weights_eq_self_iff
  | .dict (some w) (some m) none =>
    simp only [restore, BreaksOffStill, true_implies]
    exact arrays_eq_self_iff
  | .dict (some w) (some m) (some k) => simp [restore, BreaksOffStill]

/-- A load is all or nothing exactly when the file cannot be read as a dict, or has no weights, or
has all three keys, or what it assigns before it breaks off is there already. -/
theorem loadsWhole_iff (loads : List UInt8 → Option (CheckpointObj α))
    (file : Option (List UInt8)) (st : WeightStore α) :
    LoadsWhole loads file st ↔
      ∀ bytes obj, file = some bytes → loads bytes = some obj → BreaksOffStill obj st := by
  constructor
  · rintro ⟨hfailed, -⟩ bytes obj rfl hobj
    simp only [loadCheckpoint, hobj] at hfailed
    exact restore_failed_iff.mp hfailed
  · intro h
    constructor
    · cases file with
      | none =>
        intro _
        rfl
      | some bytes =>
        simp only [loadCheckpoint]
        cases hobj : loads bytes with
        | none =>
          intro _
          rfl
        | some obj => exact restore_failed_iff.mpr (h bytes obj rfl hobj)
    · intro hok
      obtain ⟨bytes, w, m, k, rfl, hobj⟩ := loadCheckpoint_eq_true_iff.mp hok
      exact ⟨bytes, w, m, k, rfl, hobj, by simp only [loadCheckpoint, hobj, restore]⟩

/-- The pickles of dicts that have the key `weights` alone. -/
private def loadsWeights (bytes : List UInt8) : Option (CheckpointObj ℚ) :=
  ((PrefixCode.dict PrefixCode.string (PrefixCode.ndarray PrefixCode.rat)).decodeAll bytes).map
    fun w => .dict (some w) none none

/-- A file with trained weights and nothing else: the load fails, and the weights are in the store.
-/
theorem failed_load_assigns :
    ∃ file, (loadCheckpoint loadsWeights file (oneParam 0 0)).2 = false ∧
      (loadCheckpoint loadsWeights file (oneParam 0 0)).1.weights = (oneParam 7 0).weights ∧
      ¬ LoadsWhole loadsWeights file (oneParam 0 0) := by
  have hload : loadsWeights ((PrefixCode.dict PrefixCode.string
      (PrefixCode.ndarray PrefixCode.rat)).encode (oneParam 7 0).weights) =
      some (.dict (some (oneParam 7 0).weights) none none) := by
    rw [loadsWeights, PrefixCode.decodeAll_encode, Option.map_some]
  refine ⟨some ((PrefixCode.dict PrefixCode.string
    (PrefixCode.ndarray PrefixCode.rat)).encode (oneParam 7 0).weights), ?_, ?_, ?_⟩
  · simp only [loadCheckpoint, hload, restore]
  · simp only [loadCheckpoint, hload, restore]
  · intro h
    have hne : (oneParam 7 0).weights ≠ (oneParam 0 0).weights := by decide
    exact hne ((loadsWhole_iff _ _ _).mp h _ _ rfl hload)

end WeightStore

end DistributedRL
