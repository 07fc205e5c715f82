import DistributedRL.Data.PrefixCode
import DistributedRL.Server.WeightStore

/-!
# Crashes while a checkpoint is written

`save_checkpoint` opens `latest.pkl` with mode `"wb"`, which truncates it, and then pickles into
it. A save that stops in between leaves a strict prefix of the new pickle and nothing of the old
one.
-/

namespace DistributedRL

variable {α : Type*}

/-! ### The file -/

/-- One step on the file: `open(path, "wb")`, or a write by `pickle.dump`. -/
inductive FileOp
  | truncate
  | append (bytes : List UInt8)

/-- The contents after a step, `none` standing for a file that does not exist. -/
def FileOp.apply (file : Option (List UInt8)) : FileOp → Option (List UInt8)
  | .truncate => some []
  | .append bytes => file.map (· ++ bytes)

/-- `pickle.dump` as the writes it makes, and `pickle.load`. -/
structure PickleFile (α : Type*) where
  writes : Checkpoint α → List (List UInt8)
  loads : List UInt8 → Option (CheckpointObj α)

variable (pf : PickleFile α)

/-- All the bytes that `pickle.dump` writes. -/
def PickleFile.dumps (c : Checkpoint α) : List UInt8 := (pf.writes c).flatten

/-- What `pickle` documents: a dump loads as the dict dumped, and a strict prefix of it does not
load. -/
structure PickleFile.Lawful : Prop where
  loads_dumps : ∀ c, pf.loads (pf.dumps c) = some c.obj
  loads_cut : ∀ c pre rest, pre ++ rest = pf.dumps c → rest ≠ [] → pf.loads pre = none

/-- The file operations of `WeightStore.save_checkpoint`, in order. -/
def saveCheckpoint (st : WeightStore α) : List FileOp :=
  .truncate :: (pf.writes st.checkpoint).map .append

/-- The file after the complete saves of `saved`. -/
def afterSaves (saved : List (WeightStore α)) : Option (List UInt8) :=
  (saved.flatMap (saveCheckpoint pf)).foldl FileOp.apply none

/-- The file after the complete saves of `saved` and the first `k` steps of one more. -/
def afterCrash (saved : List (WeightStore α)) (new : WeightStore α) (k : ℕ) :
    Option (List UInt8) :=
  ((saveCheckpoint pf new).take k).foldl FileOp.apply (afterSaves pf saved)

/-- `fresh` with the versioned part of `st`: what a load of `st`'s checkpoint gives. -/
def WeightStore.resume (fresh st : WeightStore α) : WeightStore α :=
  { fresh with
    weights := st.weights, momentumBuffers := st.momentumBuffers, globalStep := st.globalStep }

/-- After a crash the load gives the last complete save, or what it gave without any, or the new
state. -/
def CrashConsistent (saved : List (WeightStore α)) (new : WeightStore α) (k : ℕ)
    (fresh : WeightStore α) : Prop :=
  let loaded := fresh.loadCheckpoint pf.loads (afterCrash pf saved new k)
  loaded = (saved.getLast?.elim (fresh.loaded, false) fun last =>
    ((fresh.resume last).loaded, true)) ∨ loaded = ((fresh.resume new).loaded, true)

/-! ### What the file holds -/

lemma foldl_append (bs : List UInt8) (ws : List (List UInt8)) :
    (ws.map FileOp.append).foldl FileOp.apply (some bs) = some (bs ++ ws.flatten) := by
  induction ws generalizing bs with
  | nil => simp
  | cons w ws ih => simp [FileOp.apply, ih, List.append_assoc]

/-- Opening the file has thrown the old contents away, whatever they were. -/
lemma foldl_saveCheckpoint_take (file : Option (List UInt8)) (st : WeightStore α) (k : ℕ) :
    ((saveCheckpoint pf st).take (k + 1)).foldl FileOp.apply file =
      some ((pf.writes st.checkpoint).take k).flatten := by
  rw [saveCheckpoint, List.take_succ_cons, List.foldl_cons, ← List.map_take]
  simpa [FileOp.apply] using foldl_append [] ((pf.writes st.checkpoint).take k)

lemma foldl_saveCheckpoint (file : Option (List UInt8)) (st : WeightStore α) :
    (saveCheckpoint pf st).foldl FileOp.apply file = some (pf.dumps st.checkpoint) := by
  have h := foldl_saveCheckpoint_take pf file st (pf.writes st.checkpoint).length
  rw [List.take_of_length_le (by simp [saveCheckpoint]), List.take_length] at h
  exact h

/-- Between saves the file is the dump of the last one. -/
lemma afterSaves_eq (saved : List (WeightStore α)) :
    afterSaves pf saved = saved.getLast?.map fun last => pf.dumps last.checkpoint := by
  rcases List.eq_nil_or_concat saved with rfl | ⟨init, last, rfl⟩
  · rfl
  · rw [List.concat_eq_append, afterSaves, List.flatMap_append, List.foldl_append]
    simp [foldl_saveCheckpoint]

variable {pf}

/-- A complete checkpoint loads, whatever shapes it holds. -/
lemma loadCheckpoint_dumps (hp : pf.Lawful) (fresh st : WeightStore α) :
    fresh.loadCheckpoint pf.loads (some (pf.dumps st.checkpoint)) =
      ((fresh.resume st).loaded, true) := by
  simp only [WeightStore.loadCheckpoint, hp.loads_dumps]
  rfl

/-- A truncated checkpoint is reported as a failed load, and training starts from `fresh`. -/
lemma loadCheckpoint_cut (hp : pf.Lawful) (fresh st : WeightStore α) {pre rest : List UInt8}
    (h : pre ++ rest = pf.dumps st.checkpoint) (hne : rest ≠ []) :
    fresh.loadCheckpoint pf.loads (some pre) = (fresh.loaded, false) := by
  simp only [WeightStore.loadCheckpoint, hp.loads_cut _ _ _ h hne]

/-! ### Crash consistency -/

/-- A save that stops after `k` steps loses nothing exactly when it had not yet opened the file,
or all its bytes were already written, or there was nothing to lose. -/
theorem crashConsistent_iff (hp : pf.Lawful) (saved : List (WeightStore α)) (new : WeightStore α)
    (k : ℕ) (fresh : WeightStore α) :
    CrashConsistent pf saved new k fresh ↔
      k = 0 ∨ ((pf.writes new.checkpoint).drop (k - 1)).flatten = [] ∨ saved = [] := by
  rcases k with _ | k
  · -- the file is the one the last save left
    refine iff_of_true (Or.inl ?_) (Or.inl rfl)
    rw [afterCrash, List.take_zero, List.foldl_nil, afterSaves_eq]
    cases saved.getLast? with
    | none => rfl
    | some last => exact loadCheckpoint_dumps hp fresh last
  · have hfile : afterCrash pf saved new (k + 1) =
        some ((pf.writes new.checkpoint).take k).flatten := foldl_saveCheckpoint_take pf _ new k
    have hsplit : ((pf.writes new.checkpoint).take k).flatten ++
        ((pf.writes new.checkpoint).drop k).flatten = pf.dumps new.checkpoint := by
      rw [← List.flatten_append, List.take_append_drop]
      rfl
    simp only [CrashConsistent, hfile, Nat.add_sub_cancel, Nat.succ_ne_zero, false_or]
    by_cases hrest : ((pf.writes new.checkpoint).drop k).flatten = []
    · rw [hrest, List.append_nil] at hsplit
      refine iff_of_true (Or.inr ?_) (Or.inl hrest)
      rw [hsplit]
      exact loadCheckpoint_dumps hp fresh new
    · rw [loadCheckpoint_cut hp fresh new hsplit hrest]
      rcases List.eq_nil_or_concat saved with rfl | ⟨init, last, rfl⟩
      · simp
      · simp [hrest]

/-! ### A concrete file format -/

/-- Checkpoints over the rationals, component by component. -/
def PrefixCode.checkpoint : PrefixCode (Checkpoint ℚ) :=
  ((dict string (ndarray rat)).prod ((dict string (ndarray rat)).prod
    (nat.prod (rat.prod rat)))).comap
    (fun c => (c.weights, c.momentumBuffers, c.globalStep, c.baseLr, c.momentum))
    (fun p => some ⟨p.1, p.2.1, p.2.2.1, p.2.2.2.1, p.2.2.2.2⟩)
    (fun _ => rfl) (fun _ _ h => by cases h; rfl)

/-- A pickler that writes its bytes one at a time. -/
def bytewise : PickleFile ℚ where
  writes c := (PrefixCode.checkpoint.encode c).map fun b => [b]
  loads bytes := (PrefixCode.checkpoint.decodeAll bytes).map Checkpoint.obj

lemma bytewise_dumps (c : Checkpoint ℚ) : bytewise.dumps c = PrefixCode.checkpoint.encode c := by
  simp [PickleFile.dumps, bytewise, ← List.flatMap_def]

lemma bytewise_lawful : bytewise.Lawful where
  loads_dumps c := by
    rw [bytewise_dumps]
    simp [bytewise, PrefixCode.decodeAll_encode]
  loads_cut c pre rest h hne := by
    rw [bytewise_dumps] at h
    simp [bytewise, PrefixCode.decodeAll_cut _ h hne]

/-- A store with the single parameter `w`. -/
def oneParam (w : ℚ) (step : ℕ) : WeightStore ℚ where
  weights := (∅ : Weights ℚ).set "w" (.singleton w)
  momentumBuffers := (∅ : Weights ℚ).set "w" (.singleton 0)
  baseLr := 1
  momentum := 0
  globalStep := step

/-- Stopped right after `open`, the second save has destroyed the first. -/
theorem checkpoint_lost_at_open : bytewise.Lawful ∧
    ¬ CrashConsistent bytewise [oneParam 1 10] (oneParam 2 20) 1 (oneParam 0 0) := by
  refine ⟨bytewise_lawful, ?_⟩
  have hfile : afterCrash bytewise [oneParam 1 10] (oneParam 2 20) 1 = some [] :=
    foldl_saveCheckpoint_take bytewise _ (oneParam 2 20) 0
  have hload : bytewise.loads [] = none := by decide
  simp [CrashConsistent, hfile, WeightStore.loadCheckpoint, hload]

/-- Stopped before `open`, or with every byte written, it loses nothing. -/
theorem crashConsistent_oneParam :
    CrashConsistent bytewise [oneParam 1 10] (oneParam 2 20) 0 (oneParam 0 0) ∧
      ¬ CrashConsistent bytewise [oneParam 1 10] (oneParam 2 20) 2 (oneParam 0 0) := by
  refine ⟨(crashConsistent_iff bytewise_lawful _ _ _ _).mpr (Or.inl rfl), ?_⟩
  intro h
  rcases (crashConsistent_iff bytewise_lawful _ _ _ _).mp h with h | h | h
  · cases h
  · exact absurd h (by decide)
  · cases h

end DistributedRL
