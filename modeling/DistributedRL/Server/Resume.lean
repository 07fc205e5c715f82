import DistributedRL.Server.AllOrNothing
import DistributedRL.Server.Checkpoint
import DistributedRL.Server.Rules

/-!
# Saving and resuming

What a round reads and writes outside the barrier is the store, `last_checkpoint_step` and the
checkpoint file. Two servers that agree on the store, and on `last_checkpoint_step`, agree on both
after every round, and write the same checkpoints. A server resumed from a checkpoint agrees with
the one that wrote it on the store, and on `last_checkpoint_step` if it was `_maybe_checkpoint` that
wrote it.
-/

namespace DistributedRL

variable {α : Type*}

/-! ### The update path -/

/-- The store, the aggregator on it, and the checkpoints written, newest first. -/
structure UpdatePath (α : Type*) where
  store : WeightStore α
  agg : GradientAggregator α
  checkpoints : List (Checkpoint α)

/-- The part of the server that the update path consists of. -/
def System.updatePath (s : System α) : UpdatePath α := ⟨s.store, s.agg, s.checkpoints⟩

namespace UpdatePath

/-- A store with a new aggregator on it, as in `server_main`. -/
def start (store : WeightStore α) : UpdatePath α := ⟨store, .init store.globalStep, []⟩

/-- `self.last_checkpoint_step = step` -/
def mark (p : UpdatePath α) (step : ℕ) : UpdatePath α :=
  { p with agg := { p.agg with lastCheckpointStep := step } }

/-- `self.weight_store.save_checkpoint(...)` -/
def save (p : UpdatePath α) : UpdatePath α :=
  { p with checkpoints := p.store.checkpoint :: p.checkpoints }

/-- `GradientAggregator._maybe_checkpoint` -/
def maybeCheckpoint (config : Option AggregatorConfig) (p : UpdatePath α) (step : ℕ) :
    UpdatePath α :=
  if p.agg.CheckpointDue config step then (p.mark step).save else p

/-- The file `latest.pkl`, unless a save is under way. -/
def latest (pf : PickleFile α) (p : UpdatePath α) : Option (List UInt8) :=
  p.checkpoints.head?.map pf.dumps

/-- The file after the first `i` steps on it of the save that comes next. -/
def cutOff (pf : PickleFile α) (p : UpdatePath α) (i : ℕ) : Option (List UInt8) :=
  ((saveCheckpoint pf p.store).take i).foldl FileOp.apply (p.latest pf)

variable [Scalar α]

/-- The end of `submit`, without the ACKs and the metrics: `apply_gradients`, `get_step` and
`_maybe_checkpoint`. A call that raises ends it. -/
def round (config : Option AggregatorConfig) (p : UpdatePath α) (grads : List (Payload α)) :
    UpdatePath α :=
  match p.store.applyGradients grads with
  | (st, .ok _) => maybeCheckpoint config { p with store := st } st.globalStep
  | (st, .error _) => { p with store := st }

/-- One round after the other. -/
def rounds (config : Option AggregatorConfig) (p : UpdatePath α)
    (gs : List (List (Payload α))) : UpdatePath α :=
  gs.foldl (round config) p

/-- `server_main` with `config.load_checkpoint` set, on a file whose step is a natural number. -/
def resume (pf : PickleFile α) (initial : Weights α) (lr momentum : α)
    (file : Option (List UInt8)) : Option (UpdatePath α) :=
  ((WeightStore.init initial lr momentum).loadCheckpoint pf.loads file).1.toStore.map start

/-- The round of `grads` is applied, and `_maybe_checkpoint` saves after it. -/
def Saves (config : Option AggregatorConfig) (p : UpdatePath α) (grads : List (Payload α)) :
    Prop :=
  (p.store.applyGradients grads).2 = .ok () ∧
    p.agg.CheckpointDue config (p.store.applyGradients grads).1.globalStep

end UpdatePath

/-! ### The steps of the server -/

section Rules

variable [Scalar α] {env : ServerEnv α} {s s' : System α} {a : Action α}

/-- The server changes the store, `last_checkpoint_step` and the checkpoints where a thread applies
a round, and in the two steps of `_maybe_checkpoint`. -/
lemma Rule.updatePath (hr : Rule env s a s') :
    (s'.store = s.store ∧ s'.agg.lastCheckpointStep = s.agg.lastCheckpointStep ∧
      s'.checkpoints = s.checkpoints) ∨
      (∃ c r, (s.conns c).handler = .apply r ∧ s'.updatePath = { s.updatePath with
        store := (s.store.applyGradients (r.deltas.map Delta.grads)).1 }) ∨
      (∃ c step, (s.conns c).handler = .checkpointAssign step ∧
        s'.updatePath = s.updatePath.mark step) ∨
      ∃ c, (s.conns c).handler = .checkpointSave ∧ s'.updatePath = s.updatePath.save := by
  cases hr
  case applied c now r st h ha => exact Or.inr (Or.inl ⟨c, r, h, by rw [ha]; rfl⟩)
  case applyRaised c now r st e h ha => exact Or.inr (Or.inl ⟨c, r, h, by rw [ha]; rfl⟩)
  case checkpointAssign c now step h => exact Or.inr (Or.inr (Or.inl ⟨c, step, h, rfl⟩))
  case checkpointSave c now h => exact Or.inr (Or.inr (Or.inr ⟨c, h, rfl⟩))
  all_goals exact Or.inl ⟨rfl, rfl, rfl⟩

end Rules

/-! ### Agreement -/

namespace WeightStore

variable [Scalar α] {st : WeightStore α} {grads : List (Payload α)}

lemma baseLr_applyGradients (st : WeightStore α) (grads : List (Payload α)) :
    (st.applyGradients grads).1.baseLr = st.baseLr ∧
      (st.applyGradients grads).1.momentum = st.momentum := by
  have hsame := sameExcept_loop st grads
  simp only [applyGradients]
  split
  · next st' _ he => rw [he] at hsame; exact ⟨hsame.baseLr, hsame.momentum⟩
  · next st' e he => rw [he] at hsame; exact ⟨hsame.baseLr, hsame.momentum⟩

omit [Scalar α] in
/-- A fresh store with the same settings becomes the saved store. -/
lemma loadCheckpoint_saved {pf : PickleFile α} (hp : pf.Lawful) {fresh : WeightStore α}
    (hlr : fresh.baseLr = st.baseLr) (hm : fresh.momentum = st.momentum)
    (file : Option (List UInt8)) :
    fresh.loadCheckpoint pf.loads ((saveCheckpoint pf st).foldl FileOp.apply file) =
      (st.loaded, true) := by
  rw [foldl_saveCheckpoint, loadCheckpoint_dumps hp]
  simp only [resume, hlr, hm]

end WeightStore

namespace UpdatePath

variable {config : Option AggregatorConfig} {p q : UpdatePath α} {earlier : List (Checkpoint α)}

/-- A file that a save has left unfinished is no use to the next server. -/
lemma resume_cutOff [Scalar α] {pf : PickleFile α} (hp : pf.Lawful) (p : UpdatePath α) {i : ℕ}
    (hi : 0 < i) (hrest : ((pf.writes p.store.checkpoint).drop (i - 1)).flatten ≠ [])
    (initial : Weights α) (lr momentum : α) :
    resume pf initial lr momentum (p.cutOff pf i) = some (start (.init initial lr momentum)) := by
  obtain ⟨i, rfl⟩ := Nat.exists_eq_succ_of_ne_zero hi.ne'
  have hsplit : ((pf.writes p.store.checkpoint).take i).flatten ++
      ((pf.writes p.store.checkpoint).drop i).flatten = pf.dumps p.store.checkpoint := by
    rw [← List.flatten_append, List.take_append_drop]
    rfl
  rw [resume, cutOff, foldl_saveCheckpoint_take, loadCheckpoint_cut hp _ _ hsplit hrest,
    LoadedStore.toStore_loaded, Option.map_some]

/-- Both servers are in the same state, but for the checkpoints that the first one has written
before the second one started. -/
structure Agree (earlier : List (Checkpoint α)) (p q : UpdatePath α) : Prop where
  store : p.store = q.store
  last : p.agg.lastCheckpointStep = q.agg.lastCheckpointStep
  checkpoints : p.checkpoints = q.checkpoints ++ earlier

lemma due_congr (h : p.agg.lastCheckpointStep = q.agg.lastCheckpointStep) (step : ℕ) :
    p.agg.CheckpointDue config step ↔ q.agg.CheckpointDue config step := by
  simp only [GradientAggregator.CheckpointDue, h]

lemma Agree.maybeCheckpoint (h : Agree earlier p q) (step : ℕ) :
    Agree earlier (p.maybeCheckpoint config step) (q.maybeCheckpoint config step) := by
  simp only [UpdatePath.maybeCheckpoint, due_congr h.last]
  split_ifs
  · refine ⟨h.store, rfl, ?_⟩
    simp only [save, mark, h.store, h.checkpoints, List.cons_append]
  · exact h

variable [Scalar α]

lemma Agree.round (h : Agree earlier p q) (grads : List (Payload α)) :
    Agree earlier (p.round config grads) (q.round config grads) := by
  simp only [UpdatePath.round, h.store]
  split
  · next st _ _ =>
    have hst : Agree earlier { p with store := st } { q with store := st } :=
      ⟨rfl, h.last, h.checkpoints⟩
    exact hst.maybeCheckpoint _
  · next st e _ => exact ⟨rfl, h.last, h.checkpoints⟩

lemma Agree.rounds (h : Agree earlier p q) (gs : List (List (Payload α))) :
    Agree earlier (p.rounds config gs) (q.rounds config gs) := by
  induction gs generalizing p q with
  | nil => exact h
  | cons g gs ih => exact ih (h.round g)

lemma store_round (p : UpdatePath α) (grads : List (Payload α)) :
    (p.round config grads).store = (p.store.applyGradients grads).1 := by
  simp only [UpdatePath.round]
  split
  · next st _ he =>
    rw [he, UpdatePath.maybeCheckpoint]
    split_ifs <;> rfl
  · next st e he => rw [he]

lemma settings_round {lr momentum : α} (h : p.store.baseLr = lr ∧ p.store.momentum = momentum)
    (grads : List (Payload α)) : (p.round config grads).store.baseLr = lr ∧
      (p.round config grads).store.momentum = momentum := by
  obtain ⟨hlr, hm⟩ := p.store.baseLr_applyGradients grads
  rw [store_round, hlr, hm]
  exact h

lemma settings_rounds {lr momentum : α} (h : p.store.baseLr = lr ∧ p.store.momentum = momentum)
    (gs : List (List (Payload α))) : (p.rounds config gs).store.baseLr = lr ∧
      (p.rounds config gs).store.momentum = momentum := by
  induction gs generalizing p with
  | nil => exact h
  | cons g gs ih => exact ih (settings_round h g)

/-- After a round that has saved, the file is the checkpoint of the store. -/
lemma saves_round {grads : List (Payload α)} (h : p.Saves config grads) :
    (p.round config grads).checkpoints.head? = some (p.round config grads).store.checkpoint ∧
      (p.round config grads).agg.lastCheckpointStep = (p.round config grads).store.globalStep := by
  obtain ⟨hok, hdue⟩ := h
  simp only [UpdatePath.round]
  split
  · next st _ he =>
    rw [he] at hdue
    rw [UpdatePath.maybeCheckpoint, if_pos hdue]
    exact ⟨rfl, rfl⟩
  · next st e he =>
    rw [he] at hok
    cases hok

/-- The store does not depend on when checkpoints are written. -/
lemma store_rounds (h : p.store = q.store) (gs : List (List (Payload α))) :
    (p.rounds config gs).store = (q.rounds config gs).store := by
  induction gs generalizing p q with
  | nil => exact h
  | cons g gs ih => exact ih (by rw [store_round, store_round, h])

end UpdatePath

/-! ### Resumed servers -/

open UpdatePath in
/-- A server resumed from a saved checkpoint with the same settings goes through the same stores as
the one that saved it, and if the last round saved it, it writes the same checkpoints from there
on. The fresh weights the resumed server starts from do not matter, nor what the file held. -/
theorem resume_transparent [Scalar α] {pf : PickleFile α} (hp : pf.Lawful)
    (config : Option AggregatorConfig) (initial fresh : Weights α) (lr momentum : α)
    (gs hs : List (List (Payload α))) (file : Option (List UInt8)) :
    let p := (start (.init initial lr momentum)).rounds config gs
    ∃ q, resume pf fresh lr momentum ((saveCheckpoint pf p.store).foldl FileOp.apply file) =
        some q ∧
      (q.rounds config hs).store = (p.rounds config hs).store ∧
      ∀ gs' g, gs = gs' ++ [g] → ((start (.init initial lr momentum)).rounds config gs').Saves
        config g → p.latest pf = (saveCheckpoint pf p.store).foldl FileOp.apply file ∧
          (p.rounds config hs).checkpoints = (q.rounds config hs).checkpoints ++ p.checkpoints := by
  intro p
  have hset : ∀ gs, ((start (.init initial lr momentum)).rounds config gs).store.baseLr = lr ∧
      ((start (.init initial lr momentum)).rounds config gs).store.momentum = momentum := by
    intro gs
    exact settings_rounds ⟨rfl, rfl⟩ gs
  have hload : (WeightStore.init fresh lr momentum).loadCheckpoint pf.loads
      ((saveCheckpoint pf p.store).foldl FileOp.apply file) = (p.store.loaded, true) :=
    WeightStore.loadCheckpoint_saved hp (hset gs).1.symm (hset gs).2.symm file
  refine ⟨start p.store, ?_, store_rounds (p := start p.store) (q := p) rfl hs, ?_⟩
  · rw [resume, hload, LoadedStore.toStore_loaded, Option.map_some]
  rintro gs' g rfl hsaves
  obtain ⟨hcp, hlast⟩ : p.checkpoints.head? = some p.store.checkpoint ∧
      p.agg.lastCheckpointStep = p.store.globalStep := by
    have hp : p = ((start (.init initial lr momentum)).rounds config gs').round config g := by
      simp only [p, rounds, List.foldl_append, List.foldl_cons, List.foldl_nil]
    rw [hp]
    exact saves_round hsaves
  refine ⟨by rw [latest, hcp, foldl_saveCheckpoint, Option.map_some], ?_⟩
  have hagree : Agree p.checkpoints p (start p.store) := ⟨rfl, hlast, rfl⟩
  exact (hagree.rounds hs).checkpoints

/-- A round of one delta, for the parameter `w`. -/
private def unitRound : List (Payload ℚ) := [.dict (Dict.empty.set "w" (.singleton 1))]

open UpdatePath in
/-- A server that saves after every round, stopped after the first one and resumed from other fresh
weights. -/
theorem resume_transparent_everyStep :
    let p := (start (.init (oneParam 3 0).weights 1 (1 / 2))).rounds (some ⟨0, 1⟩) [unitRound]
    ∃ q, resume bytewise (oneParam 5 0).weights 1 (1 / 2) (p.latest bytewise) = some q ∧
      (q.rounds (some ⟨0, 1⟩) [unitRound]).store = (p.rounds (some ⟨0, 1⟩) [unitRound]).store ∧
      (p.rounds (some ⟨0, 1⟩) [unitRound]).checkpoints =
        (q.rounds (some ⟨0, 1⟩) [unitRound]).checkpoints ++ p.checkpoints ∧
      (q.rounds (some ⟨0, 1⟩) [unitRound]).store.globalStep = 2 := by
  intro p
  obtain ⟨q, hq, hstore, hsaves⟩ := resume_transparent bytewise_lawful (some ⟨0, 1⟩)
    (oneParam 3 0).weights (oneParam 5 0).weights 1 (1 / 2) [unitRound] [unitRound] none
  have hdue : (start (.init (oneParam 3 0).weights 1 (1 / 2))).Saves (some ⟨0, 1⟩) unitRound := by
    constructor <;> decide +kernel
  obtain ⟨hfile, hcp⟩ := hsaves [] unitRound rfl hdue
  rw [← hfile] at hq
  refine ⟨q, hq, hstore, hcp, ?_⟩
  rw [hstore]
  decide +kernel

end DistributedRL
