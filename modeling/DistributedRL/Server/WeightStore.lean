import DistributedRL.Comms.Protocol
import DistributedRL.Data.Dict
import DistributedRL.Data.NDArray

/-!
# The weight store

`server/weight_store.py`: the global weights, the momentum buffers and the step counter. Each
method runs under the store's lock, so it is one function of the state; a method that raises
returns the state it leaves behind next to the exception.
-/

namespace DistributedRL

/-- A named set of arrays: weights, momentum buffers or deltas. -/
abbrev Weights (α : Type*) := Dict String (NDArray α)

/-- The `gradients` value of a push. -/
inductive Payload (α : Type*)
  /-- a dict of arrays -/
  | dict (d : Weights α)
  /-- a dict that also has values that cannot be computed with, such as `None` -/
  | mixed (d : Dict String (Option (NDArray α))) (h : none ∈ d.values)
  /-- any other Python value -/
  | other

/-- `WeightStore`, without its lock. -/
structure WeightStore (α : Type*) where
  weights : Weights α
  momentumBuffers : Weights α
  baseLr : α
  momentum : α
  globalStep : ℕ

variable {α : Type*} [Scalar α]

/-- `WeightStore.__init__` -/
def WeightStore.init (initialWeights : Weights α) (lr momentum : α) : WeightStore α where
  weights := initialWeights
  momentumBuffers := initialWeights.mapValues fun _ v => v.map (· * 0)
  baseLr := lr
  momentum := momentum
  globalStep := 0

/-- `g[name]`, where an array is to be added -/
def Payload.getItem (g : Payload α) (name : String) : Except PyError (NDArray α) :=
  match g with
  | .dict d => (d.get? name).elim (.error .keyError) .ok
  | .mixed d _ => (d.get? name).elim (.error .keyError) fun v => v.elim (.error .typeError) .ok
  | .other => .error .typeError

/-- `g[name].copy()`, an attribute that `None` does not have -/
def Payload.copyItem (g : Payload α) (name : String) : Except PyError (NDArray α) :=
  match g with
  | .dict d => (d.get? name).elim (.error .keyError) .ok
  | .mixed d _ =>
    (d.get? name).elim (.error .keyError) fun v => v.elim (.error .attributeError) .ok
  | .other => .error .typeError

omit [Scalar α] in
lemma Payload.copyItem_eq_ok_iff {g : Payload α} {name : String} {a : NDArray α} :
    g.copyItem name = .ok a ↔ g.getItem name = .ok a := by
  cases g with
  | dict d => rfl
  | mixed d h =>
    simp only [copyItem, getItem]
    cases d.get? name with
    | none => rfl
    | some v => cases v <;> simp
  | other => rfl

/-- `avg_grad += g[name]` -/
def addGrad (name : String) (avg : NDArray α) (g : Payload α) : Except PyError (NDArray α) :=
  match g.getItem name with
  | .error e => .error e
  | .ok a => (avg.inplace (· + ·) a).elim (.error .valueError) .ok

/-- The loop `for g in grads_list[1:]`. -/
def addGrads (name : String) : NDArray α → List (Payload α) → Except PyError (NDArray α)
  | avg, [] => .ok avg
  | avg, g :: gs =>
    match addGrad name avg g with
    | .error e => .error e
    | .ok avg' => addGrads name avg' gs

/-- `avg_grad` for one parameter, divided by the number of deltas. -/
def averageGrad (gradsList : List (Payload α)) (name : String) : Except PyError (NDArray α) :=
  match gradsList with
  | [] => .error .indexError
  | g :: gs =>
    match g.copyItem name with
    | .error e => .error e
    | .ok first =>
      match addGrads name first gs with
      | .error e => .error e
      | .ok avg => .ok (avg.map (· / (gradsList.length : α)))

namespace WeightStore

/-- The body of the loop over the parameters. The momentum buffer is assigned before the weight,
and both stay assigned if something later raises. -/
def applyParam (gradsList : List (Payload α)) (name : String) (st : WeightStore α) :
    WeightStore α × Except PyError Unit :=
  match averageGrad gradsList name with
  | .error e => (st, .error e)
  | .ok avgGrad =>
    match st.momentumBuffers.get? name with
    | none => (st, .error .keyError)
    | some buf =>
      match (buf.map (st.momentum * ·)).binop (· + ·) avgGrad with
      | none => (st, .error .valueError)
      | some v =>
        let st' := { st with momentumBuffers := st.momentumBuffers.set name v }
        match st'.weights.get? name with
        | none => (st', .error .keyError)
        | some w =>
          match w.binop (· - ·) (v.map (st.baseLr * ·)) with
          | none => (st', .error .valueError)
          | some w' => ({ st' with weights := st'.weights.set name w' }, .ok ())

/-- The loop `for name in self.weights`. -/
def applyParams (gradsList : List (Payload α)) : List String → WeightStore α →
    WeightStore α × Except PyError Unit
  | [], st => (st, .ok ())
  | name :: names, st =>
    match applyParam gradsList name st with
    | (st', .ok _) => applyParams gradsList names st'
    | (st', .error e) => (st', .error e)

/-- `WeightStore.apply_gradients` -/
def applyGradients (st : WeightStore α) (gradsList : List (Payload α)) :
    WeightStore α × Except PyError Unit :=
  match applyParams gradsList st.weights.keys st with
  | (st', .ok _) => ({ st' with globalStep := st'.globalStep + 1 }, .ok ())
  | (st', .error e) => (st', .error e)

end WeightStore

/-! ### Checkpoints -/

/-- The dict that `save_checkpoint` writes. -/
structure Checkpoint (α : Type*) where
  weights : Weights α
  momentumBuffers : Weights α
  globalStep : ℕ
  baseLr : α
  momentum : α

/-- A value of `global_step`. -/
inductive StepValue
  /-- a number -/
  | number (q : ℚ)
  /-- a value to which `1` cannot be added, such as `None` -/
  | object

/-- `global_step + 1` -/
def StepValue.succ : StepValue → Except PyError StepValue
  | .number q => .ok (.number (q + 1))
  | .object => .error .typeError

/-- What unpickling a checkpoint file can give: a dict, of which `load_checkpoint` reads three keys,
`none` where the key is missing or its value cannot be copied, or something else. -/
inductive CheckpointObj (α : Type*)
  | dict (weights momentumBuffers : Option (Weights α)) (globalStep : Option StepValue)
  | other

/-- A `WeightStore` after `load_checkpoint`, whose `global_step` is whatever the file had there. -/
structure LoadedStore (α : Type*) where
  weights : Weights α
  momentumBuffers : Weights α
  baseLr : α
  momentum : α
  globalStep : StepValue

/-- The dict written by `save_checkpoint`, as it is read back. -/
def Checkpoint.obj (c : Checkpoint α) : CheckpointObj α :=
  .dict (some c.weights) (some c.momentumBuffers) (some (.number c.globalStep))

namespace WeightStore

/-- The checkpoint of a store. -/
def checkpoint (st : WeightStore α) : Checkpoint α :=
  ⟨st.weights, st.momentumBuffers, st.globalStep, st.baseLr, st.momentum⟩

/-- The store with another `global_step`. -/
def withStep (st : WeightStore α) (k : StepValue) : LoadedStore α :=
  ⟨st.weights, st.momentumBuffers, st.baseLr, st.momentum, k⟩

/-- The store as it is. -/
def loaded (st : WeightStore α) : LoadedStore α := st.withStep (.number st.globalStep)

/-- The assignments of `load_checkpoint`, in order; a missing key stops them with those made so far
in place. -/
def restore (st : WeightStore α) : CheckpointObj α → LoadedStore α × Bool
  | .other => (st.loaded, false)
  | .dict none _ _ => (st.loaded, false)
  | .dict (some w) none _ => ({ st.loaded with weights := w }, false)
  | .dict (some w) (some m) none => ({ st.loaded with weights := w, momentumBuffers := m }, false)
  | .dict (some w) (some m) (some k) =>
    ({ st.loaded with weights := w, momentumBuffers := m, globalStep := k }, true)

/-- `WeightStore.load_checkpoint` on the contents of the file, `none` where there is no file. -/
def loadCheckpoint (loads : List UInt8 → Option (CheckpointObj α)) (file : Option (List UInt8))
    (st : WeightStore α) : LoadedStore α × Bool :=
  match file with
  | none => (st.loaded, false)
  | some bytes =>
    match loads bytes with
    | none => (st.loaded, false)
    | some obj => st.restore obj

end WeightStore

namespace LoadedStore

/-- The store without its step. -/
def arrays (st : LoadedStore α) : WeightStore α :=
  ⟨st.weights, st.momentumBuffers, st.baseLr, st.momentum, 0⟩

/-- The store as one with a natural number as its step, where it has one. -/
def toStore (st : LoadedStore α) : Option (WeightStore α) :=
  match st.globalStep with
  | .number q => if q = q.num.toNat then some { st.arrays with globalStep := q.num.toNat } else none
  | .object => none

/-- `WeightStore.apply_gradients` on such a store. The step comes last, so everything has been
assigned where it raises on the step. -/
def applyGradients (st : LoadedStore α) (gradsList : List (Payload α)) :
    LoadedStore α × Except PyError Unit :=
  match WeightStore.applyParams gradsList st.weights.keys st.arrays with
  | (st', .error e) => (st'.withStep st.globalStep, .error e)
  | (st', .ok _) =>
    match st.globalStep.succ with
    | .error e => (st'.withStep st.globalStep, .error e)
    | .ok k => (st'.withStep k, .ok ())

omit [Scalar α] in
@[simp] lemma toStore_loaded (st : WeightStore α) : st.loaded.toStore = some st := by
  simp [WeightStore.loaded, WeightStore.withStep, toStore, arrays]

omit [Scalar α] in
lemma eq_loaded_of_toStore {st : LoadedStore α} {st' : WeightStore α}
    (h : st.toStore = some st') : st = st'.loaded := by
  obtain ⟨w, m, lr, mom, q | _⟩ := st
  · simp only [toStore] at h
    split_ifs at h with hq
    cases h
    simp only [WeightStore.loaded, WeightStore.withStep, arrays]
    rw [← hq]
  · cases h

end LoadedStore

end DistributedRL
