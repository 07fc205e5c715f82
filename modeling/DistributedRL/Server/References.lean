import DistributedRL.Server.Average
import Mathlib.Data.List.GetD

/-!
# `apply_gradients` on references

The store as Python has it: its dicts hold references to arrays. `copy` and the operators allocate,
`+=` and `/=` write in place. What was there before the call is left alone, and the values that the
store refers to are those of the store without references.
-/

namespace DistributedRL

variable {α : Type*}

/-- A reference to an array. -/
abbrev Ref := ℕ

/-- The arrays, in the order in which they have been allocated. -/
abbrev Heap (α : Type*) := List (NDArray α)

/-- A named set of references. -/
abbrev Refs := Dict String Ref

namespace Heap

/-- The array that is referred to. -/
def read (h : Heap α) (r : Ref) : NDArray α := h.getD r ⟨[0], [], rfl⟩

/-- Write an array in place. -/
def write (h : Heap α) (r : Ref) (a : NDArray α) : Heap α := h.set r a

/-- Allocate an array. -/
def alloc (h : Heap α) (a : NDArray α) : Ref × Heap α := (h.length, h ++ [a])

/-- The values of a named set of references. -/
def load (h : Heap α) (d : Refs) : Weights α := d.mapValues fun _ r => h.read r

/-- Every reference is allocated. -/
def Holds (h : Heap α) (d : Refs) : Prop := ∀ name r, d.get? name = some r → r < h.length

/-- `{k: f(v) for k, v in d.items()}`, each value a new array. -/
def allocAll (f : NDArray α → NDArray α) (d : Refs) (h : Heap α) : Refs × Heap α :=
  (⟨d.entries.mapIdx fun i p => (p.1, h.length + i), by
    have hkeys : (d.entries.mapIdx fun i p => (p.1, h.length + i)).map Prod.fst =
        d.entries.map Prod.fst := List.ext_getElem (by simp) (by simp)
    rw [hkeys]
    exact d.nodup⟩,
    h ++ d.entries.map fun p => f (h.read p.2))

end Heap

/-- The `gradients` value of a push: a dict of references, or some other Python value. -/
inductive RefPayload
  | dict (d : Refs)
  | other

/-- `WeightStore`, without its lock. -/
structure RefStore (α : Type*) where
  weights : Refs
  momentumBuffers : Refs
  baseLr : α
  momentum : α
  globalStep : ℕ

/-- `g[name]` -/
def RefPayload.getItem (g : RefPayload) (name : String) : Except PyError Ref :=
  match g with
  | .dict d => (d.get? name).elim (.error .keyError) .ok
  | .other => .error .typeError

section

variable [Scalar α]

/-- `avg_grad += g[name]` -/
def Heap.addGrad (name : String) (avg : Ref) (h : Heap α) (g : RefPayload) :
    Heap α × Except PyError Unit :=
  match g.getItem name with
  | .error e => (h, .error e)
  | .ok r =>
    match (h.read avg).inplace (· + ·) (h.read r) with
    | none => (h, .error .valueError)
    | some a => (h.write avg a, .ok ())

/-- The loop `for g in grads_list[1:]`. -/
def Heap.addGrads (name : String) (avg : Ref) : Heap α → List RefPayload →
    Heap α × Except PyError Unit
  | h, [] => (h, .ok ())
  | h, g :: gs =>
    match h.addGrad name avg g with
    | (h', .error e) => (h', .error e)
    | (h', .ok _) => addGrads name avg h' gs

/-- `avg_grad` for one parameter: a copy of the first array, added to and divided in place. -/
def Heap.averageGrad (gradsList : List RefPayload) (name : String) (h : Heap α) :
    Heap α × Except PyError Ref :=
  match gradsList with
  | [] => (h, .error .indexError)
  | g :: gs =>
    match g.getItem name with
    | .error e => (h, .error e)
    | .ok r =>
      let (avg, h) := h.alloc (h.read r)
      match h.addGrads name avg gs with
      | (h, .error e) => (h, .error e)
      | (h, .ok _) => (h.write avg ((h.read avg).map (· / (gradsList.length : α))), .ok avg)

/-- One call of `apply_gradients` after the other, up to one that raises. -/
def WeightStore.applyRounds : WeightStore α → List (List (Payload α)) →
    WeightStore α × Except PyError Unit
  | st, [] => (st, .ok ())
  | st, gradsList :: rounds =>
    match st.applyGradients gradsList with
    | (st', .ok _) => applyRounds st' rounds
    | (st', .error e) => (st', .error e)

namespace RefStore

/-- `WeightStore.__init__` -/
def init (initialWeights : Refs) (lr momentum : α) (h : Heap α) : RefStore α × Heap α :=
  let (weights, h) := h.allocAll id initialWeights
  let (momentumBuffers, h) := h.allocAll (·.map (· * 0)) initialWeights
  (⟨weights, momentumBuffers, lr, momentum, 0⟩, h)

/-- The body of the loop over the parameters. -/
def applyParam (gradsList : List RefPayload) (name : String) (st : RefStore α) (h : Heap α) :
    RefStore α × Heap α × Except PyError Unit :=
  match h.averageGrad gradsList name with
  | (h, .error e) => (st, h, .error e)
  | (h, .ok avg) =>
    match st.momentumBuffers.get? name with
    | none => (st, h, .error .keyError)
    | some buf =>
      let (scaled, h) := h.alloc ((h.read buf).map (st.momentum * ·))
      match (h.read scaled).binop (· + ·) (h.read avg) with
      | none => (st, h, .error .valueError)
      | some sum =>
        let (v, h) := h.alloc sum
        let st' := { st with momentumBuffers := st.momentumBuffers.set name v }
        match st'.weights.get? name with
        | none => (st', h, .error .keyError)
        | some w =>
          let (step, h) := h.alloc ((h.read v).map (st.baseLr * ·))
          match (h.read w).binop (· - ·) (h.read step) with
          | none => (st', h, .error .valueError)
          | some diff =>
            let (w', h) := h.alloc diff
            ({ st' with weights := st'.weights.set name w' }, h, .ok ())

/-- The loop `for name in self.weights`. -/
def applyParams (gradsList : List RefPayload) : List String → RefStore α → Heap α →
    RefStore α × Heap α × Except PyError Unit
  | [], st, h => (st, h, .ok ())
  | name :: names, st, h =>
    match st.applyParam gradsList name h with
    | (st', h', .ok _) => applyParams gradsList names st' h'
    | (st', h', .error e) => (st', h', .error e)

/-- `WeightStore.apply_gradients` -/
def applyGradients (st : RefStore α) (gradsList : List RefPayload) (h : Heap α) :
    RefStore α × Heap α × Except PyError Unit :=
  match applyParams gradsList st.weights.keys st h with
  | (st', h', .ok _) => ({ st' with globalStep := st'.globalStep + 1 }, h', .ok ())
  | (st', h', .error e) => (st', h', .error e)

/-- One call of `apply_gradients` after the other, up to one that raises. -/
def applyRounds : List (List RefPayload) → RefStore α → Heap α →
    RefStore α × Heap α × Except PyError Unit
  | [], st, h => (st, h, .ok ())
  | gradsList :: rounds, st, h =>
    match st.applyGradients gradsList h with
    | (st', h', .ok _) => applyRounds rounds st' h'
    | (st', h', .error e) => (st', h', .error e)

end RefStore

end

/-! ### Heaps that grow -/

namespace Heap

variable {h h' h'' : Heap α} {d : Refs} {r : Ref} {a b : NDArray α} {name : String}

lemma read_of_grows (hp : h <+: h') (hr : r < h.length) : h'.read r = h.read r := by
  obtain ⟨t, rfl⟩ := hp
  exact List.getD_append h t _ r hr

lemma length_of_grows (hp : h <+: h') (hr : r < h.length) : r < h'.length :=
  hr.trans_le hp.length_le

@[simp] lemma read_append : (h ++ [a]).read h.length = a := by simp [read]

@[simp] lemma write_append : (h ++ [a]).write h.length b = h ++ [b] := by simp [write]

lemma Holds.of_grows (hd : h.Holds d) (hp : h <+: h') : h'.Holds d :=
  fun name r hr => length_of_grows hp (hd name r hr)

lemma Holds.set (hd : h.Holds d) (hr : r < h.length) : h.Holds (d.set name r) := by
  intro other s hs
  rw [Dict.get?_set] at hs
  split_ifs at hs with hn
  · exact Option.some.inj hs ▸ hr
  · exact hd other s hs

@[simp] lemma keys_load : (h.load d).keys = d.keys := Dict.keys_mapValues _ _

@[simp] lemma get?_load : (h.load d).get? name = (d.get? name).map h.read :=
  Dict.get?_mapValues _ _ _

/-- The values that are referred to stay. -/
lemma load_of_grows (hd : h.Holds d) (hp : h <+: h') : h'.load d = h.load d := by
  refine Dict.ext_get? (by simp) ?_
  intro name
  rw [get?_load, get?_load]
  cases hr : d.get? name with
  | none => rfl
  | some r => exact congrArg some (read_of_grows hp (hd name r hr))

lemma load_set : h.load (d.set name r) = (h.load d).set name (h.read r) := by
  refine Dict.ext_get? ?_ ?_
  · simp only [keys_load, Dict.keys_set]
  · intro other
    simp only [get?_load, Dict.get?_set]
    split_ifs <;> rfl

lemma grows_allocAll (f : NDArray α → NDArray α) (d : Refs) : h <+: (h.allocAll f d).2 :=
  List.prefix_append h _

lemma allocAll_spec (f : NDArray α → NDArray α) (d : Refs) :
    (h.allocAll f d).2.Holds (h.allocAll f d).1 ∧
      (h.allocAll f d).2.load (h.allocAll f d).1 = (h.load d).mapValues fun _ => f := by
  constructor
  · intro name r hr
    rw [Dict.get?_eq_some_iff] at hr
    obtain ⟨i, hi, hri⟩ := List.getElem_of_mem hr
    have hlen : i < d.entries.length := by simpa [allocAll] using hi
    have hrefs : h.length + i = r := by simpa [allocAll] using congrArg Prod.snd hri
    have htotal : (h.allocAll f d).2.length = h.length + d.entries.length := by simp [allocAll]
    rw [htotal, ← hrefs]
    exact Nat.add_lt_add_left hlen h.length
  · refine Dict.ext' (List.ext_getElem ?_ ?_)
    · simp [load, allocAll, Dict.mapValues]
    · intro i h₁ h₂
      have hi : i < d.entries.length := by simpa [load, Dict.mapValues] using h₂
      have hread : ∀ l : Heap α, (h ++ l).read (h.length + i) = l.read i := by
        intro l
        rw [read, List.getD_append_right _ _ _ _ (Nat.le_add_right _ _), Nat.add_sub_cancel_left]
        rfl
      simp only [load, allocAll, Dict.mapValues, List.getElem_map, List.getElem_mapIdx, hread]
      simp [read, hi]

end Heap

/-! ### Values -/

/-- The payload that is referred to. -/
def RefPayload.value (h : Heap α) : RefPayload → Payload α
  | .dict d => .dict (h.load d)
  | .other => .other

/-- Every reference of the payload is allocated. -/
def RefPayload.HeldBy (h : Heap α) : RefPayload → Prop
  | .dict d => h.Holds d
  | .other => True

/-- The store that is referred to. -/
def RefStore.value (h : Heap α) (st : RefStore α) : WeightStore α :=
  ⟨h.load st.weights, h.load st.momentumBuffers, st.baseLr, st.momentum, st.globalStep⟩

/-- Every reference of the store is allocated. -/
structure RefStore.HeldBy (h : Heap α) (st : RefStore α) : Prop where
  weights : h.Holds st.weights
  momentumBuffers : h.Holds st.momentumBuffers

/-- The call on references, started on the heap `h`, has the outcome `p` of the call on values, and
all that was in the heap is still there. -/
structure Refines (h : Heap α) (o : RefStore α × Heap α × Except PyError Unit)
    (p : WeightStore α × Except PyError Unit) : Prop where
  grows : h <+: o.2.1
  held : o.1.HeldBy o.2.1
  value : p = (o.1.value o.2.1, o.2.2)

section

variable {h h' : Heap α} {g : RefPayload} {gs : List RefPayload} {name : String} {st : RefStore α}
  {r : Ref}

lemma RefPayload.HeldBy.of_grows (hg : g.HeldBy h) (hp : h <+: h') : g.HeldBy h' := by
  cases g with
  | dict d => exact Heap.Holds.of_grows hg hp
  | other => trivial

lemma RefPayload.value_of_grows (hg : g.HeldBy h) (hp : h <+: h') : g.value h' = g.value h := by
  cases g with
  | dict d => exact congrArg Payload.dict (Heap.load_of_grows hg hp)
  | other => rfl

lemma RefPayload.values_of_grows (hgs : ∀ g ∈ gs, g.HeldBy h) (hp : h <+: h') :
    gs.map (value h') = gs.map (value h) :=
  List.map_congr_left fun g hg => value_of_grows (hgs g hg) hp

lemma RefStore.HeldBy.of_grows (hst : st.HeldBy h) (hp : h <+: h') : st.HeldBy h' :=
  ⟨hst.weights.of_grows hp, hst.momentumBuffers.of_grows hp⟩

lemma RefStore.value_of_grows (hst : st.HeldBy h) (hp : h <+: h') : st.value h' = st.value h := by
  rw [value, value, Heap.load_of_grows hst.weights hp,
    Heap.load_of_grows hst.momentumBuffers hp]

lemma RefPayload.getItem_value (h : Heap α) (g : RefPayload) (name : String) :
    (g.value h).getItem name = (g.getItem name).map h.read := by
  cases g with
  | other => rfl
  | dict d =>
    simp only [value, Payload.getItem, getItem, Heap.get?_load]
    cases d.get? name <;> rfl

lemma RefPayload.copyItem_value (h : Heap α) (g : RefPayload) (name : String) :
    (g.value h).copyItem name = (g.getItem name).map h.read := by
  rw [← getItem_value]
  cases g <;> rfl

lemma RefPayload.HeldBy.lt (hg : g.HeldBy h) (hr : g.getItem name = .ok r) : r < h.length := by
  cases g with
  | other => cases hr
  | dict d =>
    simp only [getItem] at hr
    cases hd : d.get? name with
    | none =>
      rw [hd] at hr
      cases hr
    | some r' =>
      rw [hd] at hr
      cases hr
      exact hg name _ hd

variable [Scalar α]

/-- The in-place additions change the array that has been allocated for the average, and nothing
else. -/
lemma Heap.addGrads_append (hgs : ∀ g ∈ gs, g.HeldBy h) (name : String) (a : NDArray α) :
    ∃ b, (h ++ [a] : Heap α).addGrads name h.length gs =
        (h ++ [b], (DistributedRL.addGrads name a (gs.map (·.value h))).map fun _ => ()) ∧
      ∀ sum, DistributedRL.addGrads name a (gs.map (·.value h)) = .ok sum → b = sum := by
  induction gs generalizing a with
  | nil => exact ⟨a, rfl, fun sum hsum => Except.ok.inj hsum⟩
  | cons g gs ih =>
    have hg := hgs g List.mem_cons_self
    simp only [List.map_cons, DistributedRL.addGrads, DistributedRL.addGrad, addGrads, addGrad,
      RefPayload.getItem_value]
    cases hr : g.getItem name with
    | error e => exact ⟨a, rfl, fun sum hsum => by cases hsum⟩
    | ok r =>
      have hread : (h ++ [a] : Heap α).read r = h.read r :=
        read_of_grows (List.prefix_append h [a]) (hg.lt hr)
      simp only [read_append, hread, Except.map]
      cases ha : a.inplace (· + ·) (h.read r) with
      | none => exact ⟨a, rfl, fun sum hsum => by cases hsum⟩
      | some c =>
        simp only [write_append, Option.elim]
        exact ih (fun g' hg' => hgs g' (List.mem_cons_of_mem _ hg')) c

/-- The average is a new array. -/
lemma Heap.averageGrad_refines (hgs : ∀ g ∈ gs, g.HeldBy h) (name : String) :
    ∃ h' : Heap α, h <+: h' ∧
      ((∃ e, h.averageGrad gs name = (h', .error e) ∧
        DistributedRL.averageGrad (gs.map (·.value h)) name = .error e) ∨
      ∃ r, h.averageGrad gs name = (h', .ok r) ∧ r < h'.length ∧
        DistributedRL.averageGrad (gs.map (·.value h)) name = .ok (h'.read r)) := by
  cases gs with
  | nil => exact ⟨h, List.prefix_rfl, Or.inl ⟨_, rfl, rfl⟩⟩
  | cons g gs =>
    simp only [List.map_cons, averageGrad, DistributedRL.averageGrad, RefPayload.copyItem_value,
      alloc]
    cases hr : g.getItem name with
    | error e => exact ⟨h, List.prefix_rfl, Or.inl ⟨e, rfl, rfl⟩⟩
    | ok r =>
      obtain ⟨b, hb, hsum⟩ :=
        addGrads_append (fun g' hg' => hgs g' (List.mem_cons_of_mem _ hg')) name (h.read r)
      simp only [hb, Except.map]
      cases hs : DistributedRL.addGrads name (h.read r) (gs.map (·.value h)) with
      | error e => exact ⟨_, List.prefix_append h [b], Or.inl ⟨e, rfl, rfl⟩⟩
      | ok sum =>
        obtain rfl := hsum sum hs
        simp only [write_append, read_append, List.length_cons, List.length_map]
        refine ⟨_, List.prefix_append h _, Or.inr ⟨_, rfl, by simp, ?_⟩⟩
        rw [read_append]

namespace RefStore

omit [Scalar α] in
/-- A new array is assigned to a momentum buffer. -/
lemma assign_buffer (hst : st.HeldBy h) (name : String) (v : NDArray α) :
    { st with momentumBuffers := st.momentumBuffers.set name h.length }.HeldBy (h ++ [v]) ∧
      { st with momentumBuffers := st.momentumBuffers.set name h.length }.value (h ++ [v]) =
        { st.value h with momentumBuffers := (st.value h).momentumBuffers.set name v } := by
  have hst' := hst.of_grows (List.prefix_append h [v])
  refine ⟨⟨hst'.weights, hst'.momentumBuffers.set (by simp)⟩, ?_⟩
  rw [← value_of_grows hst (List.prefix_append h [v])]
  simp only [value, Heap.load_set, Heap.read_append]

omit [Scalar α] in
/-- A new array is assigned to a weight. -/
lemma assign_weight (hst : st.HeldBy h) (name : String) (w : NDArray α) :
    { st with weights := st.weights.set name h.length }.HeldBy (h ++ [w]) ∧
      { st with weights := st.weights.set name h.length }.value (h ++ [w]) =
        { st.value h with weights := (st.value h).weights.set name w } := by
  have hst' := hst.of_grows (List.prefix_append h [w])
  refine ⟨⟨hst'.weights.set (by simp), hst'.momentumBuffers⟩, ?_⟩
  rw [← value_of_grows hst (List.prefix_append h [w])]
  simp only [value, Heap.load_set, Heap.read_append]

/-- The two assignments of one turn of the loop. -/
lemma refines_applyParam (hst : st.HeldBy h) (hgs : ∀ g ∈ gs, g.HeldBy h) (name : String) :
    Refines h (st.applyParam gs name h)
      (WeightStore.applyParam (gs.map (·.value h)) name (st.value h)) := by
  obtain ⟨h₁, hp, ⟨e, he, hv⟩ | ⟨avg, he, havg, hv⟩⟩ := h.averageGrad_refines hgs name
  · simp only [applyParam, WeightStore.applyParam, he, hv]
    exact ⟨hp, hst.of_grows hp, by rw [value_of_grows hst hp]⟩
  · have hst₁ := hst.of_grows hp
    have hbuf : (st.value h₁).momentumBuffers.get? name =
        (st.momentumBuffers.get? name).map h₁.read := Heap.get?_load
    have hweights : (st.value h₁).weights.get? name = (st.weights.get? name).map h₁.read :=
      Heap.get?_load
    rw [← value_of_grows hst hp]
    simp only [applyParam, WeightStore.applyParam, he, hv, hbuf, hweights]
    cases hb : st.momentumBuffers.get? name with
    | none => exact ⟨hp, hst₁, rfl⟩
    | some buf =>
      have hp₂ : h₁ <+: h₁ ++ [(h₁.read buf).map (st.momentum * ·)] := List.prefix_append _ _
      simp only [Heap.alloc, Heap.read_append, Heap.read_of_grows hp₂ havg, Option.map_some]
      have hmom : (st.value h₁).momentum = st.momentum := rfl
      rw [hmom]
      cases hsum : ((h₁.read buf).map (st.momentum * ·)).binop (· + ·) (h₁.read avg) with
      | none =>
        exact ⟨hp.trans hp₂, hst₁.of_grows hp₂, by rw [value_of_grows hst₁ hp₂]⟩
      | some v =>
        have hst₂ := hst₁.of_grows hp₂
        rw [← value_of_grows hst₁ hp₂]
        set h₂ := h₁ ++ [(h₁.read buf).map (st.momentum * ·)]
        obtain ⟨hst₃, hval₃⟩ := assign_buffer hst₂ name v
        have hp₃ : h₂ <+: h₂ ++ [v] := List.prefix_append _ _
        cases hw : st.weights.get? name with
        | none => exact ⟨(hp.trans hp₂).trans hp₃, hst₃, by rw [hval₃]; rfl⟩
        | some w =>
          have hp₄ : h₂ ++ [v] <+: h₂ ++ [v] ++ [v.map (st.baseLr * ·)] := List.prefix_append _ _
          have hread : (h₂ ++ [v] ++ [v.map (st.baseLr * ·)] : Heap α).read w = h₁.read w :=
            Heap.read_of_grows ((hp₂.trans hp₃).trans hp₄) (hst₁.weights name w hw)
          have hst₄ := hst₃.of_grows hp₄
          have hval₄ := value_of_grows hst₃ hp₄
          have hlr : (st.value h₂).baseLr = st.baseLr := rfl
          simp only [hread, hlr, Option.map_some]
          cases hdiff : (h₁.read w).binop (· - ·) (v.map (st.baseLr * ·)) with
          | none =>
            refine ⟨((hp.trans hp₂).trans hp₃).trans hp₄, hst₄, ?_⟩
            rw [hval₄, hval₃]
            rfl
          | some diff =>
            obtain ⟨hst₅, hval₅⟩ := assign_weight hst₄ name diff
            refine ⟨(((hp.trans hp₂).trans hp₃).trans hp₄).trans (List.prefix_append _ _), hst₅, ?_⟩
            rw [hval₅, hval₄, hval₃]
            rfl

/-- The loop over the parameters, by induction on them. -/
lemma refines_applyParams (hst : st.HeldBy h) (hgs : ∀ g ∈ gs, g.HeldBy h) (names : List String) :
    Refines h (applyParams gs names st h)
      (WeightStore.applyParams (gs.map (·.value h)) names (st.value h)) := by
  induction names generalizing st h with
  | nil => exact ⟨List.prefix_rfl, hst, rfl⟩
  | cons name names ih =>
    have hturn := refines_applyParam hst hgs name
    simp only [applyParams, WeightStore.applyParams]
    rw [hturn.value]
    cases ho : st.applyParam gs name h with
    | mk st' o =>
      obtain ⟨h', res⟩ := o
      rw [ho] at hturn
      have hp : h <+: h' := hturn.grows
      cases res with
      | error e => exact ⟨hp, hturn.held, rfl⟩
      | ok u =>
        have hrest := ih hturn.held fun g hg => (hgs g hg).of_grows hp
        rw [RefPayload.values_of_grows hgs hp] at hrest
        exact ⟨hp.trans hrest.grows, hrest.held, hrest.value⟩

lemma refines_applyGradients (hst : st.HeldBy h) (hgs : ∀ g ∈ gs, g.HeldBy h) :
    Refines h (st.applyGradients gs h)
      ((st.value h).applyGradients (gs.map (·.value h))) := by
  have hloop := refines_applyParams hst hgs st.weights.keys
  have hkeys : (st.value h).weights.keys = st.weights.keys := Heap.keys_load
  simp only [applyGradients, WeightStore.applyGradients, hkeys]
  rw [hloop.value]
  cases ho : applyParams gs st.weights.keys st h with
  | mk st' o =>
    obtain ⟨h', res⟩ := o
    rw [ho] at hloop
    cases res with
    | error e => exact ⟨hloop.grows, hloop.held, rfl⟩
    | ok u => exact ⟨hloop.grows, ⟨hloop.held.weights, hloop.held.momentumBuffers⟩, rfl⟩

lemma refines_applyRounds {rounds : List (List RefPayload)} (hst : st.HeldBy h)
    (hgs : ∀ gs ∈ rounds, ∀ g ∈ gs, g.HeldBy h) :
    Refines h (applyRounds rounds st h)
      ((st.value h).applyRounds (rounds.map (List.map (·.value h)))) := by
  induction rounds generalizing st h with
  | nil => exact ⟨List.prefix_rfl, hst, rfl⟩
  | cons gs rounds ih =>
    have hcall := refines_applyGradients hst (hgs gs List.mem_cons_self)
    simp only [applyRounds, List.map_cons, WeightStore.applyRounds]
    rw [hcall.value]
    cases ho : st.applyGradients gs h with
    | mk st' o =>
      obtain ⟨h', res⟩ := o
      rw [ho] at hcall
      have hp : h <+: h' := hcall.grows
      cases res with
      | error e => exact ⟨hp, hcall.held, rfl⟩
      | ok u =>
        have hrounds := fun gs hg => hgs gs (List.mem_cons_of_mem _ hg)
        have hrest := ih hcall.held fun gs hg g hmem => (hrounds gs hg g hmem).of_grows hp
        have hvalues : rounds.map (List.map (·.value h')) =
            rounds.map (List.map (·.value h)) :=
          List.map_congr_left fun gs hg => RefPayload.values_of_grows (hrounds gs hg) hp
        rw [hvalues] at hrest
        exact ⟨hp.trans hrest.grows, hrest.held, hrest.value⟩

/-- The store starts with copies of its own. -/
lemma init_spec {initialWeights : Refs} (hi : h.Holds initialWeights) (lr momentum : α) :
    h <+: (init initialWeights lr momentum h).2 ∧
      (init initialWeights lr momentum h).1.HeldBy (init initialWeights lr momentum h).2 ∧
      (init initialWeights lr momentum h).1.value (init initialWeights lr momentum h).2 =
        .init (h.load initialWeights) lr momentum := by
  obtain ⟨hw, hwval⟩ := Heap.allocAll_spec (h := h) id initialWeights
  have hp := Heap.grows_allocAll (h := h) id initialWeights
  set h₁ := (h.allocAll id initialWeights).2
  obtain ⟨hb, hbval⟩ := Heap.allocAll_spec (h := h₁) (·.map (· * 0)) initialWeights
  have hp' := Heap.grows_allocAll (h := h₁) (·.map (· * 0)) initialWeights
  refine ⟨hp.trans hp', ⟨hw.of_grows hp', hb⟩, ?_⟩
  have hweights : (h₁.allocAll (·.map (· * 0)) initialWeights).2.load
      (h.allocAll id initialWeights).1 = h.load initialWeights := by
    rw [Heap.load_of_grows hw hp', hwval]
    exact Dict.ext_get? (by simp) (by simp)
  have hbuffers : (h₁.allocAll (·.map (· * 0)) initialWeights).2.load
      (h₁.allocAll (·.map (· * 0)) initialWeights).1 =
        (h.load initialWeights).mapValues fun _ a => a.map (· * 0) := by
    rw [hbval, Heap.load_of_grows hi hp]
  rw [WeightStore.init, ← hbuffers, ← hweights]
  rfl

end RefStore

end

end DistributedRL
