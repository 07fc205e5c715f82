import DistributedRL.Data.NDArray
import DistributedRL.Data.Numeric
import Mathlib.Data.List.Forall2

/-!
# Tensors

Tensors whose rank is data: a shape, and an entry for each index within it. Elementwise operations
broadcast; the others work on the last axis. Two tensors are the same if they have the same shape
and the same entries within it.
-/

namespace DistributedRL

variable {α β γ : Type*}

/-- A tensor. `get` is read at indices within the shape. -/
structure Tensor (α : Type*) where
  shape : List ℕ
  get : List ℕ → α

/-- The index lies within the shape. -/
def InBounds (shape index : List ℕ) : Prop := List.Forall₂ (· < ·) index shape

/-- All indices within a shape. -/
def indices : List ℕ → List (List ℕ)
  | [] => [[]]
  | n :: shape => (List.range n).flatMap fun i => (indices shape).map (i :: ·)

lemma mem_indices {shape index : List ℕ} : index ∈ indices shape ↔ InBounds shape index := by
  induction shape generalizing index with
  | nil => simp [indices, InBounds]
  | cons n shape ih =>
    simp only [indices, List.mem_flatMap, List.mem_range, List.mem_map, ih]
    constructor
    · rintro ⟨i, hi, rest, hrest, rfl⟩
      exact .cons hi hrest
    · intro h
      cases h with
      | cons hi hrest => exact ⟨_, hi, _, hrest, rfl⟩

/-- The `j`-th entry of a vector. -/
def entry [Zero α] {n : ℕ} (v : Fin n → α) (j : ℕ) : α := if h : j < n then v ⟨j, h⟩ else 0

@[simp] lemma entry_val [Zero α] {n : ℕ} (v : Fin n → α) (j : Fin n) : entry v j = v j :=
  dif_pos j.isLt

namespace Tensor

/-- Equality within the shape. -/
structure Same (a b : Tensor α) : Prop where
  shape : a.shape = b.shape
  get : ∀ i, InBounds a.shape i → a.get i = b.get i

/-- `torch.as_tensor` of a vector -/
def ofList [Zero α] (x : List α) : Tensor α := ⟨[x.length], fun i => x.getD (i.headD 0) 0⟩

/-- `torch.as_tensor` of a matrix -/
def ofRows [Zero α] {n : ℕ} (rows : List (Fin n → α)) : Tensor α :=
  ⟨[rows.length, n], fun i => entry (rows.getD (i.headD 0) 0) (i.getLastD 0)⟩

/-- An elementwise function. -/
def map (f : α → β) (t : Tensor α) : Tensor β := ⟨t.shape, fun i => f (t.get i)⟩

/-- The index that a stretched operand is read at, both listed from the last axis. -/
def clipRev : List ℕ → List ℕ → List ℕ
  | n :: shape, i :: index => (if n = 1 then 0 else i) :: clipRev shape index
  | _, _ => []

/-- The entry of a stretched operand. -/
def stretched (t : Tensor α) (index : List ℕ) : α :=
  t.get (clipRev t.shape.reverse index.reverse).reverse

/-- An elementwise operation of two tensors, broadcast to a common shape. -/
def zipWith (f : α → β → γ) (a : Tensor α) (b : Tensor β) : Option (Tensor γ) :=
  (broadcastShape a.shape b.shape).map fun s => ⟨s, fun i => f (a.stretched i) (b.stretched i)⟩

/-- `t.expand_as(other)` -/
def expandAs (t : Tensor α) (other : Tensor β) : Option (Tensor α) :=
  if broadcastShape t.shape other.shape = some other.shape then some ⟨other.shape, t.stretched⟩
  else none

/-- `t.squeeze(-1)` -/
def squeezeLast (t : Tensor α) : Tensor α :=
  match t.shape.reverse with
  | 1 :: shape => ⟨shape.reverse, fun i => t.get (i ++ [0])⟩
  | _ => t

/-- `t.reshape(-1, 1)` of a vector -/
def column (t : Tensor α) : Option (Tensor α) :=
  match t.shape with
  | [n] => some ⟨[n, 1], fun i => t.get [i.headD 0]⟩
  | _ => none

/-- The vectors along the last axis, whose length is to be `n`. -/
def rows (n : ℕ) (t : Tensor α) : Option (Tensor (Fin n → α)) :=
  match t.shape.reverse with
  | [] => none
  | m :: shape =>
    if m = n then some ⟨shape.reverse, fun i j => t.get (i ++ [(j : ℕ)])⟩ else none

/-- The tensor of the given vectors along its last axis. -/
def join [Zero α] {n : ℕ} (t : Tensor (Fin n → α)) : Tensor α :=
  ⟨t.shape ++ [n], fun i => entry (t.get i.dropLast) (i.getLastD 0)⟩

/-- `t.sum(dim=-1)` -/
def sumLast [Zero α] [Add α] (t : Tensor α) : Option (Tensor α) :=
  match t.shape.reverse with
  | [] => none
  | n :: shape =>
    some ⟨shape.reverse, fun i => ((List.range n).map fun j => t.get (i ++ [j])).sum⟩

/-- An elementwise function that may raise. -/
def mapM [Zero β] (f : α → Option β) (t : Tensor α) : Option (Tensor β) :=
  if ∀ i ∈ indices t.shape, (f (t.get i)).isSome then
    some ⟨t.shape, fun i => (f (t.get i)).getD 0⟩
  else none

/-! ### Reading the results -/

variable {a : Tensor α} {b : Tensor β}

lemma clipRev_eq {shape index : List ℕ} (h : List.Forall₂ (· < ·) index shape) :
    clipRev shape index = index := by
  induction h with
  | nil => rfl
  | cons hi _ ih =>
    rw [clipRev, ih]
    split_ifs with h1
    · congr 1
      omega
    · rfl

/-- Nothing is stretched at an index within the shape. -/
lemma stretched_eq {i : List ℕ} (h : InBounds a.shape i) : a.stretched i = a.get i := by
  rw [stretched, clipRev_eq (List.rel_reverse h), List.reverse_reverse]

/-- Operands of one shape are combined entry by entry. -/
lemma exists_zipWith (f : α → β → γ) (hs : a.shape = b.shape) :
    ∃ c, zipWith f a b = some c ∧ c.shape = a.shape ∧
      ∀ i, InBounds a.shape i → c.get i = f (a.get i) (b.get i) := by
  refine ⟨_, by rw [zipWith, ← hs, broadcastShape_self]; rfl, rfl, ?_⟩
  intro i hi
  show f (a.stretched i) (b.stretched i) = _
  rw [stretched_eq hi, stretched_eq (hs ▸ hi)]

lemma inBounds_one {n i : ℕ} (h : i < n) : InBounds [n] [i] := .cons h .nil

lemma inBounds_two {n m i j : ℕ} (hi : i < n) (hj : j < m) : InBounds [n, m] [i, j] :=
  .cons hi (.cons hj .nil)

/-- A vector of length `n` with the entries `v`. -/
structure IsVector (t : Tensor α) (n : ℕ) (v : ℕ → α) : Prop where
  shape : t.shape = [n]
  get : ∀ i < n, t.get [i] = v i

/-- A matrix of `n` rows. -/
structure IsMatrix {m : ℕ} (t : Tensor α) (n : ℕ) (r : ℕ → Fin m → α) : Prop where
  shape : t.shape = [n, m]
  get : ∀ i < n, ∀ j : Fin m, t.get [i, j] = r i j

variable {t : Tensor α} {n m : ℕ} {u : ℕ → β} {v : ℕ → α} {r : ℕ → Fin m → α}

/-- Vectors with the same entries are the same. -/
lemma IsVector.same {s : Tensor α} (h : t.IsVector n v) (hs : s.IsVector n v) : t.Same s := by
  refine ⟨h.shape.trans hs.shape.symm, ?_⟩
  intro i hi
  rw [h.shape] at hi
  cases hi with
  | cons hlt hnil =>
    cases hnil
    rw [h.get _ hlt, hs.get _ hlt]

lemma isVector_ofList [Zero α] (x : List α) : (ofList x).IsVector x.length (x.getD · 0) :=
  ⟨rfl, fun _ _ => rfl⟩

lemma isMatrix_ofRows [Zero α] (x : List (Fin m → α)) :
    (ofRows x).IsMatrix x.length (x.getD · 0) :=
  ⟨rfl, fun i _ j => by simp [ofRows]⟩

lemma isVector_map [Zero α] (x : List β) (f : β → α) :
    (ofList (x.map f)).IsVector x.length ((x.map f).getD · 0) := by
  simpa only [List.length_map] using isVector_ofList (x.map f)

lemma isMatrix_map [Zero α] (x : List β) (f : β → Fin m → α) :
    (ofRows (x.map f)).IsMatrix x.length ((x.map f).getD · 0) := by
  simpa only [List.length_map] using isMatrix_ofRows (x.map f)

lemma IsVector.map (h : t.IsVector n v) (f : α → β) : (t.map f).IsVector n fun i => f (v i) :=
  ⟨h.shape, fun i hi => congrArg f (h.get i hi)⟩

lemma IsVector.zipWith {b : Tensor β} (h : t.IsVector n v) (hb : b.IsVector n u)
    (f : α → β → γ) : ∃ c, Tensor.zipWith f t b = some c ∧ c.IsVector n fun i => f (v i) (u i) := by
  obtain ⟨c, hc, hshape, hget⟩ := exists_zipWith f (h.shape.trans hb.shape.symm)
  refine ⟨c, hc, hshape.trans h.shape, ?_⟩
  intro i hi
  rw [hget [i] (h.shape ▸ inBounds_one hi), h.get i hi, hb.get i hi]

lemma IsMatrix.zipWith {b : Tensor β} {q : ℕ → Fin m → β} (h : t.IsMatrix n r)
    (hb : b.IsMatrix n q) (f : α → β → γ) :
    ∃ c, Tensor.zipWith f t b = some c ∧ c.IsMatrix n fun i j => f (r i j) (q i j) := by
  obtain ⟨c, hc, hshape, hget⟩ := exists_zipWith f (h.shape.trans hb.shape.symm)
  refine ⟨c, hc, hshape.trans h.shape, ?_⟩
  intro i hi j
  rw [hget [i, (j : ℕ)] (h.shape ▸ inBounds_two hi j.isLt), h.get i hi j, hb.get i hi j]

lemma IsMatrix.rows (h : t.IsMatrix n r) : ∃ c, t.rows m = some c ∧ c.IsVector n r := by
  refine ⟨⟨[n], fun i j => t.get (i ++ [(j : ℕ)])⟩, ?_, rfl, ?_⟩
  · simp [Tensor.rows, h.shape]
  · intro i hi
    funext j
    exact h.get i hi j

lemma IsVector.join [Zero α] {t : Tensor (Fin m → α)} (h : t.IsVector n r) :
    t.join.IsMatrix n r := by
  refine ⟨by simp [Tensor.join, h.shape], ?_⟩
  intro i hi j
  have hget : t.join.get [i, (j : ℕ)] = entry (t.get [i]) j := rfl
  rw [hget, h.get i hi, entry_val]

lemma IsMatrix.sumLast [Zero α] [Add α] (h : t.IsMatrix n r) :
    ∃ c, t.sumLast = some c ∧ c.IsVector n fun i => (List.ofFn (r i)).sum := by
  refine ⟨⟨[n], fun i => ((List.range m).map fun j => t.get (i ++ [j])).sum⟩, ?_, rfl, ?_⟩
  · simp [Tensor.sumLast, h.shape]
  · intro i hi
    refine congrArg List.sum (List.ext_getElem (by simp) ?_)
    intro j h₁ h₂
    have hj : j < m := by simpa using h₁
    simpa using h.get i hi ⟨j, hj⟩

/-- A column of length one is dropped, whatever the number of rows. -/
lemma IsMatrix.squeezeLast {r : ℕ → Fin 1 → α} (h : t.IsMatrix n r) :
    t.squeezeLast.IsVector n fun i => r i 0 := by
  have heq : t.squeezeLast = ⟨[n], fun i => t.get (i ++ [0])⟩ := by
    simp [Tensor.squeezeLast, h.shape]
  rw [heq]
  exact ⟨rfl, fun i hi => h.get i hi 0⟩

lemma IsVector.column (h : t.IsVector n v) :
    ∃ c, t.column = some c ∧ c.IsMatrix n fun i (_ : Fin 1) => v i := by
  refine ⟨⟨[n, 1], fun i => t.get [i.headD 0]⟩, ?_, rfl, fun i hi _ => h.get i hi⟩
  simp [Tensor.column, h.shape]

/-- A vector that is expanded over the rows of a matrix. -/
lemma IsVector.expandAs {b : Tensor β} {q : ℕ → Fin m → β} (h : t.IsVector m v)
    (hb : b.IsMatrix n q) :
    ∃ c, t.expandAs b = some c ∧ c.IsMatrix n fun _ (j : Fin m) => v j := by
  have hshape : broadcastShape t.shape b.shape = some b.shape := by
    simp [h.shape, hb.shape, broadcastShape, broadcastRev]
  refine ⟨⟨b.shape, t.stretched⟩, by rw [Tensor.expandAs, if_pos hshape], hb.shape, ?_⟩
  intro i _ j
  have hclip : (clipRev t.shape.reverse [i, (j : ℕ)].reverse).reverse = [(j : ℕ)] := by
    have hj := j.isLt
    simp only [h.shape, List.reverse_cons, List.reverse_nil, List.nil_append, List.cons_append,
      clipRev]
    split_ifs with h1
    · congr 1
      omega
    · rfl
  show t.get _ = v j
  rw [hclip, h.get j j.isLt]

lemma IsVector.mapM [Zero β] (h : t.IsVector n v) {f : α → Option β}
    (hf : ∀ i < n, f (v i) = some (u i)) : ∃ c, t.mapM f = some c ∧ c.IsVector n u := by
  refine ⟨⟨t.shape, fun i => (f (t.get i)).getD 0⟩, if_pos ?_, h.shape, ?_⟩
  · intro i hi
    rw [mem_indices, h.shape] at hi
    cases hi with
    | cons hlt hnil =>
      cases hnil
      rw [h.get _ hlt, hf _ hlt]
      rfl
  · intro i hi
    show (f (t.get [i])).getD 0 = _
    rw [h.get i hi, hf i hi]
    rfl

end Tensor

end DistributedRL
