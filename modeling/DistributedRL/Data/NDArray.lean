import Mathlib.Algebra.Field.Rat
import Mathlib.Algebra.BigOperators.Group.List.Basic

/-!
# Arrays with broadcasting

Dense arrays in row-major order, with the elementwise operations of a numeric array library: two
shapes are aligned at their last axis, an axis of length one is stretched, and an in-place
operation must produce the shape of its left operand. Scalars carry operations and no laws, so
everything here also holds of rounded arithmetic.
-/

namespace DistributedRL

/-- The operations an array library needs of its scalars, with no laws attached. -/
class Scalar (α : Type*) extends Zero α, Add α, Sub α, Mul α, Div α, NatCast α

-- a field keeps its own operations
attribute [instance (100)] Scalar.toZero Scalar.toAdd Scalar.toSub Scalar.toMul Scalar.toDiv
  Scalar.toNatCast

/-- Exact arithmetic. -/
instance {𝕂 : Type*} [Field 𝕂] : Scalar 𝕂 where

/-- A dense array. The invariant says that the data fill the shape. -/
structure NDArray (α : Type*) where
  shape : List ℕ
  data : List α
  length_data : data.length = shape.prod

/-! ### Shapes -/

/-- The common length of two aligned axes. -/
def broadcastDim (m n : ℕ) : Option ℕ :=
  if m = n then some m else if m = 1 then some n else if n = 1 then some m else none

/-- The common shape of two shapes listed from their last axis. -/
def broadcastRev : List ℕ → List ℕ → Option (List ℕ)
  | [], t => some t
  | s, [] => some s
  | m :: s, n :: t =>
    match broadcastDim m n, broadcastRev s t with
    | some k, some u => some (k :: u)
    | _, _ => none

/-- The shape two arrays are broadcast to, `none` where their shapes do not combine. -/
def broadcastShape (s t : List ℕ) : Option (List ℕ) :=
  (broadcastRev s.reverse t.reverse).map List.reverse

@[simp] lemma broadcastDim_self (n : ℕ) : broadcastDim n n = some n := by simp [broadcastDim]

lemma broadcastRev_self (s : List ℕ) : broadcastRev s s = some s := by
  induction s with
  | nil => rfl
  | cons n s ih => simp [broadcastRev, ih]

@[simp] lemma broadcastShape_self (s : List ℕ) : broadcastShape s s = some s := by
  simp [broadcastShape, broadcastRev_self]

/-- Axes that do not combine stay apart when one of them is stretched over the other operand. -/
lemma broadcastDim_none_of_absorbed {l m n : ℕ} (h : broadcastDim l n = none)
    (hm : broadcastDim m n = some m) : broadcastDim l m = none := by
  grind [broadcastDim]

lemma broadcastRev_none_of_absorbed : ∀ {s t u : List ℕ}, broadcastRev s t = none →
    broadcastRev u t = some u → broadcastRev s u = none
  | [], t, u, h, _ => by simp [broadcastRev] at h
  | l :: s, [], u, h, _ => by simp [broadcastRev] at h
  | l :: s, n :: t, [], _, hu => by simp [broadcastRev] at hu
  | l :: s, n :: t, m :: u, h, hu => by
    simp only [broadcastRev] at h hu ⊢
    cases hd : broadcastDim m n with
    | none => simp [hd] at hu
    | some k =>
      cases hr : broadcastRev u t with
      | none => simp [hd, hr] at hu
      | some w =>
        simp only [hd, hr, Option.some.injEq, List.cons.injEq] at hu
        obtain ⟨rfl, rfl⟩ := hu
        cases hl : broadcastDim l n with
        | none => simp [broadcastDim_none_of_absorbed hl hd]
        | some j =>
          cases hs : broadcastRev s t with
          | none => simp [broadcastRev_none_of_absorbed hs hr]
          | some v => simp [hl, hs] at h

/-- If `t` fits into `u` in place but does not combine with `s`, neither does `u`. -/
lemma broadcastShape_none_of_absorbed {s t u : List ℕ} (h : broadcastShape s t = none)
    (hu : broadcastShape u t = some u) : broadcastShape s u = none := by
  simp only [broadcastShape, Option.map_eq_none_iff, Option.map_eq_some_iff] at h hu ⊢
  obtain ⟨w, hw, rfl⟩ := hu
  exact broadcastRev_none_of_absorbed h (by simpa using hw)

lemma broadcastDim_absorb {m n k : ℕ} (h : broadcastDim m n = some k) :
    broadcastDim m k = some k := by
  grind [broadcastDim]

lemma broadcastRev_absorb : ∀ {s t u : List ℕ}, broadcastRev s t = some u →
    broadcastRev s u = some u
  | [], t, u, _ => rfl
  | m :: s, [], u, h => by
    cases h
    exact broadcastRev_self _
  | m :: s, n :: t, u, h => by
    simp only [broadcastRev] at h
    cases hd : broadcastDim m n with
    | none => simp [hd] at h
    | some k =>
      cases hr : broadcastRev s t with
      | none => simp [hd, hr] at h
      | some w =>
        simp only [hd, hr, Option.some.injEq] at h
        subst h
        simp [broadcastRev, broadcastDim_absorb hd, broadcastRev_absorb hr]

/-- A shape combines with the shape it has been broadcast to. -/
lemma broadcastShape_absorb {s t u : List ℕ} (h : broadcastShape s t = some u) :
    broadcastShape s u = some u := by
  simp only [broadcastShape, Option.map_eq_some_iff] at h ⊢
  obtain ⟨w, hw, rfl⟩ := h
  exact ⟨w, by simpa using broadcastRev_absorb hw, rfl⟩

/-! ### Reading an array at a broadcast shape -/

/-- Where the element at position `i` of shape `t` is read in an array of shape `s`, both shapes
listed from their last axis. -/
def sourceIndex : List ℕ → List ℕ → ℕ → ℕ
  | m :: s, n :: t, i => (if m = 1 then 0 else i % n) + m * sourceIndex s t (i / n)
  | _, _, _ => 0

lemma sourceIndex_self : ∀ {s : List ℕ} {i : ℕ}, i < s.prod → sourceIndex s s i = i
  | [], i, h => by simp at h; simp [sourceIndex, h]
  | n :: s, i, h => by
    have hdiv : i / n < s.prod := Nat.div_lt_of_lt_mul (by simpa using h)
    have hmod : (if n = 1 then 0 else i % n) = i % n := by
      split_ifs with hn
      · subst hn; exact (Nat.mod_one i).symm
      · rfl
    rw [sourceIndex, hmod, sourceIndex_self hdiv, Nat.mod_add_div]

namespace NDArray

variable {α : Type*}

@[ext] lemma ext' {a b : NDArray α} (hs : a.shape = b.shape) (hd : a.data = b.data) : a = b := by
  cases a; cases b; simp_all

instance [DecidableEq α] : DecidableEq (NDArray α) := fun a b =>
  decidable_of_iff (a.shape = b.shape ∧ a.data = b.data)
    ⟨fun h => ext' h.1 h.2, fun h => h ▸ ⟨rfl, rfl⟩⟩

/-- The array `[x]`. -/
def singleton (x : α) : NDArray α := ⟨[1], [x], rfl⟩

/-- Apply a function to every element. -/
def map (f : α → α) (a : NDArray α) : NDArray α :=
  ⟨a.shape, a.data.map f, by rw [List.length_map, a.length_data]⟩

@[simp] lemma shape_map (f : α → α) (a : NDArray α) : (a.map f).shape = a.shape := rfl
@[simp] lemma data_map (f : α → α) (a : NDArray α) : (a.map f).data = a.data.map f := rfl

variable [Scalar α]

/-- The elements of `a` laid out over the shape `t`. -/
def broadcastData (a : NDArray α) (t : List ℕ) : List α :=
  (List.range t.prod).map fun i => a.data.getD (sourceIndex a.shape.reverse t.reverse i) 0

@[simp] lemma length_broadcastData (a : NDArray α) (t : List ℕ) :
    (a.broadcastData t).length = t.prod := by simp [broadcastData]

@[simp] lemma broadcastData_self (a : NDArray α) : a.broadcastData a.shape = a.data := by
  apply List.ext_getElem
  · simp [a.length_data]
  · intro i h₁ h₂
    have hi : i < a.shape.reverse.prod := by
      rw [(List.reverse_perm a.shape).prod_eq]; simpa using h₁
    simp [broadcastData, sourceIndex_self hi, h₂]

/-- An elementwise binary operation, `none` where the shapes do not combine. -/
def binop (f : α → α → α) (a b : NDArray α) : Option (NDArray α) :=
  (broadcastShape a.shape b.shape).map fun t =>
    ⟨t, List.zipWith f (a.broadcastData t) (b.broadcastData t), by simp⟩

/-- The in-place operation `a op= b`, `none` where the result would not have the shape of `a`. -/
def inplace (f : α → α → α) (a b : NDArray α) : Option (NDArray α) :=
  if broadcastShape a.shape b.shape = some a.shape then
    some ⟨a.shape, List.zipWith f a.data (b.broadcastData a.shape), by simp [a.length_data]⟩
  else none

lemma shape_binop {f : α → α → α} {a b c : NDArray α} (h : binop f a b = some c) :
    broadcastShape a.shape b.shape = some c.shape := by
  simp only [binop, Option.map_eq_some_iff] at h
  obtain ⟨t, ht, rfl⟩ := h
  exact ht

lemma binop_eq_none_iff {f : α → α → α} {a b : NDArray α} :
    binop f a b = none ↔ broadcastShape a.shape b.shape = none := by simp [binop]

lemma shape_inplace {f : α → α → α} {a b c : NDArray α} (h : inplace f a b = some c) :
    c.shape = a.shape ∧ broadcastShape a.shape b.shape = some a.shape := by
  simp only [inplace] at h
  split_ifs at h with hs
  cases h
  exact ⟨rfl, hs⟩

/-- Arrays of one shape combine elementwise, and the result has that shape. -/
lemma exists_binop (f : α → α → α) {a b : NDArray α} (h : a.shape = b.shape) :
    ∃ c, binop f a b = some c ∧ c.shape = a.shape ∧ c.data = List.zipWith f a.data b.data := by
  refine ⟨⟨a.shape, List.zipWith f a.data b.data, ?_⟩, ?_, rfl, rfl⟩
  · simp [a.length_data, b.length_data, h]
  · simp only [binop, ← h, broadcastShape_self, Option.map_some, broadcastData_self,
      Option.some.injEq]
    congr 2
    rw [h, broadcastData_self]

lemma exists_inplace (f : α → α → α) {a b : NDArray α} (h : a.shape = b.shape) :
    ∃ c, inplace f a b = some c ∧ c.shape = a.shape ∧ c.data = List.zipWith f a.data b.data := by
  refine ⟨⟨a.shape, List.zipWith f a.data b.data, ?_⟩, ?_, rfl, rfl⟩
  · simp [a.length_data, b.length_data, h]
  · simp only [inplace, ← h, broadcastShape_self, if_true, Option.some.injEq]
    congr 2
    rw [h, broadcastData_self]

end NDArray

end DistributedRL
