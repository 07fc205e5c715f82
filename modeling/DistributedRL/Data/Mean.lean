import DistributedRL.Data.Dict
import DistributedRL.Data.NDArray
import Mathlib.Algebra.BigOperators.Group.Finset.Basic

/-!
# The mean of named arrays

Named arrays read by name and position, and the componentwise mean of a family of them.
-/

namespace DistributedRL

variable {κ ι 𝕂 : Type*} [Field 𝕂]

namespace NDArray

/-- The element at a position, zero outside the array. -/
def item (a : NDArray 𝕂) (i : ℕ) : 𝕂 := a.data.getD i 0

lemma ext_item {a b : NDArray 𝕂} (hs : a.shape = b.shape)
    (h : ∀ i < a.shape.prod, a.item i = b.item i) : a = b := by
  refine ext' hs (List.ext_getElem ?_ ?_)
  · rw [a.length_data, b.length_data, hs]
  · intro i h₁ h₂
    simpa [item, h₁, h₂] using h i (a.length_data ▸ h₁)

lemma item_map (a : NDArray 𝕂) {f : 𝕂 → 𝕂} (hf : f 0 = 0) (i : ℕ) :
    (a.map f).item i = f (a.item i) := by
  simp only [item, data_map, List.getD_eq_getElem?_getD, List.getElem?_map]
  cases a.data[i]? <;> simp [hf]

/-- The elements of an elementwise combination of two arrays of one shape. -/
lemma item_zipWith {a b c : NDArray 𝕂} {f : 𝕂 → 𝕂 → 𝕂} (hf : f 0 0 = 0)
    (hs : a.shape = b.shape) (h : c.data = List.zipWith f a.data b.data) (i : ℕ) :
    c.item i = f (a.item i) (b.item i) := by
  have hl : a.data.length = b.data.length := by rw [a.length_data, b.length_data, hs]
  simp only [item, h, List.getD_eq_getElem?_getD, List.getElem?_zipWith]
  by_cases hi : i < a.data.length
  · have hi' : i < b.data.length := hl ▸ hi
    simp [hi, hi']
  · have hi' : ¬ i < b.data.length := hl ▸ hi
    simp [hi, hi', hf]

lemma item_binop {a b c : NDArray 𝕂} {f : 𝕂 → 𝕂 → 𝕂} (hf : f 0 0 = 0)
    (hs : a.shape = b.shape) (h : binop f a b = some c) (i : ℕ) :
    c.item i = f (a.item i) (b.item i) := by
  obtain ⟨c', hc', -, hdata⟩ := exists_binop f hs
  rw [h] at hc'
  cases hc'
  exact item_zipWith hf hs hdata i

lemma item_inplace {a b c : NDArray 𝕂} {f : 𝕂 → 𝕂 → 𝕂} (hf : f 0 0 = 0)
    (hs : a.shape = b.shape) (h : inplace f a b = some c) (i : ℕ) :
    c.item i = f (a.item i) (b.item i) := by
  obtain ⟨c', hc', -, hdata⟩ := exists_inplace f hs
  rw [h] at hc'
  cases hc'
  exact item_zipWith hf hs hdata i

end NDArray

namespace Dict

variable [DecidableEq κ]

/-- The element at a position of a named array. -/
def item (w : Dict κ (NDArray 𝕂)) (k : κ) (i : ℕ) : 𝕂 := (w.get? k).elim 0 (NDArray.item · i)

lemma item_of_get? {w : Dict κ (NDArray 𝕂)} {k : κ} {a : NDArray 𝕂} (h : w.get? k = some a)
    (i : ℕ) : w.item k i = a.item i := by
  rw [item, h, Option.elim]

/-- The componentwise mean of the family `ws`, in the layout of `w`. -/
def mean (members : Finset ι) (ws : ι → Dict κ (NDArray 𝕂)) (w : Dict κ (NDArray 𝕂)) :
    Dict κ (NDArray 𝕂) :=
  w.mapValues fun k a => ⟨a.shape,
    (List.range a.shape.prod).map fun i => (∑ d ∈ members, (ws d).item k i) / members.card,
    by simp⟩

lemma get?_mean (members : Finset ι) (ws : ι → Dict κ (NDArray 𝕂)) {w : Dict κ (NDArray 𝕂)}
    {k : κ} {a : NDArray 𝕂} (h : w.get? k = some a) :
    ∃ m, (w.mean members ws).get? k = some m ∧ m.shape = a.shape ∧
      ∀ i < a.shape.prod, m.item i = (∑ d ∈ members, (ws d).item k i) / members.card := by
  rw [mean, get?_mapValues, h]
  exact ⟨_, rfl, rfl, fun i hi => by simp [NDArray.item, hi]⟩

/-- What has the layout of `w` and the elements of the mean is the mean. -/
lemma eq_mean {members : Finset ι} {ws : ι → Dict κ (NDArray 𝕂)} {w w' : Dict κ (NDArray 𝕂)}
    (hk : w'.keys = w.keys) (h : ∀ k a, w.get? k = some a → ∃ a', w'.get? k = some a' ∧
      a'.shape = a.shape ∧
      ∀ i < a.shape.prod, a'.item i = (∑ d ∈ members, (ws d).item k i) / members.card) :
    w' = w.mean members ws := by
  refine ext_get? (by rw [mean, keys_mapValues, hk]) ?_
  intro k
  cases hw : w.get? k with
  | none =>
    rw [mean, get?_mapValues, hw, Option.map_none, get?_eq_none_iff, hk]
    exact get?_eq_none_iff.mp hw
  | some a =>
    obtain ⟨a', ha', hs, hi⟩ := h k a hw
    obtain ⟨m, hm, hms, hmi⟩ := get?_mean members ws hw
    rw [ha', hm, NDArray.ext_item (hs.trans hms.symm) fun i hi' => ?_]
    rw [hi i (hs ▸ hi'), hmi i (hs ▸ hi')]

end Dict

end DistributedRL
