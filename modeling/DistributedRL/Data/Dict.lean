import Mathlib.Data.List.Basic
import Mathlib.Data.List.Nodup

/-!
# Insertion-ordered dictionaries

A finite map that remembers the order in which its keys were first inserted. Assigning to a key
that is already there keeps its place; a new key goes to the end. Iteration over `keys`, `values`
and `entries` follows that order.
-/

namespace DistributedRL

/-- A finite map with distinct keys, listed in insertion order. -/
structure Dict (κ ν : Type*) where
  entries : List (κ × ν)
  nodup : (entries.map Prod.fst).Nodup

namespace Dict

variable {κ ν μ : Type*}

@[ext] lemma ext' {d e : Dict κ ν} (h : d.entries = e.entries) : d = e := by
  cases d; cases e; simp_all

instance [DecidableEq κ] [DecidableEq ν] : DecidableEq (Dict κ ν) := fun d e =>
  decidable_of_iff (d.entries = e.entries) ⟨ext', fun h => h ▸ rfl⟩

/-- The empty dictionary. -/
def empty : Dict κ ν := ⟨[], List.nodup_nil⟩

instance : EmptyCollection (Dict κ ν) := ⟨empty⟩

/-- The keys, in insertion order. -/
def keys (d : Dict κ ν) : List κ := d.entries.map Prod.fst

/-- The values, in insertion order. -/
def values (d : Dict κ ν) : List ν := d.entries.map Prod.snd

lemma nodup_keys (d : Dict κ ν) : d.keys.Nodup := d.nodup

@[simp] lemma entries_empty : (∅ : Dict κ ν).entries = [] := rfl
@[simp] lemma keys_empty : (∅ : Dict κ ν).keys = [] := rfl
@[simp] lemma values_empty : (∅ : Dict κ ν).values = [] := rfl

/-- Apply a function to every value. -/
def mapValues (f : κ → ν → μ) (d : Dict κ ν) : Dict κ μ :=
  ⟨d.entries.map fun p => (p.1, f p.1 p.2), by
    simpa [List.map_map, Function.comp_def] using d.nodup⟩

@[simp] lemma keys_mapValues (f : κ → ν → μ) (d : Dict κ ν) : (d.mapValues f).keys = d.keys := by
  simp [keys, mapValues, List.map_map, Function.comp_def]

variable [DecidableEq κ]

/-- Look a key up. -/
def get? (d : Dict κ ν) (k : κ) : Option ν :=
  (d.entries.find? fun p => p.1 = k).map Prod.snd

@[simp] lemma get?_empty (k : κ) : (∅ : Dict κ ν).get? k = none := rfl

/-- The entries after the assignment `d[k] = v`. -/
def setEntries (k : κ) (v : ν) : List (κ × ν) → List (κ × ν)
  | [] => [(k, v)]
  | p :: ps => if p.1 = k then (k, v) :: ps else p :: setEntries k v ps

lemma map_fst_setEntries (k : κ) (v : ν) (ps : List (κ × ν)) :
    (setEntries k v ps).map Prod.fst =
      if k ∈ ps.map Prod.fst then ps.map Prod.fst else ps.map Prod.fst ++ [k] := by
  induction ps with
  | nil => simp [setEntries]
  | cons p ps ih =>
    by_cases hp : p.1 = k
    · simp [setEntries, hp]
    · have hp' : ¬ k = p.1 := fun h => hp h.symm
      simp only [setEntries, hp, if_false, List.map_cons, ih, List.mem_cons, hp', false_or]
      split_ifs <;> simp

/-- The assignment `d[k] = v`. -/
def set (d : Dict κ ν) (k : κ) (v : ν) : Dict κ ν :=
  ⟨setEntries k v d.entries, by
    rw [map_fst_setEntries]
    split_ifs with h
    · exact d.nodup
    · exact d.nodup.append (List.nodup_singleton k) (by simpa [List.disjoint_singleton] using h)⟩

/-- Removal of a key, `d.pop(k, None)`. -/
def erase (d : Dict κ ν) (k : κ) : Dict κ ν :=
  ⟨d.entries.filter fun p => p.1 ≠ k, d.nodup.sublist (List.filter_sublist.map _)⟩

lemma keys_set (d : Dict κ ν) (k : κ) (v : ν) :
    (d.set k v).keys = if k ∈ d.keys then d.keys else d.keys ++ [k] :=
  map_fst_setEntries k v d.entries

@[simp] lemma keys_set_of_mem {d : Dict κ ν} {k : κ} (v : ν) (h : k ∈ d.keys) :
    (d.set k v).keys = d.keys := by
  rw [keys_set, if_pos h]

@[simp] lemma mem_keys_set {d : Dict κ ν} {k k' : κ} {v : ν} :
    k' ∈ (d.set k v).keys ↔ k' = k ∨ k' ∈ d.keys := by
  rw [keys_set]
  split_ifs with h
  · exact ⟨Or.inr, fun h' => h'.elim (fun e => e ▸ h) id⟩
  · simp [or_comm]

@[simp] lemma mem_keys_erase {d : Dict κ ν} {k k' : κ} :
    k' ∈ (d.erase k).keys ↔ k' ∈ d.keys ∧ k' ≠ k := by
  simp only [keys, erase, List.mem_map, List.mem_filter, decide_eq_true_eq]
  constructor
  · rintro ⟨p, ⟨hp, hk⟩, rfl⟩
    exact ⟨⟨p, hp, rfl⟩, by simpa using hk⟩
  · rintro ⟨⟨p, hp, rfl⟩, hk⟩
    exact ⟨p, ⟨hp, by simpa using hk⟩, rfl⟩

/-- Looking a key up finds its entry, since keys are distinct. -/
lemma get?_eq_some_iff {d : Dict κ ν} {k : κ} {v : ν} :
    d.get? k = some v ↔ (k, v) ∈ d.entries := by
  simp only [get?, Option.map_eq_some_iff]
  constructor
  · rintro ⟨p, hp, rfl⟩
    have hk : p.1 = k := by simpa using List.find?_some hp
    exact hk ▸ List.mem_of_find?_eq_some hp
  · intro h
    cases hf : d.entries.find? (fun p => p.1 = k) with
    | none => exact absurd (List.find?_eq_none.mp hf _ h) (by simp)
    | some p =>
      have hk : p.1 = k := by simpa using List.find?_some hf
      exact ⟨p, rfl, congrArg Prod.snd
        (List.inj_on_of_nodup_map d.nodup (List.mem_of_find?_eq_some hf) h hk)⟩

lemma mem_keys_iff {d : Dict κ ν} {k : κ} : k ∈ d.keys ↔ ∃ v, d.get? k = some v := by
  simp [keys, get?_eq_some_iff]

lemma get?_eq_none_iff {d : Dict κ ν} {k : κ} : d.get? k = none ↔ k ∉ d.keys := by
  rw [mem_keys_iff, Option.eq_none_iff_forall_ne_some, not_exists]

/-- Dictionaries with the same keys, in the same order, and the same value at each are equal. -/
lemma ext_get? {d e : Dict κ ν} (hk : d.keys = e.keys) (h : ∀ k, d.get? k = e.get? k) : d = e := by
  have hent : ∀ d : Dict κ ν, d.entries.map (fun p => (p.1, some p.2)) =
      d.keys.map fun k => (k, d.get? k) := by
    intro d
    rw [keys, List.map_map]
    refine List.map_congr_left ?_
    intro p hp
    exact Prod.ext rfl (get?_eq_some_iff.mpr hp).symm
  have hinj : Function.Injective fun p : κ × ν => (p.1, some p.2) :=
    fun p q hpq => Prod.ext (Prod.mk.inj hpq).1 (Option.some.inj (Prod.mk.inj hpq).2)
  refine ext' (List.map_injective_iff.mpr hinj ?_)
  simp only [hent, hk, h]

/-- `d == e`: the same value under each key, in whatever order. -/
def Agree (d e : Dict κ ν) : Prop := ∀ k, d.get? k = e.get? k

lemma Agree.eq {d e : Dict κ ν} (h : d.Agree e) (hk : d.keys = e.keys) : d = e := ext_get? hk h

lemma mem_values_iff {d : Dict κ ν} {v : ν} : v ∈ d.values ↔ ∃ k, d.get? k = some v := by
  simp [values, get?_eq_some_iff]

lemma mem_setEntries {k : κ} {v : ν} {ps : List (κ × ν)} (hn : (ps.map Prod.fst).Nodup)
    {q : κ × ν} : q ∈ setEntries k v ps ↔ q = (k, v) ∨ (q ∈ ps ∧ q.1 ≠ k) := by
  induction ps with
  | nil => simp [setEntries]
  | cons p ps ih =>
    obtain ⟨hp, hn⟩ := List.nodup_cons.mp hn
    by_cases hpk : p.1 = k
    · have hfresh : ∀ q ∈ ps, q.1 ≠ k := fun q hq he =>
        hp (hpk ▸ he ▸ List.mem_map_of_mem hq)
      simp only [setEntries, hpk, if_true, List.mem_cons]
      constructor
      · rintro (h | h)
        · exact Or.inl h
        · exact Or.inr ⟨Or.inr h, hfresh q h⟩
      · rintro (h | ⟨rfl | h, hne⟩)
        · exact Or.inl h
        · exact absurd hpk hne
        · exact Or.inr h
    · simp only [setEntries, hpk, if_false, List.mem_cons, ih hn]
      constructor
      · rintro (rfl | h | ⟨h, hne⟩)
        · exact Or.inr ⟨Or.inl rfl, hpk⟩
        · exact Or.inl h
        · exact Or.inr ⟨Or.inr h, hne⟩
      · rintro (h | ⟨h | h, hne⟩)
        · exact Or.inr (Or.inl h)
        · exact Or.inl h
        · exact Or.inr (Or.inr ⟨h, hne⟩)

@[simp] lemma get?_set (d : Dict κ ν) (k k' : κ) (v : ν) :
    (d.set k v).get? k' = if k' = k then some v else d.get? k' := by
  ext u
  rw [get?_eq_some_iff, set, mem_setEntries d.nodup]
  by_cases h : k' = k
  · subst h; simp [eq_comm]
  · simp [h, get?_eq_some_iff]

lemma setEntries_of_not_mem {k : κ} {v : ν} {ps : List (κ × ν)} (h : k ∉ ps.map Prod.fst) :
    setEntries k v ps = ps ++ [(k, v)] := by
  induction ps with
  | nil => rfl
  | cons p ps ih =>
    obtain ⟨hp, hps⟩ := not_or.mp (List.mem_cons.not.mp h)
    rw [setEntries, if_neg (Ne.symm hp), ih hps, List.cons_append]

lemma setEntries_eq_self {k : κ} {v : ν} {ps : List (κ × ν)} (hn : (ps.map Prod.fst).Nodup)
    (h : (k, v) ∈ ps) : setEntries k v ps = ps := by
  induction ps with
  | nil => cases h
  | cons p ps ih =>
    obtain ⟨hp, hn⟩ := List.nodup_cons.mp hn
    rcases List.mem_cons.mp h with rfl | h
    · simp [setEntries]
    · have hpk : p.1 ≠ k := fun e => hp (e ▸ List.mem_map_of_mem h)
      simp [setEntries, hpk, ih hn h]

/-- Assigning the value a key already has changes nothing. -/
lemma set_eq_self {d : Dict κ ν} {k : κ} {v : ν} (h : d.get? k = some v) : d.set k v = d :=
  ext' (setEntries_eq_self d.nodup (get?_eq_some_iff.mp h))

@[simp] lemma get?_erase (d : Dict κ ν) (k k' : κ) :
    (d.erase k).get? k' = if k' = k then none else d.get? k' := by
  ext u
  rw [get?_eq_some_iff]
  by_cases h : k' = k
  · simp [erase, h]
  · simp [erase, h, get?_eq_some_iff]

@[simp] lemma get?_mapValues (f : κ → ν → μ) (d : Dict κ ν) (k : κ) :
    (d.mapValues f).get? k = (d.get? k).map (f k) := by
  ext u
  simp only [get?_eq_some_iff, mapValues, List.mem_map, Option.map_eq_some_iff, Prod.mk.injEq]
  constructor
  · rintro ⟨⟨k', v⟩, h, rfl, rfl⟩
    exact ⟨v, h, rfl⟩
  · rintro ⟨v, h, rfl⟩
    exact ⟨(k, v), h, rfl, rfl⟩

/-- The assignments `d[k] = v` for the pairs of a list, in order. -/
def setAll (d : Dict κ ν) (l : List (κ × ν)) : Dict κ ν :=
  l.foldl (fun d p => d.set p.1 p.2) d

@[simp] lemma setAll_nil (d : Dict κ ν) : d.setAll [] = d := rfl

@[simp] lemma setAll_cons (d : Dict κ ν) (p : κ × ν) (l : List (κ × ν)) :
    d.setAll (p :: l) = (d.set p.1 p.2).setAll l := rfl

/-- New keys are appended, in order. -/
lemma entries_setAll {d : Dict κ ν} {l : List (κ × ν)} (hn : (d.keys ++ l.map Prod.fst).Nodup) :
    (d.setAll l).entries = d.entries ++ l := by
  induction l generalizing d with
  | nil => rw [setAll_nil, List.append_nil]
  | cons p l ih =>
    have hp : p.1 ∉ d.keys := by
      intro hmem
      exact List.disjoint_of_nodup_append hn hmem List.mem_cons_self
    have hkeys : (d.set p.1 p.2).keys = d.keys ++ [p.1] := by
      rw [keys_set, if_neg hp]
    have hent : (d.set p.1 p.2).entries = d.entries ++ [p] := setEntries_of_not_mem hp
    rw [setAll_cons, ih, hent, List.append_assoc, List.singleton_append]
    rw [hkeys, List.append_assoc]
    exact hn

lemma get?_setAll_of_not_mem {d : Dict κ ν} {l : List (κ × ν)} {k : κ}
    (h : k ∉ l.map Prod.fst) : (d.setAll l).get? k = d.get? k := by
  induction l generalizing d with
  | nil => rfl
  | cons p l ih =>
    obtain ⟨hp, hl⟩ := not_or.mp (List.mem_cons.not.mp h)
    rw [setAll_cons, ih hl, get?_set, if_neg hp]

/-- With distinct keys every assignment is there at the end. -/
lemma get?_setAll_of_mem {d : Dict κ ν} {l : List (κ × ν)} (hn : (l.map Prod.fst).Nodup)
    {k : κ} {v : ν} (h : (k, v) ∈ l) : (d.setAll l).get? k = some v := by
  induction l generalizing d with
  | nil => cases h
  | cons p l ih =>
    obtain ⟨hp, hn⟩ := List.nodup_cons.mp hn
    rcases List.mem_cons.mp h with rfl | h
    · rw [setAll_cons, get?_setAll_of_not_mem hp, get?_set, if_pos rfl]
    · exact ih hn h

/-- Rename the keys by an injective function that drops some of them. -/
lemma get?_setAll_filterMap {μ : Type*} [DecidableEq μ] {f : κ → Option μ} {d : Dict κ ν} {k : κ}
    {m : μ} (hf : ∀ k', f k' = some m ↔ k' = k)
    (hinj : ∀ k₁ k₂ m', f k₁ = some m' → f k₂ = some m' → k₁ = k₂) (e : Dict μ ν) :
    (e.setAll (d.entries.filterMap fun p => (f p.1).map (·, p.2))).get? m =
      (d.get? k).elim (e.get? m) some := by
  have hmem : ∀ m' v, (m', v) ∈ d.entries.filterMap (fun p => (f p.1).map (·, p.2)) ↔
      ∃ k', f k' = some m' ∧ (k', v) ∈ d.entries := by
    intro m' v
    simp only [List.mem_filterMap, Option.map_eq_some_iff, Prod.mk.injEq]
    constructor
    · rintro ⟨⟨k', v'⟩, hp, m'', hm, rfl, rfl⟩
      exact ⟨k', hm, hp⟩
    · rintro ⟨k', hm, hp⟩
      exact ⟨(k', v), hp, m', hm, rfl, rfl⟩
  cases hk : d.get? k with
  | none =>
    refine get?_setAll_of_not_mem fun h => ?_
    obtain ⟨⟨m', v⟩, hp, rfl⟩ := List.mem_map.mp h
    obtain ⟨k', hm, hp⟩ := (hmem m' v).mp hp
    rw [(hf k').mp hm, ← get?_eq_some_iff, hk] at hp
    cases hp
  | some v =>
    refine get?_setAll_of_mem ?_ ((hmem m v).mpr ⟨k, (hf k).mpr rfl, get?_eq_some_iff.mp hk⟩)
    have hkeys : (d.entries.filterMap fun p => (f p.1).map (·, p.2)).map Prod.fst =
        d.keys.filterMap f := by
      rw [keys, List.filterMap_map, List.map_filterMap]
      refine List.filterMap_congr ?_
      intro p _
      simp [Option.map_map, Function.comp_def]
    rw [hkeys]
    refine d.nodup_keys.filterMap ?_
    intro k₁ k₂ m' h₁ h₂
    exact hinj k₁ k₂ m' h₁ h₂

/-- Rename the keys by an injective function. -/
lemma get?_setAll_map {μ : Type*} [DecidableEq μ] {f : κ → μ} (hf : Function.Injective f)
    {d : Dict κ ν} {e : Dict μ ν} (k : κ) :
    (e.setAll (d.entries.map fun p => (f p.1, p.2))).get? (f k) =
      (d.get? k).elim (e.get? (f k)) some := by
  have h := get?_setAll_filterMap (f := fun k => some (f k)) (d := d) (k := k) (m := f k)
    (fun k' => by simp [hf.eq_iff]) (fun k₁ k₂ m h₁ h₂ => hf (Option.some.inj (h₁.trans h₂.symm))) e
  simpa using h

end Dict

end DistributedRL
