import Mathlib.Algebra.Order.Field.Basic
import Mathlib.Data.List.DropRight
import Mathlib.Data.List.Infix
import Mathlib.Tactic.Linarith

/-!
# Windows over a growing list

What is kept of a list that grows at the end: the last elements up to a bound, or those that are
not older than a width.
-/

namespace DistributedRL

variable {β 𝕂 : Type*}

/-! ### The last elements -/

/-- Append, and drop the first element if there are more than `bound`. -/
def pushBounded (bound : ℕ) (xs : List β) (x : β) : List β :=
  if bound < (xs ++ [x]).length then (xs ++ [x]).tail else xs ++ [x]

/-- The window over the last elements moves on by one. -/
lemma pushBounded_rtake (bound : ℕ) (xs : List β) (x : β) :
    pushBounded bound (xs.rtake bound) x = (xs ++ [x]).rtake bound := by
  cases bound with
  | zero => simp [pushBounded]
  | succ n =>
    rw [List.rtake_concat_succ, pushBounded]
    rcases Nat.lt_or_ge n xs.length with hlt | hle
    · have hlen : (xs.rtake (n + 1)).length = n + 1 := by
        rw [List.rtake, List.length_drop]
        omega
      have hne : xs.rtake (n + 1) ≠ [] := List.ne_nil_of_length_eq_add_one hlen
      rw [if_pos (by simp [hlen]), List.tail_append_of_ne_nil hne, List.rtake, List.rtake,
        List.tail_drop]
      congr 2
      omega
    · have hall : ∀ k, n ≤ k → xs.rtake k = xs := fun k hk => by
        rw [List.rtake, Nat.sub_eq_zero_of_le (hle.trans hk), List.drop_zero]
      rw [hall n le_rfl, hall (n + 1) n.le_succ, if_neg (by simpa using hle)]

/-! ### The latest elements -/

/-- Where the elements that are dropped come first, nothing else is kept. -/
lemma dropWhile_eq_filter {p : β → Bool} {xs : List β}
    (h : xs.Pairwise fun x y => p y = true → p x = true) :
    xs.dropWhile p = xs.filter fun x => !p x := by
  induction xs with
  | nil => rfl
  | cons x xs ih =>
    obtain ⟨hx, hxs⟩ := List.pairwise_cons.mp h
    cases hp : p x with
    | true => simp only [List.dropWhile_cons, List.filter_cons, hp, ih hxs, if_true]; rfl
    | false =>
      have hall : ∀ y ∈ xs, (!p y) = true := fun y hy => by
        cases hpy : p y with
        | true => rw [hx y hy hpy] at hp; cases hp
        | false => rfl
      simp [hp, List.filter_eq_self.mpr hall]

section

variable [Field 𝕂] [LinearOrder 𝕂] [IsStrictOrderedRing 𝕂]

/-- Append a time, and drop the first ones that are more than `width` before it. -/
def pushRolling (width : 𝕂) (times : List 𝕂) (now : 𝕂) : List 𝕂 :=
  (times ++ [now]).dropWhile fun t => width < now - t

/-- A rolling window over times that do not decrease holds those within `width` of the last one. -/
lemma foldl_pushRolling {width : 𝕂} {times : List 𝕂} {now : 𝕂}
    (h : (times ++ [now]).Pairwise (· ≤ ·)) :
    (times ++ [now]).foldl (pushRolling width) [] =
      (times ++ [now]).filter fun t => now - t ≤ width := by
  have hdrop : ∀ {ts : List 𝕂} {now : 𝕂}, ts.Pairwise (· ≤ ·) →
      ts.dropWhile (fun t => width < now - t) = ts.filter fun t => now - t ≤ width := by
    intro ts now hts
    rw [dropWhile_eq_filter (hts.imp fun hle hlt => ?_)]
    · exact List.filter_congr fun t _ => by rw [← decide_not, decide_eq_decide, not_lt]
    · simp only [decide_eq_true_eq] at hlt ⊢
      linarith
  induction times using List.reverseRecOn generalizing now with
  | nil => exact hdrop h
  | append_singleton times t ih =>
    obtain ⟨hts, -, hnow⟩ := List.pairwise_append.mp h
    have hle : t ≤ now := hnow t (by simp) now (List.mem_singleton_self now)
    rw [List.foldl_append, ih hts]
    simp only [List.foldl_cons, List.foldl_nil, pushRolling]
    rw [hdrop (h.sublist (List.filter_sublist.append_right [now])), List.filter_append,
      List.filter_filter, List.filter_append _ [now]]
    congr 1
    refine List.filter_congr fun u _ => ?_
    rw [← Bool.decide_and]
    exact decide_eq_decide.mpr ⟨And.left, fun hu => ⟨hu, by linarith⟩⟩

end

end DistributedRL
