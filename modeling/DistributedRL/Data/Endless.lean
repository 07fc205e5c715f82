import DistributedRL.Data.Transition
import Mathlib.Order.WellFounded

/-!
# Endless runs

A run that never ends, as the sequence of its states and that of its actions. If a well-founded
measure decreases with every action of one kind and stays with all the other ones, the run has
finitely many actions of that kind.
-/

namespace DistributedRL

variable {σ ι β : Type*} {step : σ → ι → Option σ} {ok : σ → ι → σ → Prop} {s₀ : σ}
  {s : ℕ → σ} {a : ℕ → ι}

/-- The states `s` and the actions `a` are a run from `s₀` whose steps all satisfy `ok`. -/
structure Endless (step : σ → ι → Option σ) (ok : σ → ι → σ → Prop) (s₀ : σ) (s : ℕ → σ)
    (a : ℕ → ι) : Prop where
  start : s 0 = s₀
  next : ∀ n, step (s n) (a n) = some (s (n + 1))
  allowed : ∀ n, ok (s n) (a n) (s (n + 1))

namespace Endless

lemma reach (h : Endless step ok s₀ s a) (n : ℕ) : Reach step ok s₀ (s n) := by
  induction n with
  | zero =>
    rw [h.start]
    exact .refl
  | succ n ih => exact ih.tail (h.next n) (h.allowed n)

/-- What holds of a state and is kept by the later steps holds of all later states. -/
lemma persists {P : σ → Prop} {n : ℕ} (hn : P (s n)) (keep : ∀ m ≥ n, P (s m) → P (s (m + 1))) :
    ∀ m ≥ n, P (s m) := by
  intro m hm
  induction m, hm using Nat.le_induction with
  | base => exact hn
  | succ m hm ih => exact keep m hm ih

/-- Finitely many actions are not idle, if these decrease the measure and the idle ones keep it. -/
lemma eventually_idle {r : β → β → Prop} (hr : WellFounded r) (μ : σ → β) (idle : ι → Prop)
    (drop : ∀ n, ¬ idle (a n) → r (μ (s (n + 1))) (μ (s n)))
    (keep : ∀ n, idle (a n) → μ (s (n + 1)) = μ (s n)) : ∃ n, ∀ m ≥ n, idle (a m) := by
  obtain ⟨_, ⟨n, rfl⟩, hmin⟩ := hr.has_min (Set.range fun n => μ (s n)) ⟨μ (s 0), 0, rfl⟩
  have hidle : ∀ m, μ (s m) = μ (s n) → idle (a m) := fun m hm => by
    by_contra hne
    have hdrop := drop m hne
    rw [hm] at hdrop
    exact hmin _ ⟨m + 1, rfl⟩ hdrop
  have hconst : ∀ m ≥ n, μ (s m) = μ (s n) := persists (P := fun t => μ t = μ (s n)) rfl
    fun m _ hm => (keep m (hidle m hm)).trans hm
  exact ⟨n, fun m hm => hidle m (hconst m hm)⟩

/-- A checked run that ends where one action changes nothing goes on for ever with that action. -/
lemma of_runChecked (step : σ → ι → Option σ) (ok : σ → ι → σ → Prop) (check : σ → ι → σ → Bool)
    (hc : ∀ s a s', check s a s' = true → ok s a s') {t : σ} {b : ι} (hloop : step t b = some t)
    (hok : ok t b t) : ∀ {as : List ι} {s₀ : σ}, runChecked step check s₀ as = some t →
      ∃ s a, Endless step ok s₀ s a ∧ ∃ n, ∀ m ≥ n, s m = t ∧ a m = b
  | [], s₀, h => by
    obtain rfl : s₀ = t := Option.some.inj h
    exact ⟨fun _ => s₀, fun _ => b, ⟨rfl, fun _ => hloop, fun _ => hok⟩, 0, fun _ _ => ⟨rfl, rfl⟩⟩
  | x :: as, s₀, h => by
    simp only [runChecked] at h
    split at h
    · cases h
    · next s' hs =>
      split_ifs at h with hx
      obtain ⟨s, a, hrun, n, hend⟩ := of_runChecked step ok check hc hloop hok h
      refine ⟨fun k => k.casesOn s₀ s, fun k => k.casesOn x a, ⟨rfl, ?_, ?_⟩, n + 1, ?_⟩
      · rintro (_ | k)
        · exact hs.trans (congrArg some hrun.start.symm)
        · exact hrun.next k
      · rintro (_ | k)
        · show ok s₀ x (s 0)
          rw [hrun.start]
          exact hc _ _ _ hx
        · exact hrun.allowed k
      · rintro (_ | k) hk
        · cases hk
        · exact hend k (Nat.le_of_succ_le_succ hk)

end Endless

end DistributedRL
