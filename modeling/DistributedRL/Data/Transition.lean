import Mathlib.Data.List.Basic
import Mathlib.Logic.Basic

/-!
# Runs of a transition function

`step s a` is the state after action `a`, or `none` where the action is not enabled. `Reach`
collects the states reached by runs all of whose steps satisfy an assumption `ok`, which may speak
about the state before the step, the action and the state after it.
-/

namespace DistributedRL

/-- `s` is reached from `s₀` by steps that all satisfy `ok`. -/
inductive Reach {σ ι : Type*} (step : σ → ι → Option σ) (ok : σ → ι → σ → Prop) (s₀ : σ) :
    σ → Prop
  | refl : Reach step ok s₀ s₀
  | tail {s a s'} : Reach step ok s₀ s → step s a = some s' → ok s a s' → Reach step ok s₀ s'

namespace Reach

variable {σ τ ι κ : Type*} {step : σ → ι → Option σ} {ok ok' : σ → ι → σ → Prop} {s₀ s : σ}

/-- What holds initially and is preserved by every allowed step holds in every reached state. -/
lemma invariant {P : σ → Prop} (h : Reach step ok s₀ s) (init : P s₀)
    (keep : ∀ {s a s'}, P s → step s a = some s' → ok s a s' → P s') : P s := by
  induction h with
  | refl => exact init
  | tail _ hs hok ih => exact keep ih hs hok

/-- As `invariant`, with the reachability of the state before the step at hand. -/
lemma invariant_reach {P : σ → Prop} (h : Reach step ok s₀ s) (init : P s₀)
    (keep : ∀ {s a s'}, Reach step ok s₀ s → P s → step s a = some s' → ok s a s' → P s') :
    P s := by
  induction h with
  | refl => exact init
  | tail hr hs hok ih => exact keep hr ih hs hok

lemma mono (h : Reach step ok s₀ s) (hok : ∀ {s a s'}, ok s a s' → ok' s a s') :
    Reach step ok' s₀ s :=
  h.invariant .refl fun ih hs hk => ih.tail hs (hok hk)

/-- Weakening of the assumption may use any invariant of the run. -/
lemma mono_of {P : σ → Prop} (h : Reach step ok s₀ s)
    (hP : ∀ {s}, Reach step ok s₀ s → P s)
    (hok : ∀ {s a s'}, P s → step s a = some s' → ok s a s' → ok' s a s') :
    Reach step ok' s₀ s :=
  h.invariant_reach .refl fun hr ih hs hk => ih.tail hs (hok (hP hr) hs hk)

/-- A projection whose image of every step is a step or a stutter maps runs to runs. -/
lemma map {step' : τ → κ → Option τ} {ok' : τ → κ → τ → Prop} (f : σ → τ)
    (h : Reach step ok s₀ s)
    (sim : ∀ {s a s'}, step s a = some s' → ok s a s' →
      f s' = f s ∨ ∃ b, step' (f s) b = some (f s') ∧ ok' (f s) b (f s')) :
    Reach step' ok' (f s₀) (f s) := by
  induction h with
  | refl => exact .refl
  | tail _ hs hok ih =>
    rcases sim hs hok with he | ⟨b, hb, hok'⟩
    · exact he ▸ ih
    · exact ih.tail hb hok'

/-- Two transition functions that agree where the first one gets to reach the same states. -/
lemma congr {step' : σ → ι → Option σ}
    (agree : ∀ {s}, Reach step ok s₀ s → ∀ a, step' s a = step s a) :
    Reach step' ok s₀ s ↔ Reach step ok s₀ s := by
  constructor
  · intro h
    induction h with
    | refl => exact .refl
    | tail _ hs hok ih => exact ih.tail (agree ih _ ▸ hs) hok
  · intro h
    induction h with
    | refl => exact .refl
    | tail hr hs hok ih => exact ih.tail ((agree hr _).trans hs) hok

end Reach

/-- Run a list of actions. -/
def runAll {σ ι : Type*} (step : σ → ι → Option σ) : σ → List ι → Option σ
  | s, [] => some s
  | s, a :: as => (step s a).bind fun s' => runAll step s' as

section Run

variable {σ ι : Type*} {step : σ → ι → Option σ} {s s' : σ} {as bs : List ι}

lemma runAll_append : runAll step s (as ++ bs) = (runAll step s as).bind (runAll step · bs) := by
  induction as generalizing s with
  | nil => rfl
  | cons a as ih =>
    rw [List.cons_append, runAll, runAll, Option.bind_assoc]
    exact congrArg _ (funext fun s' => ih)

/-- Every part of a run from its start is a run. -/
lemma exists_runAll_of_isPrefix (h : runAll step s as = some s') (hb : bs <+: as) :
    ∃ t, runAll step s bs = some t := by
  obtain ⟨cs, rfl⟩ := hb
  rw [runAll_append, Option.bind_eq_some_iff] at h
  exact h.imp fun t ht => ht.1

/-- What holds at the start of a run and is kept by its steps holds at its end. -/
lemma runAll_invariant {P : σ → Prop} {ok : ι → Prop}
    (keep : ∀ {s a s'}, P s → ok a → step s a = some s' → P s') (hs : P s) (hok : ∀ a ∈ as, ok a)
    (h : runAll step s as = some s') : P s' := by
  induction as generalizing s with
  | nil =>
    cases h
    exact hs
  | cons a as ih =>
    obtain ⟨t, ht, hrest⟩ := Option.bind_eq_some_iff.mp h
    exact ih (keep hs (hok a List.mem_cons_self) ht)
      (fun b hb => hok b (List.mem_cons_of_mem _ hb)) hrest

/-- Steps that do not show under `mask` can be deleted from a run if the other ones do not depend on
what it hides. -/
lemma runAll_filter {P : σ → Prop} {ok : ι → Prop} {mask : σ → σ} {shown : ι → Bool}
    (keep : ∀ {s a s'}, P s → ok a → step s a = some s' → P s')
    (hidden : ∀ {s a s'}, P s → ok a → shown a = false → step s a = some s' → mask s' = mask s)
    (visible : ∀ {s a s'}, P s → ok a → shown a = true → step s a = some s' →
      step (mask s) a = some (mask s'))
    (hs : P s) (hok : ∀ a ∈ as, ok a) (h : runAll step s as = some s') :
    runAll step (mask s) (as.filter shown) = some (mask s') := by
  induction as generalizing s with
  | nil =>
    cases h
    rfl
  | cons a as ih =>
    obtain ⟨t, ht, hrest⟩ := Option.bind_eq_some_iff.mp h
    have ha := hok a List.mem_cons_self
    have hrun := ih (keep hs ha ht) (fun b hb => hok b (List.mem_cons_of_mem _ hb)) hrest
    cases hshown : shown a with
    | false =>
      rw [List.filter_cons_of_neg (by simp [hshown]), ← hidden hs ha hshown ht]
      exact hrun
    | true =>
      rw [List.filter_cons_of_pos hshown, runAll, visible hs ha hshown ht]
      exact hrun

end Run

/-- Run a list of actions, checking each step with `check`. -/
def runChecked {σ ι : Type*} (step : σ → ι → Option σ) (check : σ → ι → σ → Bool) :
    σ → List ι → Option σ
  | s, [] => some s
  | s, a :: as =>
    match step s a with
    | none => none
    | some s' => if check s a s' then runChecked step check s' as else none

/-- A checked run reaches its last state. -/
lemma Reach.of_runChecked {σ ι : Type*} {step : σ → ι → Option σ} {ok : σ → ι → σ → Prop}
    {check : σ → ι → σ → Bool} (hc : ∀ s a s', check s a s' = true → ok s a s') {s₀ s : σ} :
    ∀ {as : List ι} {s₁ : σ}, Reach step ok s₀ s₁ → runChecked step check s₁ as = some s →
      Reach step ok s₀ s
  | [], s₁, hr, h => by
    simp only [runChecked, Option.some.injEq] at h
    exact h ▸ hr
  | a :: as, s₁, hr, h => by
    simp only [runChecked] at h
    split at h
    · cases h
    · next s' hs =>
      split at h
      · next hk => exact Reach.of_runChecked hc (hr.tail hs (hc _ _ _ hk)) h
      · cases h

/-- A script whose steps pass a check and whose last state has a property reaches such a state. -/
lemma Reach.of_script {σ ι : Type*} (step : σ → ι → Option σ) (ok : σ → ι → σ → Prop) (s₀ : σ)
    (as : List ι) (check : σ → ι → σ → Bool)
    (hc : ∀ s a s', check s a s' = true → ok s a s') (P : σ → Prop) [DecidablePred P]
    (h : (runChecked step check s₀ as).any (fun s => decide (P s)) = true) :
    ∃ s, Reach step ok s₀ s ∧ P s := by
  obtain ⟨s, hs, hP⟩ := (Option.any_eq_true _ _).mp h
  exact ⟨s, .of_runChecked hc .refl hs, of_decide_eq_true hP⟩

end DistributedRL
