import DistributedRL.Server.Reports
import DistributedRL.Server.Versions

/-!
# Fresh checkpoints

`_maybe_checkpoint` tests and sets `last_checkpoint_step` without a lock, with a step that may be out
of date, so the variable can go back and two threads can save where one would do. No step is left
out all the same: the thread that has taken the store to its newest step either saves, or has found
a `last_checkpoint_step` whose own save, done or under way, is recent enough.
-/

namespace DistributedRL

variable {α : Type*}

/-! ### The step inside the file -/

/-- The thread is inside `submit`. -/
def Handler.InSubmit : Handler α → Bool
  | .apply _ | .getStep _ | .acks _ _ _ _ | .emit _ _ | .checkpoint _ | .checkpointAssign _
  | .checkpointSave => true
  | _ => false

namespace System

/-- The step inside the last checkpoint of this aggregator, or the step at which it was created. -/
def lastSaved (st : WeightStore α) (s : System α) : ℕ :=
  s.checkpoints.head?.elim st.globalStep Checkpoint.globalStep

/-- Outside `submit` the last checkpoint is less than `interval` steps old, and no checkpoint
overwrites a newer one. -/
structure Fresh (interval : ℤ) (st : WeightStore α) (s : System α) : Prop where
  recent : (∀ t, (s.conns t).handler.InSubmit = false) →
    (s.store.globalStep : ℤ) - s.lastSaved st < interval
  ordered : s.checkpoints.Pairwise fun k k' => k'.globalStep ≤ k.globalStep
  since : ∀ k ∈ s.checkpoints, st.globalStep ≤ k.globalStep

/-! ### The invariant -/

/-- The thread will still look whether the newest step is to be saved, or is about to save. -/
def Carries (s : System α) (t : ConnId) : Prop :=
  (∃ r, (s.conns t).handler = .getStep r) ∨
    (s.conns t).handler.stepRead = some s.store.globalStep ∨ (s.conns t).handler = .checkpointSave

/-- The last checkpoint is recent, or a thread will see to it; and `last_checkpoint_step` is no
newer than the last checkpoint, or a thread is about to save. -/
structure FreshInv (env : ServerEnv α) (interval : ℤ) (st : WeightStore α) (s : System α) :
    Prop where
  framed : ∀ t k, (s.conns t).handler.stepRead = some k →
    ∃ bytes, frame env.pickle (.ack k) = .ok bytes
  start : st.globalStep ≤ s.store.globalStep
  read_le : ∀ t k, (s.conns t).handler.stepRead = some k → k ≤ s.store.globalStep
  last_le : s.agg.lastCheckpointStep ≤ s.store.globalStep
  noted : s.agg.lastCheckpointStep ≤ s.lastSaved st ∨
    ∃ t, (s.conns t).handler = .checkpointSave
  recent : (s.store.globalStep : ℤ) - s.lastSaved st < interval ∨ ∃ t, s.Carries t
  saved_le : ∀ k ∈ s.checkpoints, k.globalStep ≤ s.store.globalStep
  ordered : s.checkpoints.Pairwise fun k k' => k'.globalStep ≤ k.globalStep
  since : ∀ k ∈ s.checkpoints, st.globalStep ≤ k.globalStep

variable {interval : ℤ} {st : WeightStore α} {s : System α} {env : ServerEnv α}

lemma freshInv_init (env : ServerEnv α) (hint : 1 ≤ interval) (st : WeightStore α) (timeout : ℚ) :
    (init st timeout).FreshInv env interval st where
  framed _ _ h := by cases h
  start := le_rfl
  read_le _ _ h := by cases h
  last_le := le_rfl
  noted := Or.inl le_rfl
  recent := by
    left
    show (st.globalStep : ℤ) - st.globalStep < interval
    omega
  saved_le _ h := by cases h
  ordered := .nil
  since _ h := by cases h

lemma FreshInv.fresh (h : s.FreshInv env interval st) : s.Fresh interval st where
  recent hout := by
    rcases h.recent with hrec | ⟨t, ⟨r, hh⟩ | hk | hh⟩
    · exact hrec
    · have := hout t
      rw [hh] at this
      cases this
    · have := hout t
      cases hh : (s.conns t).handler <;> rw [hh] at hk this <;> cases hk <;> cases this
    · have := hout t
      rw [hh] at this
      cases this
  ordered := h.ordered
  since := h.since

end System

/-! ### Steps -/

variable [Scalar α] {env : ServerEnv α} {s s' : System α} {a : Action α} {st : WeightStore α}
  {cfg : AggregatorConfig} {t : ConnId}

namespace System

/-- A thread that carries the newest step goes on to, while the store stays at that step, unless the
last checkpoint turns out to be recent. -/
lemma FreshInv.carries_next (h : s.FreshInv env cfg.checkpointInterval st)
    (hcfg : env.config = some cfg) (hr : Rule env s a s') (hfit : s.AckFits env a)
    (hsave : s.SaveSucceeds a) (hstep : s'.store.globalStep = s.store.globalStep)
    (hcp : s'.checkpoints = s.checkpoints) (ht : s.Carries t) :
    (s.store.globalStep : ℤ) - s.lastSaved st < cfg.checkpointInterval ∨ ∃ u, s'.Carries u := by
  have hframed : s.Framed env a := ⟨hfit, h.framed⟩
  have hstays : ∀ u, (s.conns u).handler = .checkpointSave →
      (s'.conns u).handler = .checkpointSave := by
    intro u hu
    rcases hr.save_next hsave hu with hu | hu
    · exact hu
    · have := congrArg List.length (hcp.symm.trans hu)
      simp at this
  rcases ht with ⟨r, hh⟩ | hk | hh
  · rcases hr.getStep_next hframed hh with he | ⟨-, he⟩
    · exact Or.inr ⟨t, Or.inl ⟨r, he⟩⟩
    · exact Or.inr ⟨t, Or.inr (Or.inl (hstep ▸ he))⟩
  · rcases hr.stepRead_next hframed hk with he | hdue | he
    · exact Or.inr ⟨t, Or.inr (Or.inl (hstep ▸ he))⟩
    · -- the step noted last is recent, and so is its save, unless that is still to come
      have hlate : (s.store.globalStep : ℤ) - s.agg.lastCheckpointStep < cfg.checkpointInterval := by
        simpa [GradientAggregator.CheckpointDue, hcfg] using hdue
      rcases h.noted with hnoted | ⟨u, hu⟩
      · left
        omega
      · exact Or.inr ⟨u, Or.inr (Or.inr (hstays u hu))⟩
    · exact Or.inr ⟨t, Or.inr (Or.inr he)⟩
  · exact Or.inr ⟨t, Or.inr (Or.inr (hstays t hh))⟩

lemma FreshInv.step (h : s.FreshInv env cfg.checkpointInterval st) (hcfg : env.config = some cfg)
    (hint : 1 ≤ cfg.checkpointInterval) (hr : Rule env s a s') (hfit : s.AckFits env a)
    (hsave : s.SaveSucceeds a) : s'.FreshInv env cfg.checkpointInterval st := by
  have hframed : s.Framed env a := ⟨hfit, h.framed⟩
  have hle := hr.globalStep_le
  have hread : ∀ t k, (s'.conns t).handler.stepRead = some k → k ≤ s'.store.globalStep := by
    intro t k hk
    rcases hr.stepRead_of hk with hold | ⟨now, r, -, -, rfl⟩
    · exact (h.read_le t k hold).trans hle
    · exact hle
  have hlast : s'.agg.lastCheckpointStep ≤ s'.store.globalStep := by
    rcases hr.last_of with he | ⟨t, k, hk, -, he⟩
    · rw [he]
      exact h.last_le.trans hle
    · rw [he]
      exact (h.read_le t k hk).trans hle
  rcases hr.checkpoints_of with hcp | ⟨hcp, hst⟩
  · -- nothing is saved
    have hsaved : s'.lastSaved st = s.lastSaved st := by rw [lastSaved, lastSaved, hcp]
    refine ⟨fun t k hk => hr.framed_of hframed hk, h.start.trans hle, hread, hlast, ?_, ?_,
      fun k hk => (h.saved_le k (hcp ▸ hk)).trans hle, hcp ▸ h.ordered, hcp ▸ h.since⟩
    · rcases hr.last_of with he | ⟨t, k, -, hh, -⟩
      · rw [he, hsaved]
        refine h.noted.imp_right fun ⟨t, ht⟩ => ⟨t, ?_⟩
        rcases hr.save_next hsave ht with ht | ht
        · exact ht
        · have := congrArg List.length (hcp.symm.trans ht)
          simp at this
      · exact Or.inr ⟨t, hh⟩
    · rcases hr.globalStep_cases with ⟨hstep, -⟩ | ⟨t, r, happ⟩
      · rw [hsaved, hstep]
        rcases h.recent with hrec | ⟨t, ht⟩
        · exact Or.inl hrec
        · exact h.carries_next hcfg hr hfit hsave hstep hcp ht
      · exact Or.inr ⟨t, Or.inl ⟨r, happ.next⟩⟩
  · -- the store is saved as it is
    have hsaved : s'.lastSaved st = s'.store.globalStep := by
      rw [lastSaved, hcp, hst]
      rfl
    refine ⟨fun t k hk => hr.framed_of hframed hk, h.start.trans hle, hread, hlast, ?_, ?_,
      ?_, ?_, ?_⟩
    · rw [hsaved]
      exact Or.inl hlast
    · rw [hsaved]
      left
      omega
    · intro k hk
      rw [hcp] at hk
      rcases List.mem_cons.mp hk with rfl | hk
      · exact hle
      · exact (h.saved_le k hk).trans hle
    · rw [hcp]
      exact List.pairwise_cons.mpr ⟨h.saved_le, h.ordered⟩
    · intro k hk
      rw [hcp] at hk
      rcases List.mem_cons.mp hk with rfl | hk
      · exact h.start
      · exact h.since k hk

end System

/-- In every run in which saves succeed, whatever the clients send and in every mode, the last
checkpoint is less than `checkpoint_interval` steps old whenever no thread is inside `submit`, and
the file never goes back to an older step. -/
theorem checkpoints_fresh {timeout : ℚ} (hcfg : env.config = some cfg)
    (hint : 1 ≤ cfg.checkpointInterval)
    (h : Reach (System.step env) (fun s a _ => s.SaveSucceeds a ∧ s.AckFits env a)
      (.init st timeout) s) : s.Fresh cfg.checkpointInterval st := by
  have hinv : s.FreshInv env cfg.checkpointInterval st := by
    refine h.invariant (P := System.FreshInv env cfg.checkpointInterval st)
      (System.freshInv_init env hint st timeout) ?_
    intro s a s' hs hstep hok
    exact hs.step hcfg hint (System.rule_of_step hstep) hok.2 hok.1
  exact hinv.fresh

namespace Scenario

/-- A server that saves every two steps, with a quorum of one worker. -/
def savingEnv : ServerEnv ℚ := ⟨some ⟨1, 2⟩, id, ⟨fun _ => [], fun _ => none⟩⟩

/-- Two rounds overlap: both threads find a checkpoint due, and both save. -/
def savesTwice : List (Action ℚ) :=
  joins 0 ++ joins 1 ++ pushes 0 ++ pushes 1 ++ readsStep 0 ++ readsStep 1 ++ reports 0 ++
    reports 1 ++ [.run 0 0, .run 1 0, .run 0 0, .run 1 0, .run 1 0, .run 0 0]

end Scenario

open Scenario

/-- Both rounds have reported step 2 and have saved it. -/
theorem checkpoints_fresh_savesTwice : ∃ s, Reach (System.step savingEnv)
    (fun s a _ => s.SaveSucceeds a ∧ s.AckFits savingEnv a) start s ∧
      s.checkpoints.map Checkpoint.globalStep = [2, 2] ∧ s.Fresh 2 start.store := by
  obtain ⟨s, hreach, hcp⟩ := Reach.of_script (System.step savingEnv)
    (fun s a _ => s.SaveSucceeds a ∧ s.AckFits savingEnv a) start savesTwice
    (fun s a _ => decide (s.SaveSucceeds a) && decide (s.AckFits savingEnv a))
    (fun s a _ h => by simpa only [Bool.and_eq_true, decide_eq_true_eq] using h)
    (fun s : System ℚ => s.checkpoints.map Checkpoint.globalStep = [2, 2]) (by decide +kernel)
  have hconfig : savingEnv.config = some ⟨1, 2⟩ := rfl
  exact ⟨s, hreach, hcp, checkpoints_fresh hconfig (by decide) hreach⟩

end DistributedRL
