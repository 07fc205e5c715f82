import DistributedRL.Server.Freshness
import DistributedRL.Worker.Steady

/-!
# Failed saves

An `OSError` of `save_checkpoint` leaves `submit` and arrives at the `except` clause of
`handle_worker`, which takes it for the end of the connection: the worker whose push has completed
the round is marked DEAD and unregistered, and its socket is closed. By then `last_checkpoint_step`
names the step that has not been saved.
-/

namespace DistributedRL

variable {α : Type*}

namespace System

/-- `last_checkpoint_step` names a step that has been saved, or the one at which the aggregator was
created. -/
def NotesSaved (st : WeightStore α) (s : System α) : Prop :=
  s.agg.lastCheckpointStep = st.globalStep ∨
    ∃ k ∈ s.checkpoints, k.globalStep = s.agg.lastCheckpointStep

/-- The save that the thread of `c` has attempted in `s` has raised, which has led to `s'`: the
round stands, the thread serves its worker on, and the step noted is one that has been saved. -/
structure FailsHarmlessly (st : WeightStore α) (s : System α) (c : ConnId) (s' : System α) :
    Prop where
  store : s'.store = s.store
  history : s'.history = s.history
  written : ∀ d, (s'.conns d).written = (s.conns d).written
  serves : (s'.conns c).handler.Leaving = false
  notes : s'.NotesSaved st

/-- What a failed save does to the worker `w` of the thread: by the next three steps of the thread
it is marked DEAD and unregistered, and its socket is closed. -/
structure Drops [Scalar α] (env : ServerEnv α) (s : System α) (c : ConnId) (w : WorkerId) :
    Prop where
  leaves : ∃ s₁, s.step env (.run c 0) = some s₁ ∧ s₁.hb.status.get? w = some .dead ∧
    ∃ s₂, s₁.step env (.run c 0) = some s₂ ∧ s₂.agg.sockets.get? w = none ∧
    ∃ s₃, s₂.step env (.run c 0) = some s₃ ∧ (s₃.conns c).handler = .done

end System

/-! ### Steps -/

variable [Scalar α] {env : ServerEnv α} {s s' : System α} {c : ConnId} {st : WeightStore α}
  {w : WorkerId}

/-- Every thread inside `submit` knows its worker. -/
lemma System.identified_of_reach {ok : System α → Action α → System α → Prop} {timeout : ℚ}
    (h : Reach (System.step env) ok (.init st timeout) s)
    (hn : (s.conns c).handler.Nameless = false) : ∃ w, (s.conns c).workerId = some w := by
  have hinv : (s.conns c).workerId = none → (s.conns c).handler.Nameless := by
    refine h.invariant (P := fun s => (s.conns c).workerId = none → (s.conns c).handler.Nameless)
      (fun _ => rfl) ?_
    intro s a s' ih hstep _
    exact (System.rule_of_step hstep).nameless ih
  cases hw : (s.conns c).workerId with
  | some w => exact ⟨w, rfl⟩
  | none =>
    rw [hinv hw] at hn
    cases hn

namespace System

lemma step_saveFail (env : ServerEnv α) (hc : (s.conns c).handler = .checkpointSave) :
    s.step env (.fail c) = some (s.quit c) := by
  simp only [step, osError, hc]

lemma step_markDead (env : ServerEnv α) (hc : (s.conns c).handler = .markDead)
    (hw : (s.conns c).workerId = some w) :
    s.step env (.run c 0) = some ({ s with hb := s.hb.markDead w }.goto c .unregister) := by
  simp only [step, advance, hc, hw]

lemma step_unregister (env : ServerEnv α) (hc : (s.conns c).handler = .unregister)
    (hw : (s.conns c).workerId = some w) :
    s.step env (.run c 0) = some ({ s with agg := s.agg.unregister w }.goto c .close) := by
  simp only [step, advance, hc, hw]

lemma step_close (env : ServerEnv α) (hc : (s.conns c).handler = .close) :
    s.step env (.run c 0) = some (s.goto c .done) := by
  simp only [step, advance, hc]

/-- The `finally` block of a thread that knows its worker. -/
lemma drops_of_markDead (env : ServerEnv α) (hc : (s.conns c).handler = .markDead)
    (hw : (s.conns c).workerId = some w) : s.Drops env c w := by
  have hmark := step_markDead env hc hw
  have hunreg : System.step env _ (.run c 0) = some _ :=
    step_unregister (s := { s with hb := s.hb.markDead w }.goto c .unregister) (w := w) env
      (by simp) (by simpa using hw)
  refine ⟨_, hmark, by simp [HeartbeatMonitor.markDead], _, hunreg, by simp, _,
    step_close env (by simp), by simp⟩

end System

/-! ### The exception -/

/-- A save that raises is never harmless: the round stands and its ACKs with it, but the worker whose
push has completed it is dropped. -/
theorem failed_save_drops {ok : System α → Action α → System α → Prop} {timeout : ℚ}
    (h : Reach (System.step env) ok (.init st timeout) s)
    (hc : (s.conns c).handler = .checkpointSave) (hs : s.step env (.fail c) = some s') :
    ¬ s.FailsHarmlessly st c s' ∧ s'.store = s.store ∧ s'.history = s.history ∧
      (∀ d, (s'.conns d).written = (s.conns d).written) ∧
      ∃ w, (s.conns c).workerId = some w ∧ s'.Drops env c w := by
  obtain ⟨w, hw⟩ := System.identified_of_reach h (c := c) (by rw [hc]; rfl)
  rw [System.step_saveFail env hc] at hs
  obtain rfl := Option.some.inj hs
  have hexit : ((s.quit c).conns c).handler = .markDead := by simp [System.exit, hw]
  refine ⟨?_, rfl, rfl, ?_, w, hw, ?_⟩
  · intro hharm
    have hserves := hharm.serves
    rw [hexit] at hserves
    cases hserves
  · intro d
    simp
  · exact System.drops_of_markDead env hexit (by simpa using hw)

namespace Scenario

/-- A round of the worker of `c` and all that follows it up to the check for a checkpoint. -/
def round (c : ConnId) : List (Action ℚ) := pushes c ++ readsStep c ++ reports c ++ [.run c 0]

/-- The second round of worker `0` is due for a checkpoint: it stands before the write. -/
def savesSecond : List (Action ℚ) := joins 0 ++ joins 1 ++ round 0 ++ round 0 ++ [.run 0 0]

/-- The thread of connection `0` is about to save. -/
def saves (s : System ℚ) : Bool := (s.conns 0).handler matches .checkpointSave

lemma handler_of_saves {s : System ℚ} (h : saves s = true) :
    (s.conns 0).handler = .checkpointSave := by
  unfold saves at h
  split at h
  · assumption
  · cases h

end Scenario

open Scenario

/-- Step 2 is noted and no checkpoint exists. -/
theorem failed_save_noted : ∃ s s', Reach (System.step savingEnv) (fun _ _ _ => True) start s ∧
    (s.conns 0).handler = .checkpointSave ∧ s.step savingEnv (.fail 0) = some s' ∧
      s'.agg.lastCheckpointStep = 2 ∧ s'.checkpoints = [] ∧
      ¬ s.FailsHarmlessly start.store 0 s' := by
  obtain ⟨s, hreach, hs, hlast, hnone⟩ := Reach.of_script (System.step savingEnv)
    (fun _ _ _ => True) start savesSecond (fun _ _ _ => true) (fun _ _ _ _ => trivial)
    (fun s : System ℚ => saves s = true ∧ s.agg.lastCheckpointStep = 2 ∧
      s.checkpoints.isEmpty = true) (by decide +kernel)
  have hcp := List.isEmpty_iff.1 hnone
  refine ⟨s, s.quit 0, hreach, handler_of_saves hs,
    System.step_saveFail savingEnv (handler_of_saves hs), hlast, hcp, ?_⟩
  intro hharm
  rcases hharm.notes with hstart | ⟨k, hk, -⟩
  · have htwo : (2 : ℕ) = 0 := hlast.symm.trans hstart
    cases htwo
  · have hmem : k ∈ s.checkpoints := hk
    simp [hcp] at hmem

/-- Worker `0` is dropped after its second round. -/
theorem failed_save_drops_second : ∃ s s',
    Reach (System.step savingEnv) (fun _ _ _ => True) start s ∧
      s.step savingEnv (.fail 0) = some s' ∧ s'.store.globalStep = 2 ∧
      ∃ w, (s.conns 0).workerId = some w ∧ s'.Drops savingEnv 0 w := by
  obtain ⟨s, hreach, hs, hstep⟩ := Reach.of_script (System.step savingEnv)
    (fun _ _ _ => True) start savesSecond (fun _ _ _ => true) (fun _ _ _ _ => trivial)
    (fun s : System ℚ => saves s = true ∧ s.store.globalStep = 2) (by decide +kernel)
  have hfail := System.step_saveFail savingEnv (handler_of_saves hs)
  have hdrops := failed_save_drops hreach (handler_of_saves hs) hfail
  exact ⟨s, s.quit 0, hreach, hfail, hstep, hdrops.2.2.2.2⟩

end DistributedRL
