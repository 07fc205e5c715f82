import DistributedRL.Server.Scenario

/-!
# The barrier and departures

`submit` is the only place where a round can fire. A departing worker shrinks the set the round
waits for and does not look at the round again, so the last worker it waited for can leave it
complete and never fired. This module states which departures, time-outs and pushes keep the
barrier live, and shows that they do.
-/

namespace DistributedRL

variable {α : Type*}

/-! ### The live barrier -/

/-- The thread is inside `submit`, after its locked part, or in the `finally` block. -/
def Handler.Busy : Handler α → Bool
  | .apply _ | .getStep _ | .acks .. | .emit .. | .checkpoint _ | .checkpointAssign _
  | .checkpointSave | .markDead | .unregister | .close => true
  | _ => false

/-- The thread is in the `finally` block and has not unregistered its worker yet. -/
def Handler.Leaving : Handler α → Bool
  | .markDead | .unregister => true
  | _ => false

lemma Handler.busy_of_leaving {h : Handler α} (hl : h.Leaving) : h.Busy := by
  cases h <;> simp_all [Leaving, Busy]

namespace System

/-- No thread is inside `submit` or the cleanup block. -/
def AtRest (s : System α) : Prop := ∀ c, ¬ (s.conns c).handler.Busy

/-- A worker whose delta is buffered waits for another one that can still push. -/
def BarrierLive (s : System α) : Prop :=
  s.agg.buffer.keys = [] ∨ ∃ w, s.agg.Waits s.hb w

/-- The ALIVE workers that are in the buffer once `w` is. -/
def readyWith (s : System α) (w : WorkerId) : ℕ :=
  ((s.agg.buffer.keys.insert w).filter (· ∈ s.hb.aliveWorkers)).length

/-- The condition on one step under which it keeps the barrier live. A departure or a time-out
must leave another cleanup under way, or nobody in the buffer, or a worker that the round still
waits for; so must, in quorum mode, a push that does not reach the quorum. -/
def KeepsBarrier (env : ServerEnv α) (s : System α) : Action α → Prop
  | .scan now =>
    (∃ d, (s.conns d).handler.Leaving) ∨ s.agg.buffer.keys = [] ∨
      ∃ v, s.agg.Waits s.hb v ∧ ¬ s.hb.Silent now v
  | .run c _ =>
    match (s.conns c).handler, (s.conns c).workerId with
    | .unregister, some w =>
      (∃ d ≠ c, (s.conns d).handler.Leaving) ∨ (∀ v ∈ s.agg.buffer.keys, v = w) ∨
        ∃ v ≠ w, s.agg.Waits s.hb v
    | .dispatch m, some w =>
      m.type = .pushGradients → (∃ g, m.gradients = some (.dict g)) →
        0 < GradientAggregator.minReady env.config →
          (s.readyWith w : ℤ) < GradientAggregator.minReady env.config →
            (∃ d, (s.conns d).handler.Leaving) ∨ ∃ v ≠ w, s.agg.Waits s.hb v
    | _, _ => True
  | _ => True

/-- The invariant: a cleanup is under way, or the barrier is live. -/
def BarrierInv (s : System α) : Prop :=
  (∃ d, (s.conns d).handler.Leaving) ∨ s.BarrierLive

lemma BarrierInv.live {s : System α} (h : s.BarrierInv) (hr : s.AtRest) : s.BarrierLive := by
  rcases h with ⟨d, hd⟩ | h
  · exact absurd (Handler.busy_of_leaving hd) (hr d)
  · exact h

end System

/-! ### Steps -/

variable [Scalar α] {env : ServerEnv α} {s s' : System α} {a : Action α}

/-- A thread leaves the first part of its cleanup only by unregistering. -/
lemma Rule.leaving {d : ConnId} (h : Rule env s a s') (hd : (s.conns d).handler.Leaving) :
    (s'.conns d).handler.Leaving ∨
      (∃ now, a = .run d now) ∧ (s.conns d).handler = .unregister := by
  by_cases ha : a.conn = some d
  · cases h <;> cases ha <;> simp_all [Handler.Leaving]
  · rw [h.handler_of_ne ha]
    exact Or.inl hd

omit [Scalar α] in
/-- A worker that the round waits for is waited for until it pushes, leaves or is marked DEAD. -/
lemma System.BarrierInv.frame (hs : s.BarrierInv)
    (hl : ∀ d, (s.conns d).handler.Leaving → (s'.conns d).handler.Leaving)
    (hbuf : s'.agg.buffer = s.agg.buffer)
    (hw : ∀ w, s.agg.Waits s.hb w → s'.agg.Waits s'.hb w) : s'.BarrierInv := by
  rcases hs with ⟨d, hd⟩ | hempty | ⟨w, h⟩
  · exact Or.inl ⟨d, hl d hd⟩
  · exact Or.inr (Or.inl (hbuf ▸ hempty))
  · exact Or.inr (Or.inr ⟨w, hw w h⟩)

omit [Scalar α] in
lemma GradientAggregator.readyCount_enter {agg : GradientAggregator α} {hb : HeartbeatMonitor}
    {w : WorkerId} {δ : Delta α} {norm : α} :
    (agg.enter w δ norm).readyCount hb =
      ((agg.buffer.keys.insert w).filter (· ∈ hb.aliveWorkers)).length := by
  have hk : (agg.enter w δ norm).buffer.keys =
      if w ∈ agg.buffer.keys then agg.buffer.keys else agg.buffer.keys ++ [w] := Dict.keys_set ..
  rw [readyCount, hk]
  split_ifs with h
  · rw [List.insert_of_mem h]
  · rw [List.insert_of_not_mem h]
    exact ((List.perm_append_singleton w _).filter _).length_eq

omit [Scalar α] in
/-- A worker waited for after a push was waited for before it, and is not the one that pushed. -/
lemma GradientAggregator.waits_enter {agg : GradientAggregator α} {hb : HeartbeatMonitor}
    {w v : WorkerId} {δ : Delta α} {norm : α} :
    (agg.enter w δ norm).Waits hb v ↔ agg.Waits hb v ∧ v ≠ w := by
  simp only [Waits, sockets_enter, mem_buffer_enter, not_or]
  tauto

/-- The step lemma: a step that meets the condition keeps the invariant. -/
lemma Rule.barrierInv (h : Rule env s a s') (hs : s.BarrierInv) (hk : s.KeepsBarrier env a) :
    s'.BarrierInv := by
  have hl := fun d => h.leaving (d := d)
  cases h
  case scan now =>
    -- the monitor takes the silent workers out of the waiting set
    rcases hk with hd | hempty | ⟨v, ⟨hreg, halive, hbuf⟩, hnot⟩
    · exact Or.inl hd
    · exact Or.inr (Or.inl hempty)
    · exact Or.inr (Or.inr ⟨v, hreg, HeartbeatMonitor.alive_scan.mpr ⟨halive, hnot⟩, hbuf⟩)
  case unregister c now w h hw =>
    simp only [System.KeepsBarrier, h, hw] at hk
    rcases hk with ⟨d, hne, hd⟩ | hall | ⟨v, hne, hreg, halive, hbuf⟩
    · refine Or.inl ⟨d, ?_⟩
      simpa [hne] using hd
    · refine Or.inr (Or.inl (List.eq_nil_iff_forall_not_mem.mpr ?_))
      intro v hv
      obtain ⟨hv, hne⟩ := Dict.mem_keys_erase.mp hv
      exact hne (hall v hv)
    · refine Or.inr (Or.inr ⟨v, ?_, halive, ?_⟩)
      · exact Dict.mem_keys_erase.mpr ⟨hreg, hne⟩
      · intro hv
        exact hbuf (Dict.mem_keys_erase.mp hv).1
  case buffered c now m w g norm h hw ht hg hn hsub =>
    by_cases hsync : GradientAggregator.minReady env.config ≤ 0
    · -- the round has not fired because it waits for somebody
      rw [GradientAggregator.shouldApply_sync hsync] at hsub
      push Not at hsub
      exact Or.inr (Or.inr hsub)
    · simp only [System.KeepsBarrier, h, hw] at hk
      rw [GradientAggregator.ShouldApply, if_neg hsync,
        GradientAggregator.readyCount_enter] at hsub
      have hdict : ∃ grads, m.gradients = some (.dict grads) := by
        cases g with
        | dict grads => exact ⟨grads, hg⟩
        | mixed _ _ => cases hn
        | other => cases hn
      rcases hk ht hdict (not_le.mp hsync) (not_le.mp hsub) with ⟨d, hd⟩ | ⟨v, hne, hv⟩
      · rcases hl d hd with hd' | ⟨⟨_, ha⟩, hu⟩
        · exact Or.inl ⟨d, hd'⟩
        · cases ha
          simp [h] at hu
      · exact Or.inr (Or.inr ⟨v, GradientAggregator.waits_enter.mpr ⟨hv, hne⟩⟩)
  case fired => exact Or.inr (Or.inl rfl)
  case raised c now m w g e h hw ht hg hn =>
    -- the thread whose delta could not be measured is on its way out
    exact Or.inl ⟨c, by simp [System.exit, hw, Handler.Leaving]⟩
  case markDead c now w h hw =>
    exact Or.inl ⟨c, by simp [Handler.Leaving]⟩
  all_goals
    refine hs.frame ?_ rfl ?_
    · intro d hd
      rcases hl d hd with hd' | ⟨⟨_, ha⟩, hu⟩
      · exact hd'
      · cases ha <;> simp_all
    · intro v hv
      obtain ⟨hreg, halive, hbuf⟩ := hv
      refine ⟨?_, ?_, hbuf⟩
      · first | exact hreg | exact Dict.mem_keys_set.mpr (Or.inr hreg)
      · first | exact halive | exact HeartbeatMonitor.alive_register.mpr (Or.inr halive)

/-! ### Runs -/

/-- In every run whose steps meet the condition, at every state at rest, a non-empty buffer still
waits for a registered ALIVE worker. -/
theorem barrier_live {st : WeightStore α} {timeout : ℚ}
    (h : Reach (System.step env) (fun s a _ => s.KeepsBarrier env a) (.init st timeout) s)
    (hr : s.AtRest) : s.BarrierLive := by
  refine System.BarrierInv.live (h.invariant (P := System.BarrierInv) ?_ ?_) hr
  · exact Or.inr (Or.inl rfl)
  · intro s a s' hs hstep hk
    exact (System.rule_of_step hstep).barrierInv hs hk

/-! ### Two runs -/

namespace Scenario

/-- Worker `c` connects over connection `c` and pulls. -/
def joins (c : ConnId) : List (Action ℚ) :=
  connect c c .pullWeights ++ [.run c 0, .write c 4]

/-- Two workers join, the first pushes, and the second hangs up. -/
def departs : List (Action ℚ) :=
  joins 0 ++ joins 1 ++ request 0 0 (push 1) ++ [.run 0 0] ++ leave 1

/-- Three workers join, the first pushes, and the second hangs up while the third computes. -/
def departsEarly : List (Action ℚ) :=
  joins 0 ++ joins 1 ++ joins 2 ++ request 0 0 (push 1) ++ [.run 0 0] ++ leave 1

/-- A check that implies `KeepsBarrier` in synchronous mode: no scans, and whoever unregisters
leaves a worker that is waited for. -/
def keepsBarrier (s : System ℚ) : Action ℚ → Bool
  | .scan _ => false
  | .run c _ =>
    match (s.conns c).handler, (s.conns c).workerId with
    | .unregister, some w => s.agg.sockets.keys.any fun v => v ≠ w ∧ s.agg.Waits s.hb v
    | _, _ => true
  | _ => true

lemma keepsBarrier_sound {s : System ℚ} {a : Action ℚ} (h : keepsBarrier s a = true) :
    s.KeepsBarrier syncEnv a := by
  cases a with
  | scan now => cases h
  | run c now =>
    simp only [keepsBarrier] at h
    simp only [System.KeepsBarrier]
    split at h
    · next w hu hw =>
      simp only [hu, hw]
      obtain ⟨v, -, hv⟩ := List.any_eq_true.mp h
      obtain ⟨hne, hv⟩ := of_decide_eq_true hv
      exact Or.inr (Or.inr ⟨v, hne, hv⟩)
    · split
      · simp_all
      · intro _ _ hpos
        exact absurd hpos (lt_irrefl _)
      · trivial
  | _ => trivial

end Scenario

open Scenario

/-- The delta of worker `0` stays in the buffer: the other worker has left, nobody is inside
`submit`, and nobody is waited for. -/
theorem barrier_stalls :
    ∃ s, Reach (System.step syncEnv) (fun _ a _ => a.below 2 = true) start s ∧
      s.AtRest ∧ ¬ s.BarrierLive := by
  obtain ⟨s, hreach, hbusy, hbuf, hsock⟩ :=
    Reach.of_script (System.step syncEnv) (fun _ a _ => a.below 2 = true) start departs
      (fun _ a _ => a.below 2) (fun _ _ _ h => h)
      (fun s : System ℚ => (∀ c < (2 : ℕ), ¬ (s.conns c).handler.Busy) ∧ s.agg.buffer.keys = [0] ∧
        s.agg.sockets.keys = [0])
      (by decide +kernel)
  have hrest : s.AtRest := forall_handler_of_scripted (P := fun h => ¬ h.Busy) hreach id
    (by simp [Handler.Busy]) hbusy
  refine ⟨s, hreach, hrest, ?_⟩
  rintro (hempty | ⟨w, hreg, -, hnot⟩)
  · rw [hbuf] at hempty
    cases hempty
  · rw [hbuf] at hnot
    rw [hsock] at hreg
    exact hnot hreg

/-- A departure that leaves a worker to wait for keeps the barrier live. -/
theorem barrier_live_departsEarly :
    ∃ s, Reach (System.step syncEnv) (fun s a _ => s.KeepsBarrier syncEnv a) start s ∧
      s.AtRest ∧ s.agg.buffer.keys = [0] ∧ s.BarrierLive := by
  obtain ⟨s, hreach, hbusy, hbuf⟩ :=
    Reach.of_script (System.step syncEnv)
      (fun s a _ => s.KeepsBarrier syncEnv a ∧ a.below 3 = true) start departsEarly
      (fun s a _ => keepsBarrier s a && a.below 3)
      (fun s a _ h => by
        obtain ⟨hk, hb⟩ := Bool.and_eq_true_iff.mp h
        exact ⟨keepsBarrier_sound hk, hb⟩)
      (fun s : System ℚ => (∀ c < (3 : ℕ), ¬ (s.conns c).handler.Busy) ∧ s.agg.buffer.keys = [0])
      (by decide +kernel)
  have hrun := hreach.mono fun h => h.1
  have hrest : s.AtRest := forall_handler_of_scripted (P := fun h => ¬ h.Busy) hreach
    (fun h => h.2) (by simp [Handler.Busy]) hbusy
  exact ⟨s, hrun, hrest, hbuf, barrier_live hrun hrest⟩

end DistributedRL
