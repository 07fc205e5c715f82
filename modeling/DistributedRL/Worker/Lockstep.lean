import DistributedRL.Worker.Completion

/-!
# Workers in step

In synchronous mode the workers of a group go through their loops together, although none of them
looks at another one: the counters of any two differ by one at most, whoever trains holds the
weights of the store, and what is averaged in a round has been trained at one step of the schedule.
-/

namespace DistributedRL

variable {α 𝕂 : Type*} [Scalar α] [Field 𝕂] [LinearOrder 𝕂] {config : LrConfig 𝕂} {cosPi : 𝕂 → 𝕂}
  {env : ServerEnv α} {ids : ConnId → WorkerId} {s : Training α 𝕂} {members : Finset ConnId}
  {st : WeightStore α} {timeout : ℚ} {d : ConnId}

namespace Training

omit [Scalar α] in
/-- The counter of a worker, and that of the store, count the same iterations. -/
structure InStep (config : LrConfig 𝕂) (cosPi : 𝕂 → 𝕂) (members : Finset ConnId)
    (st : WeightStore α) (s : Training α 𝕂) : Prop where
  behind : ∀ d ∈ members,
    st.globalStep + (s.mains d).globalStep ≤ s.cluster.sys.store.globalStep ∧
      s.cluster.sys.store.globalStep ≤ st.globalStep + (s.mains d).globalStep + 1
  apart : ∀ d ∈ members, ∀ e ∈ members, (s.mains d).globalStep ≤ (s.mains e).globalStep + 1
  training : ∀ d ∈ members, (s.cluster.clients d).phase = .idle → (s.mains d).stage = .top →
    st.globalStep + (s.mains d).globalStep = s.cluster.sys.store.globalStep ∧
      (s.cluster.clients d).base = some s.cluster.sys.store.weights
  averaged : ∀ t r, (s.cluster.sys.conns t).handler = .apply r → ∀ δ ∈ r.deltas,
    st.globalStep + (s.mains δ.conn).globalStep = s.cluster.sys.store.globalStep ∧
      (s.mains δ.conn).rates.getLast? = some (config.rate cosPi (s.mains δ.conn).globalStep)

omit [Scalar α] in
/-- A worker has gone through as many iterations as there have been rounds, or through one less: its
push has been averaged, and it has not pulled since. -/
lemma RunInv.behind (h : s.RunInv config cosPi members st) (hd : d ∈ members) :
    (s.mains d).globalStep ≤ s.cluster.sys.history.applied.length ∧
      s.cluster.sys.history.applied.length ≤ (s.mains d).globalStep + 1 := by
  have hacks := (h.loops d).acks
  rw [h.counts.rounds d hd, Cluster.rounds]
  by_cases ha : s.cluster.Ahead d
  · obtain ⟨step, g, hq⟩ : ∃ step g, (s.cluster.clients d).phase =
        .waiting (.pushGradients step g) := by
      have hpush := ha.1
      cases hp : (s.cluster.clients d).phase with
      | waiting q =>
        rw [hp] at hpush
        cases q with
        | pushGradients step g => exact ⟨step, g, rfl⟩
        | _ => cases hpush
      | _ => rw [hp] at hpush; cases hpush
    have htop : (s.mains d).stage = .top := (h.loops d).waiting _ hq
    rw [if_pos ha]
    simp only [htop, reduceCtorEq, or_self, if_false] at hacks
    omega
  · rw [if_neg ha]
    split_ifs at hacks <;> omega

/-- A worker between two calls at the top of its loop holds the weights of the store. -/
lemma RunInv.training (h : s.RunInv config cosPi members st) (hold : s.HoldInv)
    (hs : s.cluster.Synchronous env ids) (hd : d ∈ members)
    (hp : (s.cluster.clients d).phase = .idle) (htop : (s.mains d).stage = .top) :
    st.globalStep + (s.mains d).globalStep = s.cluster.sys.store.globalStep ∧
      (s.cluster.clients d).base = some s.cluster.sys.store.weights := by
  constructor
  · have hacks := (h.loops d).acks
    simp only [htop, reduceCtorEq, or_self, if_false, Nat.add_zero] at hacks
    rw [h.counts.globalStep, h.counts.rounds d hd, Cluster.rounds_of_not_pushing (by rw [hp]; rfl),
      hacks]
  · obtain ⟨w, hw⟩ := Option.ne_none_iff_exists'.mp (hold.top d hp htop)
    rcases hs.fresh.base d w hw with rfl | ⟨⟨step, g, hq⟩, -⟩
    · exact hw
    · rw [hp] at hq
      cases hq

omit [Scalar α] in
/-- A worker whose push has not been averaged has gone through as many iterations as there have been
rounds, and the last learning rate that it has set is that of the iteration it is in. -/
lemma RunInv.level (h : s.RunInv config cosPi members st) (hd : d ∈ members) {δ : Delta α}
    (hpush : (s.cluster.clients d).Pushing d δ) (hnew : δ.id ∉ s.cluster.sys.averaged) :
    st.globalStep + (s.mains d).globalStep = s.cluster.sys.store.globalStep ∧
      (s.mains d).rates.getLast? = some (config.rate cosPi (s.mains d).globalStep) := by
  obtain ⟨hid, step, g, hq, -⟩ := hpush
  have hahead : ¬ s.cluster.Ahead d := fun ha => hnew (hid ▸ ha.2)
  have htop : (s.mains d).stage = .top := (h.loops d).waiting _ hq
  have hacks := (h.loops d).acks
  simp only [htop, reduceCtorEq, or_self, if_false, Nat.add_zero] at hacks
  have hpushes : (s.cluster.clients d).pushes = (s.mains d).globalStep + 1 := by
    rw [Client.pushes, hacks, hq]
    rfl
  constructor
  · rw [h.counts.globalStep, h.counts.rounds d hd, Cluster.rounds, if_neg hahead, hacks]
    rfl
  · rw [(h.loops d).rates, hpushes, List.range_succ, List.map_append]
    simp

/-- In every run of a group of workers in synchronous mode, the workers stay in step with the store
and so with each other. -/
theorem in_step (hids : Function.Injective ids) (hp : env.pickle.Lawful)
    (hsync : GradientAggregator.minReady env.config ≤ 0) (hmax : 0 ≤ config.maxSteps)
    (h : Reach (step config cosPi env ids) (Together members) (.init 𝕂 st timeout) s) :
    s.InStep config cosPi members st := by
  have hi := runInv_of_reach hids hp hsync hmax h
  obtain ⟨hs, hg⟩ := Cluster.group_of_reach hids hp hsync (cluster_of_reach h) id
  have hold : s.HoldInv := h.invariant_reach holdInv_init fun hr hi hstep _ =>
    hi.step (Cluster.group_of_reach hids hp hsync (cluster_of_reach hr) id).1.tracked.sound hp hstep
  refine ⟨?_, ?_, ?_, ?_⟩
  · intro d hd
    obtain ⟨hle, hge⟩ := hi.behind hd
    rw [hi.counts.globalStep]
    omega
  · intro d hd e he
    exact (hi.behind hd).1.trans (hi.behind he).2
  · intro d hd hidle htop
    exact hi.training hold hs hd hidle htop
  · intro t r hh δ hδ
    have hpush := (hs.tracked.pushes.pending t r hh δ hδ).2
    have hmem : δ.conn ∈ members := by
      obtain ⟨-, step, g, hq, -⟩ := hpush
      exact hg.present δ.conn (by rw [hq]; simp)
    refine hi.level hmem hpush ?_
    exact hs.tracked.deltas.pending_averaged t _ ⟨r, hh, List.mem_map_of_mem hδ⟩

end Training

/-! ### A run -/

namespace Scenario

/-- Worker `0` is in its second iteration while worker `1` waits for the ACK of its first push. -/
def oneAhead : List (ClusterAction ℚ) :=
  pulls 0 0 ++ pulls 1 0 ++ calls 0 (push 1) ++ runs 0 1 ++ calls 1 (push 3) ++ runs 1 3 ++
    sends 1 0 (.ack 1) ++ calls 0 .pullWeights ++ runs 0 1 ++
    sends 0 0 (.weightsResponse (single (-2)))

end Scenario

open Scenario

/-- Worker `0` is one iteration ahead. -/
theorem in_step_oneAhead :
    ∃ s, Reach (Training.step twoSteps id (wireEnv 0) ownId) (Training.Together {0, 1})
        (.init ℚ (.init (single 0) 1 0) 30) s ∧
      (s.mains 0).globalStep = 1 ∧ (s.mains 1).globalStep = 0 ∧
      s.InStep twoSteps id {0, 1} (.init (single 0) 1 0) := by
  obtain ⟨s, hreach, h0, h1⟩ := Reach.of_script
    (Training.step twoSteps id (wireEnv 0) ownId) (Training.Together {0, 1})
    (.init ℚ (.init (single 0) 1 0) 30) oneAhead (together {0, 1}) (fun _ _ _ => together_sound)
    (fun s : Training ℚ ℚ => (s.mains 0).globalStep = 1 ∧ (s.mains 1).globalStep = 0)
    (by decide +kernel)
  exact ⟨s, hreach, h0, h1, Training.in_step ownId_injective (wireEnv_lawful 0) (by decide)
    (by decide) hreach⟩

end DistributedRL
