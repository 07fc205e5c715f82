import DistributedRL.Worker.Completion
import Mathlib.Data.Finset.Card

/-!
# The quorum of all workers

With a quorum of as many workers as there are, the server takes the same steps as in synchronous
mode: a push that completes the quorum is the one that nobody is waited for after. What holds of the
runs in synchronous mode holds of the runs with that quorum too.
-/

namespace DistributedRL

variable {α : Type*}

/-- The server with another quorum. -/
def ServerEnv.withQuorum (env : ServerEnv α) (n : ℤ) : ServerEnv α :=
  { env with config := env.config.map fun cfg => { cfg with minReadyWorkers := n } }

variable [Scalar α] {env : ServerEnv α} {ids : ConnId → WorkerId} {s : Cluster α}
  {members : Finset ConnId} {c : ConnId} {n : ℤ}

omit [Scalar α] in
lemma checkpointDue_withQuorum (agg : GradientAggregator α) (step : ℕ) :
    agg.CheckpointDue (env.withQuorum n).config step ↔ agg.CheckpointDue env.config step := by
  cases h : env.config <;> simp [GradientAggregator.CheckpointDue, ServerEnv.withQuorum, h]

/-- The quorum makes a difference only where a push is submitted. -/
lemma System.step_withQuorum {s : System α}
    (h : ∀ {b c w g}, s.Submits b c w g → ∀ norm,
      ((s.agg.enter w (s.delta c g) norm).ShouldApply (env.withQuorum n).config s.hb ↔
        (s.agg.enter w (s.delta c g) norm).ShouldApply env.config s.hb)) (a : Action α) :
    s.step (env.withQuorum n) a = s.step env a := by
  cases a with
  | run c now =>
    show s.advance (env.withQuorum n) c now = s.advance env c now
    cases hh : (s.conns c).handler with
    | dispatch m =>
      cases hw : (s.conns c).workerId with
      | none => simp only [advance, hh, hw]
      | some w =>
        simp only [advance, hh, hw, dispatch]
        cases ht : m.type with
        | pushGradients =>
          cases hg : m.gradients with
          | none => rfl
          | some g =>
            have hsub : s.Submits (.run c now) c w g := ⟨⟨now, rfl⟩, ⟨m, hh, ht, hg⟩, hw⟩
            have hsqrt : (env.withQuorum n).sqrt = env.sqrt := rfl
            simp only [Option.elim_some, submit, GradientAggregator.submit, hsqrt]
            cases gradNorm env.sqrt (s.delta c g).grads with
            | error e => rfl
            | ok norm => simp only [h hsub norm]
        | _ => rfl
    | checkpoint step => simp only [advance, hh, checkpointDue_withQuorum]
    | _ => cases hw : (s.conns c).workerId <;> simp only [advance, hh, hw] <;> rfl
  | _ => rfl

namespace Cluster

/-- The ids of the members are those that are registered, once all members are. -/
lemma Sane.keys_eq (h : s.Sane env ids members) (hg : s.Gathered members) :
    s.sys.agg.sockets.keys.toFinset = members.image ids := by
  have hsound := h.sync.tracked.sound
  ext w
  rw [List.mem_toFinset, Finset.mem_image, Dict.mem_keys_iff]
  constructor
  · rintro ⟨d, hd⟩
    exact ⟨d, h.group.present d (h.healthy.seats w d hd), (hsound.key hd).symm⟩
  · rintro ⟨d, hd, rfl⟩
    obtain ⟨w, hw⟩ := Dict.mem_values_iff.mp (hg d hd)
    exact ⟨d, hsound.key hw ▸ hw⟩

/-- When a push is submitted, a quorum of all members is reached where no registered worker is
waited for. -/
lemma Sane.shouldApply_iff (h : s.Sane env ids members) (hids : Function.Injective ids)
    (hsync : GradientAggregator.minReady env.config ≤ 0) {cfg : AggregatorConfig}
    (hconfig : env.config = some cfg) (hcard : (members.card : ℤ) = n) {b : Action α} {w : WorkerId}
    {g : Payload α} (hsub : s.sys.Submits b c w g) (norm : α) :
    (s.sys.agg.enter w (s.sys.delta c g) norm).ShouldApply (env.withQuorum n).config s.sys.hb ↔
      (s.sys.agg.enter w (s.sys.delta c g) norm).ShouldApply env.config s.sys.hb := by
  have hsound := h.sync.tracked.sound
  obtain ⟨rfl, -, step, g', hq, -⟩ := hsound.pushing_of_submits hsub
  have hmem : c ∈ members := h.group.present c (by rw [hq]; simp)
  have hkeys := h.keys_eq (h.group.pushed c step g' hq).1
  set agg := s.sys.agg.enter (ids c) (s.sys.delta c g) norm with hagg
  have hreg : ∀ v ∈ agg.buffer.keys, v ∈ agg.sockets.keys := by
    intro v hv
    rcases GradientAggregator.mem_buffer_enter.mp hv with rfl | hv
    · rw [hagg, GradientAggregator.sockets_enter, ← List.mem_toFinset, hkeys]
      exact Finset.mem_image_of_mem ids hmem
    · exact hsound.entries v hv
  have halive : ∀ v ∈ agg.sockets.keys, v ∈ s.sys.hb.aliveWorkers := h.sync.steady.alive
  have hready : agg.readyCount s.sys.hb = agg.buffer.keys.toFinset.card := by
    rw [GradientAggregator.readyCount, List.filter_eq_self.mpr fun v hv => by
      simpa using halive v (hreg v hv), List.toFinset_card_of_nodup agg.buffer.nodup_keys]
  have hall : agg.sockets.keys.toFinset.card = members.card := by
    rw [hagg, GradientAggregator.sockets_enter, hkeys, Finset.card_image_of_injective _ hids]
  have hsubset : agg.buffer.keys.toFinset ⊆ agg.sockets.keys.toFinset := fun v hv =>
    List.mem_toFinset.mpr (hreg v (List.mem_toFinset.mp hv))
  have hquorum : GradientAggregator.minReady (env.withQuorum n).config = n := by
    rw [ServerEnv.withQuorum, hconfig]
    rfl
  have hpos : ¬ n ≤ 0 := by
    have := Finset.card_pos.mpr ⟨c, hmem⟩
    omega
  rw [GradientAggregator.shouldApply_sync hsync, GradientAggregator.ShouldApply, hquorum,
    if_neg hpos, hready, ← hcard, Nat.cast_le]
  constructor
  · rintro hle v ⟨hv, -, hnot⟩
    have heq := Finset.eq_of_subset_of_card_le hsubset (hall ▸ hle)
    rw [← List.mem_toFinset, ← heq, List.mem_toFinset] at hv
    exact hnot hv
  · intro hwaits
    rw [← hall]
    refine Finset.card_le_card fun v hv => ?_
    rw [List.mem_toFinset] at hv ⊢
    by_contra hnot
    exact hwaits v ⟨hv, halive v hv, hnot⟩

/-- Whatever happens next, it makes no difference which of the two modes the server is in. -/
lemma Sane.step_withQuorum (h : s.Sane env ids members) (hids : Function.Injective ids)
    (hsync : GradientAggregator.minReady env.config ≤ 0) {cfg : AggregatorConfig}
    (hconfig : env.config = some cfg) (hcard : (members.card : ℤ) = n) (a : ClusterAction α) :
    s.step (env.withQuorum n) ids a = s.step env ids a := by
  have hsys : ∀ b, s.sys.step (env.withQuorum n) b = s.sys.step env b := fun b =>
    System.step_withQuorum (fun hsub norm =>
      h.shouldApply_iff hids hsync hconfig hcard hsub norm) b
  cases a with
  | receive c => rfl
  | _ => simp only [step, hsys]

lemma healthy_withQuorum {s s' : Cluster α} {a : ClusterAction α} :
    s.Healthy (env.withQuorum n) members a s' ↔ s.Healthy env members a s' :=
  ⟨fun h => ⟨h.steady, h.trains, h.saves, ⟨h.fits.weights, h.fits.ack, h.fits.heartbeatAck⟩⟩,
    fun h => ⟨h.steady, h.trains, h.saves, ⟨h.fits.weights, h.fits.ack, h.fits.heartbeatAck⟩⟩⟩

end Cluster

/-- With a quorum of all the workers of a group, its healthy runs are those of synchronous mode, and
in each of their states every action does the same in both modes. -/
theorem quorum_of_all {st : WeightStore α} {timeout : ℚ} (hids : Function.Injective ids)
    (hp : env.pickle.Lawful) {cfg : AggregatorConfig} (hconfig : env.config = some cfg)
    (hsync : cfg.minReadyWorkers ≤ 0) (hcard : (members.card : ℤ) = n) (hst : st.Aligned) :
    (Reach (Cluster.step (env.withQuorum n) ids)
        (fun s a s' => s.Healthy (env.withQuorum n) members a s') (.init st timeout) s ↔
      Reach (Cluster.step env ids) (fun s a s' => s.Healthy env members a s')
        (.init st timeout) s) ∧
      (Reach (Cluster.step env ids) (fun s a s' => s.Healthy env members a s')
        (.init st timeout) s → ∀ a, s.step (env.withQuorum n) ids a = s.step env ids a) := by
  have hsync' : GradientAggregator.minReady env.config ≤ 0 := by rwa [hconfig]
  have hstep : ∀ {s}, Reach (Cluster.step env ids) (fun s a s' => s.Healthy env members a s')
      (.init st timeout) s → ∀ a, s.step (env.withQuorum n) ids a = s.step env ids a := fun hr a =>
    (Cluster.sane_of_reach hids hp hsync' hst hr).step_withQuorum hids hsync' hconfig hcard a
  refine ⟨?_, hstep⟩
  simp only [Cluster.healthy_withQuorum]
  exact Reach.congr fun hr a => hstep hr a

/-! ### A run -/

open Scenario

/-- Two workers train for two rounds with a quorum of two, as in synchronous mode. -/
theorem quorum_of_all_two : ∃ s, Reach (Cluster.step (wireEnv 2) ownId)
    (fun s a s' => s.Healthy (wireEnv 2) {0, 1} a s') idle s ∧
      s.sys.store.weights = single (-8) := by
  obtain ⟨s, hreach, hw⟩ := Reach.of_script (Cluster.step (wireEnv 0) ownId)
    (fun s a s' => s.Healthy (wireEnv 0) {0, 1} a s') idle racesAhead
    (healthyCluster (wireEnv 0) {0, 1}) (fun _ _ _ => healthyCluster_sound)
    (fun s : Cluster ℚ => s.sys.store.weights = single (-8)) (by decide +kernel)
  exact ⟨s, (quorum_of_all (n := 2) ownId_injective (wireEnv_lawful 0) rfl le_rfl (by decide)
    (WeightStore.aligned_init _ _ _)).1.mpr hreach, hw⟩

end DistributedRL
