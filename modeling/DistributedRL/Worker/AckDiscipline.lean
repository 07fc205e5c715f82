import DistributedRL.Worker.Acks

/-!
# ACK discipline

An ACK goes to every registered connection. It is the answer to a push of that connection as long
as each completed round covers every registered worker. Otherwise a worker is sent an ACK that it
does not wait for, and takes it for the response to its next request.
-/

namespace DistributedRL

variable {α : Type*}

/-- The server acknowledges the pushes it averages, each of them once, and nothing else; and every
worker reads the response to its own request. -/
structure Cluster.AckDiscipline (env : ServerEnv α) (s : Cluster α) : Prop where
  answers : ∀ x ∈ s.sys.history.acked, ∃ δ ∈ x.deltas, δ.conn = x.conn
  answering : ∀ t r step todo rest, (s.sys.conns t).handler = .acks r step todo rest →
    ∀ d ∈ todo, ∃ δ ∈ r.deltas, δ.conn = d
  once : s.sys.acknowledged.Nodup
  every : ∀ i ∈ s.sys.averaged, s.sys.Accounted i
  reads : ∀ d q payload rest, (s.clients d).phase = .waiting q →
    splitFrame (s.unread d) = some (payload, rest) →
    ∃ m, env.pickle.loads payload = some m ∧ q.Expects m ∧ rest = [] ∧
      (q.IsPush → ∃ x ∈ s.sys.history.acked, (d, (s.clients d).sent) ∈ x.ids ∧ m = .ack x.step)
  asserts : ∀ d, (s.clients d).phase.Failed = false

variable [Scalar α] {env : ServerEnv α} {ids : ConnId → WorkerId} {s : Cluster α}

/-- In every run in which each completed round holds a delta of every registered worker, and its
ACK can be framed, whatever the interleaving. -/
theorem ack_discipline (hids : Function.Injective ids) (hp : env.pickle.Lawful)
    {st : WeightStore α} {timeout : ℚ}
    (h : Reach (Cluster.step env ids) (fun s a _ => s.Covers env a ∧ s.AckFits env a)
      (.init st timeout) s) : s.AckDiscipline env := by
  have hs := Cluster.tracked_of_reach hids hp h And.left
  refine ⟨hs.acks.own, ?_, hs.acks.nodup,
    Cluster.accounted_of_reach hids hp h id, ?_,
    hs.sound.not_failed⟩
  · intro t r step todo rest hh d hd
    exact (hs.sound.ackReady hs.pushes).owed t r (by rw [hh]; rfl) d (by rw [hh]; exact hd)
  · intro d q payload rest hq hsplit
    obtain ⟨m, hm, rfl, hrest, -⟩ := hs.sound.decode_of_split hp hq hsplit
    refine ⟨m, hp m, hm, hrest, ?_⟩
    intro hpush
    cases q with
    | pushGradients step g =>
      obtain ⟨x, hx, hid, hdumps⟩ := hs.reads.unread d step g _ rest hq hsplit
      refine ⟨x, hx, hid, ?_⟩
      have hload := congrArg env.pickle.loads hdumps
      rw [hp, hp] at hload
      exact Option.some.inj hload
    | pullWeights => cases hpush
    | heartbeat reward extra => cases hpush

/-! ### Two runs -/

namespace Scenario

/-- With a quorum of one worker, the ACK of the round of worker `0` is sent to worker `1` as well,
who then sends a heartbeat. -/
def acksBystander : List (ClusterAction ℚ) :=
  pulls 0 0 ++ pulls 1 0 ++ calls 0 (push 1) ++ runs 0 3 ++ sends 0 0 (.ack 1) ++
    [.server (.write 0 (frameLength (.ack 1))), .request 1 (.heartbeat 0 ∅), .receive 1]

/-- Two workers push, and the thread of the second one acknowledges both. -/
def pushesTogether : List (ClusterAction ℚ) :=
  pulls 0 0 ++ pulls 1 0 ++ calls 0 (push 1) ++ runs 0 1 ++ calls 1 (push 3) ++ runs 1 3 ++
    sends 1 0 (.ack 1) ++ sends 1 1 (.ack 1)

end Scenario

open Scenario

/-- Worker `1` has not pushed, is sent an ACK, and fails on the response to its heartbeat. -/
theorem ack_without_push :
    ∃ s, Reach (Cluster.step (wireEnv 1) ownId) (fun _ _ _ => True) idle s ∧
      (∃ x ∈ s.sys.history.acked, x.conn = 1 ∧ ∀ δ ∈ x.deltas, δ.conn ≠ 1) ∧
      (s.clients 1).phase.Failed ∧ ¬ s.AckDiscipline (wireEnv 1) := by
  obtain ⟨s, hreach, hstray, hfailed⟩ := Reach.of_script (Cluster.step (wireEnv 1) ownId)
    (fun _ _ _ => True) idle acksBystander (fun _ _ _ => true) (fun _ _ _ _ => trivial)
    (fun s : Cluster ℚ => (∃ x ∈ s.sys.history.acked, x.conn = 1 ∧ ∀ δ ∈ x.deltas, δ.conn ≠ 1) ∧
      (s.clients 1).phase.Failed)
    (by decide +kernel)
  exact ⟨s, hreach, hstray, hfailed, fun h => by simp [h.asserts 1] at hfailed⟩

/-- Both workers have read the ACK of their first push, the second message of each. -/
theorem ack_discipline_together :
    ∃ s, Reach (Cluster.step (wireEnv 2) ownId)
        (fun s a _ => s.Covers (wireEnv 2) a ∧ s.AckFits (wireEnv 2) a) idle s ∧
      (s.clients 0).acks = [(2, 1)] ∧ (s.clients 1).acks = [(2, 1)] ∧
      s.AckDiscipline (wireEnv 2) := by
  obtain ⟨s, hreach, h0, h1⟩ := Reach.of_script (Cluster.step (wireEnv 2) ownId)
    (fun s a _ => s.Covers (wireEnv 2) a ∧ s.AckFits (wireEnv 2) a) idle pushesTogether
    (fun s a _ => decide (s.Covers (wireEnv 2) a ∧ s.AckFits (wireEnv 2) a))
    (fun s a _ h => of_decide_eq_true h)
    (fun s : Cluster ℚ => (s.clients 0).acks = [(2, 1)] ∧ (s.clients 1).acks = [(2, 1)])
    (by decide +kernel)
  exact ⟨s, hreach, h0, h1, ack_discipline ownId_injective (wireEnv_lawful 2) hreach⟩

end DistributedRL
