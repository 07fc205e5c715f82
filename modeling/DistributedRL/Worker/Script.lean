import DistributedRL.Server.Scenario
import DistributedRL.Worker.Cluster

/-!
# Scripted runs of the cluster

Scripts for concrete runs of the server with its workers, on a wire that really carries the
messages.
-/

namespace DistributedRL

/-- A wire format for the server's messages. -/
def Response.code : PrefixCode (Response ℚ) :=
  (PrefixCode.sum (.dict .string (.ndarray .rat)) (.sum .nat .unit)).comap
    (fun | .weightsResponse w => .inl w | .ack step => .inr (.inl step)
         | .heartbeatAck => .inr (.inr ()))
    (fun | .inl w => some (.weightsResponse w) | .inr (.inl step) => some (.ack step)
         | .inr (.inr ()) => some .heartbeatAck)
    (fun resp => by cases resp <;> rfl)
    (fun x resp h => by rcases x with w | step | ⟨⟩ <;> cases h <;> rfl)

/-- In a run of the first `n` workers the threads of the other connections are never started. -/
lemma Cluster.absent_of_scripted {α : Type*} [Scalar α] {env : ServerEnv α}
    {ids : ConnId → WorkerId} {n : ℕ} {ok : Cluster α → ClusterAction α → Cluster α → Prop}
    {st : WeightStore α} {timeout : ℚ} {s : Cluster α}
    (h : Reach (Cluster.step env ids) ok (.init st timeout) s)
    (hok : ∀ {s a s'}, ok s a s' → ((a.onServer ids).all fun b => b.below n) = true) {c : ConnId}
    (hc : ¬ c < n) : (s.sys.conns c).handler = .absent := by
  have hsys : Reach (System.step env) (fun _ b _ => b.below n = true) (.init st timeout) s.sys :=
    Cluster.reach_sys h fun hk hb => by simpa [hb] using hok hk
  exact DistributedRL.absent_of_scripted hsys id hc

namespace Scenario

/-- A server with the quorum `n`, or in synchronous mode for `n = 0`. -/
def wireEnv (n : ℤ) : ServerEnv ℚ := ⟨some ⟨n, 1000⟩, id, Response.code.pickle⟩

lemma wireEnv_lawful (n : ℤ) : (wireEnv n).pickle.Lawful := Response.code.pickle_lawful

/-- No message of the wire format is empty. -/
lemma dumps_ne_nil (n : ℤ) (resp : Response ℚ) : (wireEnv n).pickle.dumps resp ≠ [] := by
  intro h
  have hl := wireEnv_lawful n resp
  rw [h] at hl
  cases hl

/-- The worker on connection `c` has the id `c`. -/
def ownId (c : ConnId) : WorkerId := c

lemma ownId_injective : Function.Injective ownId := Nat.cast_injective

/-- How many bytes the frame of a response takes. -/
def frameLength (resp : Response ℚ) : ℕ := (frames Response.code.pickle [resp]).length

/-- No worker is connected, and the weight is `0`. -/
def idle : Cluster ℚ := .init (.init (single 0) 1 0) 30

/-- The thread of `c` takes `n` steps. -/
def runs (c : ConnId) (n : ℕ) : List (ClusterAction ℚ) := List.replicate n (.server (.run c 0))

/-- Worker `c` starts a call, and its handler reads the request. -/
def calls (c : ConnId) (q : Request ℚ) : List (ClusterAction ℚ) := .request c q :: runs c 1

/-- Worker `c` connects, asks for the weights, and is registered; its handler starts to answer. -/
def enters (c : ConnId) : List (ClusterAction ℚ) := .connect c :: calls c .pullWeights ++ runs c 3

/-- The thread of `t` sends a whole response, and worker `d` reads it. -/
def sends (t d : ConnId) (resp : Response ℚ) : List (ClusterAction ℚ) :=
  [.server (.write t (frameLength resp)), .receive d]

/-- Worker `c` connects and pulls the weight `x`. -/
def pulls (c : ConnId) (x : ℚ) : List (ClusterAction ℚ) :=
  enters c ++ sends c c (.weightsResponse (single x))

end Scenario

end DistributedRL
