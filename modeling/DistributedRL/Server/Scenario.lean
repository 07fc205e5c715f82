import DistributedRL.Data.Transition
import DistributedRL.Server.Rules
import DistributedRL.Worker.Client

/-!
# Scripted runs

Scripts of actions for concrete runs of the server, each played by a worker that behaves as
`ParameterServerClient` does.
-/

namespace DistributedRL

variable {α : Type*} [Scalar α]

/-- The action is of one of the first `n` connections. -/
def Action.below (n : ℕ) (a : Action α) : Bool := a.conn.any (· < n)

omit [Scalar α] in
lemma Action.lt_of_below {n : ℕ} {a : Action α} {d : ConnId} (h : a.below n = true)
    (hd : a.conn = some d) : d < n := by
  simpa [Action.below, hd] using h

/-- In a run of the first `n` connections the other threads are never started. -/
lemma absent_of_scripted {env : ServerEnv α} {n : ℕ}
    {ok : System α → Action α → System α → Prop} {st : WeightStore α} {timeout : ℚ}
    {s : System α} (h : Reach (System.step env) ok (.init st timeout) s)
    (hok : ∀ {s a s'}, ok s a s' → a.below n = true) {c : ConnId} (hc : ¬ c < n) :
    (s.conns c).handler = .absent := by
  refine h.invariant (P := fun s => (s.conns c).handler = .absent) rfl ?_
  intro s a s' ih hs hk
  rw [(System.rule_of_step hs).handler_of_ne, ih]
  intro ha
  exact hc (Action.lt_of_below (hok hk) ha)

/-- What holds of the threads of such a run and of a thread that was never started holds of every
thread. -/
lemma forall_handler_of_scripted {env : ServerEnv α} {n : ℕ}
    {ok : System α → Action α → System α → Prop} {st : WeightStore α} {timeout : ℚ}
    {s : System α} {P : Handler α → Prop}
    (h : Reach (System.step env) ok (.init st timeout) s)
    (hok : ∀ {s a s'}, ok s a s' → a.below n = true) (habs : P .absent)
    (hP : ∀ c < n, P (s.conns c).handler) (c : ConnId) : P (s.conns c).handler := by
  by_cases hc : c < n
  · exact hP c hc
  · rwa [absent_of_scripted h hok hc]

namespace Scenario

/-- Deliver a request of worker `w` and let the handler read it. -/
def request (c : ConnId) (w : WorkerId) (q : Request α) : List (Action α) :=
  [.arrive c (.message (q.message w)), .run c 0]

/-- Connect, identify as `w` by a first request, and register. -/
def connect (c : ConnId) (w : WorkerId) (q : Request α) : List (Action α) :=
  .accept c :: request c w q ++ [.run c 0, .run c 0]

/-- Hang up; the handler notices and cleans up. -/
def leave (c : ConnId) : List (Action α) :=
  [.hangup c, .fail c, .run c 0, .run c 0, .run c 0]

/-- The one parameter `w` with the value `x`. -/
def single (x : ℚ) : Weights ℚ := (∅ : Weights ℚ).set "w" (.singleton x)

/-- A push of the delta `x`. -/
def push (x : ℚ) : Request ℚ := .pushGradients 0 (single x)

/-- A server in synchronous mode whose messages have an empty payload. -/
def syncEnv : ServerEnv ℚ := ⟨none, id, ⟨fun _ => [], fun _ => none⟩⟩

/-- A server started on the weight `0`, with a timeout of 30 seconds. -/
def start : System ℚ := .init (.init (single 0) 1 0) 30

end Scenario

end DistributedRL
