import DistributedRL.Server.HandleWorker

/-!
# The worker

`ParameterServerClient` of `worker/client.py`: three remote calls, each one message out and one
response in, with an assertion on the type of the response. And `weight_delta` of
`network/utils.py`, what a worker pushes.
-/

namespace DistributedRL

/-- A call of `ParameterServerClient`, with its arguments other than `worker_id`. -/
inductive Request (α : Type*)
  | pullWeights
  | pushGradients (step : ℕ) (grads : Weights α)
  | heartbeat (episodeReward : α) (extraMetrics : Dict String α)

variable {α : Type*}

/-- The message that the call sends. -/
def Request.message [NatCast α] (w : WorkerId) : Request α → Message α
  | .pullWeights => ⟨.pullWeights, some w, none, none, ∅⟩
  | .pushGradients step grads =>
    ⟨.pushGradients, some w, some (.dict grads), none, (∅ : Dict String α).set "step" (step : α)⟩
  | .heartbeat reward extra => ⟨.heartbeat, some w, none, some reward, extra⟩

/-- The assertion of the call on the response it reads. -/
def Request.Expects : Request α → Response α → Prop
  | .pullWeights, .weightsResponse _ => True
  | .pushGradients _ _, .ack _ => True
  | .heartbeat _ _, .heartbeatAck => True
  | _, _ => False

instance : ∀ (q : Request α) (resp : Response α), Decidable (q.Expects resp)
  | .pullWeights, .weightsResponse _ => .isTrue trivial
  | .pushGradients _ _, .ack _ => .isTrue trivial
  | .heartbeat _ _, .heartbeatAck => .isTrue trivial
  | .pullWeights, .ack _ | .pullWeights, .heartbeatAck => .isFalse id
  | .pushGradients _ _, .weightsResponse _ | .pushGradients _ _, .heartbeatAck => .isFalse id
  | .heartbeat _ _, .weightsResponse _ | .heartbeat _ _, .ack _ => .isFalse id

/-! ### Where a worker stands -/

/-- The state of `worker_main` between its calls and in them. -/
inductive Phase (α : Type*)
  /-- not connected -/
  | away
  /-- between two calls -/
  | idle
  /-- the request has been sent and its response not yet read -/
  | waiting (q : Request α)
  /-- an assertion or `pickle.loads` has raised -/
  | failed

/-- A call of the worker has raised. -/
def Phase.Failed : Phase α → Bool
  | .failed => true
  | _ => false

/-- A worker: its phase, whether it has closed its socket, how many requests it has sent, how many
bytes it has read, the weights pulled since its last push, those it held when it sent each of its
requests, and which of its pushes it has read an ACK for, with the step in it. -/
structure Client (α : Type*) where
  phase : Phase α
  left : Bool
  sent : ℕ
  consumed : ℕ
  base : Option (Weights α)
  bases : List (ℕ × Option (Weights α))
  acks : List (ℕ × ℕ)

namespace Client

/-- A worker before it connects. -/
def init (α : Type*) : Client α := ⟨.away, false, 0, 0, none, [], []⟩

/-- Start a call. -/
def call (k : Client α) (q : Request α) : Client α :=
  { k with phase := .waiting q, sent := k.sent + 1, bases := (k.sent + 1, k.base) :: k.bases }

/-- The end of a call: the assertion on the response, and what is kept of it. -/
def finish (k : Client α) : Request α → Response α → Client α
  | .pullWeights, .weightsResponse w => { k with phase := .idle, base := some w }
  | .pushGradients _ _, .ack step =>
    { k with phase := .idle, base := none, acks := (k.sent, step) :: k.acks }
  | .heartbeat _ _, .heartbeatAck => { k with phase := .idle }
  | _, _ => { k with phase := .failed }

lemma phase_finish (k : Client α) {q : Request α} {resp : Response α} (h : q.Expects resp) :
    (k.finish q resp).phase = .idle := by
  cases q <;> cases resp <;> first | rfl | exact h.elim

end Client

/-! ### The pushed delta -/

section Delta

variable [Scalar α]

/-- The comprehension in `weight_delta`, with the entries made so far. -/
def weightDeltaLoop (old : Weights α) : List (String × NDArray α) → Weights α →
    Except PyError (Weights α)
  | [], acc => .ok acc
  | (k, new) :: rest, acc =>
    match old.get? k with
    | none => .error .keyError
    | some w =>
      match w.binop (· - ·) new with
      | none => .error .valueError
      | some d => weightDeltaLoop old rest (acc.set k d)

/-- `weight_delta` -/
def weightDelta (old new : Weights α) : Except PyError (Weights α) :=
  weightDeltaLoop old new.entries ∅

end Delta

end DistributedRL
