import DistributedRL.Comms.Framing
import DistributedRL.Data.Transition
import DistributedRL.Server.Rules
import DistributedRL.Worker.Client

/-!
# The cluster

The server and the workers on its connections. A worker sends a request and reads one response
before it sends the next one. Each connection belongs to one worker, with an id of its own.
-/

namespace DistributedRL

variable {α : Type*}

/-- The server and its workers, by connection. -/
structure Cluster (α : Type*) where
  sys : System α
  clients : ConnId → Client α

/-- What can happen next: a worker connects, starts a call, reads a response or closes its socket,
or the server takes a step of its own. -/
inductive ClusterAction (α : Type*)
  | connect (c : ConnId)
  | request (c : ConnId) (q : Request α)
  | receive (c : ConnId)
  | leave (c : ConnId)
  | server (a : Action α)

/-- The action is one of the server's threads. -/
def Action.Internal : Action α → Bool
  | .scan _ | .run _ _ | .write _ _ | .fail _ => true
  | .accept _ | .arrive _ _ | .hangup _ => false

namespace Cluster

/-- No worker is connected yet. -/
def init (store : WeightStore α) (timeout : ℚ) : Cluster α where
  sys := .init store timeout
  clients _ := .init α

/-- Replace a worker's state. -/
def setClient (s : Cluster α) (c : ConnId) (k : Client α) : Cluster α :=
  { s with clients := Function.update s.clients c k }

/-- The bytes sent to a worker that it has not read. -/
def unread (s : Cluster α) (c : ConnId) : List UInt8 :=
  (s.sys.conns c).written.drop (s.clients c).consumed

/-- What a worker makes of the payload of a frame. -/
def decode (env : ServerEnv α) (k : Client α) (q : Request α) (payload : List UInt8) : Client α :=
  match env.pickle.loads payload with
  | some resp => k.finish q resp
  | none => { k with phase := .failed }

/-- `recv_message` returns in a worker. -/
def receive (env : ServerEnv α) (s : Cluster α) (c : ConnId) : Option (Cluster α) :=
  match (s.clients c).phase, (s.clients c).left, splitFrame (s.unread c) with
  | .waiting q, false, some (payload, rest) =>
    some (s.setClient c { decode env (s.clients c) q payload with
      consumed := (s.clients c).consumed + ((s.unread c).length - rest.length) })
  | _, _, _ => none

/-- The transition function of the cluster, `ids` being the ids of the workers. -/
def step [Scalar α] (env : ServerEnv α) (ids : ConnId → WorkerId) (s : Cluster α) :
    ClusterAction α → Option (Cluster α)
  | .connect c =>
    match (s.clients c).phase with
    | .away => (s.sys.step env (.accept c)).map fun sys =>
      { s with sys := sys }.setClient c { s.clients c with phase := .idle }
    | _ => none
  | .request c q =>
    match (s.clients c).phase, (s.clients c).left with
    | .idle, false => (s.sys.step env (.arrive c (.message (q.message (ids c))))).map fun sys =>
      { s with sys := sys }.setClient c ((s.clients c).call q)
    | _, _ => none
  | .receive c => s.receive env c
  | .leave c =>
    match (s.clients c).phase with
    | .away => none
    | _ => (s.sys.step env (.hangup c)).map fun sys =>
      { s with sys := sys }.setClient c { s.clients c with left := true }
  | .server a =>
    if a.Internal then (s.sys.step env a).map fun sys => { s with sys := sys } else none

/-! ### The rules of the cluster -/

@[simp] lemma sys_setClient (s : Cluster α) (c : ConnId) (k : Client α) :
    (s.setClient c k).sys = s.sys := rfl

@[simp] lemma clients_setClient (s : Cluster α) (c d : ConnId) (k : Client α) :
    (s.setClient c k).clients d = if d = c then k else s.clients d := by
  simp only [setClient, Function.update_apply]

end Cluster

/-- What the server sees of an action. -/
def ClusterAction.onServer [NatCast α] (ids : ConnId → WorkerId) :
    ClusterAction α → Option (Action α)
  | .connect c => some (.accept c)
  | .request c q => some (.arrive c (.message (q.message (ids c))))
  | .receive _ => none
  | .leave c => some (.hangup c)
  | .server a => some a

variable [Scalar α] {env : ServerEnv α} {ids : ConnId → WorkerId} {s s' : Cluster α}
  {a : ClusterAction α}

/-- What arrives from outside is put into the record of its connection, and changes nothing else. -/
lemma Rule.outside {b : Action α} {sys sys' : System α} (hr : Rule env sys b sys')
    (hb : b.Internal = false) : sys'.agg = sys.agg ∧ sys'.hb = sys.hb ∧ sys'.store = sys.store ∧
      sys'.history = sys.history ∧ ∀ d, (sys'.conns d).written = (sys.conns d).written := by
  cases hr <;> cases hb
  case accept => simp
  all_goals
    refine ⟨rfl, rfl, rfl, rfl, ?_⟩
    intro d
    simp only [System.conns_setConn]
    split_ifs with hd <;> simp [hd]

/-- One step of the cluster. -/
inductive ClusterRule (env : ServerEnv α) (ids : ConnId → WorkerId) (s : Cluster α) :
    ClusterAction α → Cluster α → Prop
  | connect {c sys} (hp : (s.clients c).phase = .away)
      (hs : s.sys.step env (.accept c) = some sys) :
    ClusterRule env ids s (.connect c)
      ({ s with sys := sys }.setClient c { s.clients c with phase := .idle })
  | request {c q sys} (hp : (s.clients c).phase = .idle) (hl : (s.clients c).left = false)
      (hs : s.sys.step env (.arrive c (.message (q.message (ids c)))) = some sys) :
    ClusterRule env ids s (.request c q)
      ({ s with sys := sys }.setClient c ((s.clients c).call q))
  | receive {c q payload rest} (hp : (s.clients c).phase = .waiting q)
      (hl : (s.clients c).left = false)
      (hf : splitFrame (s.unread c) = some (payload, rest)) :
    ClusterRule env ids s (.receive c) (s.setClient c
      { Cluster.decode env (s.clients c) q payload with
        consumed := (s.clients c).consumed + ((s.unread c).length - rest.length) })
  | leave {c sys} (hp : (s.clients c).phase ≠ .away)
      (hs : s.sys.step env (.hangup c) = some sys) :
    ClusterRule env ids s (.leave c)
      ({ s with sys := sys }.setClient c { s.clients c with left := true })
  | server {a sys} (hi : a.Internal = true) (hs : s.sys.step env a = some sys) :
    ClusterRule env ids s (.server a) { s with sys := sys }

namespace Cluster

/-- Every step of the cluster is by one of the rules. -/
lemma rule_of_step (h : s.step env ids a = some s') : ClusterRule env ids s a s' := by
  cases a with
  | connect c =>
    simp only [step] at h
    split at h
    · next hp =>
      obtain ⟨sys, hsys, rfl⟩ := Option.map_eq_some_iff.mp h
      exact .connect hp hsys
    · cases h
  | request c q =>
    simp only [step] at h
    split at h
    · next hp hl =>
      obtain ⟨sys, hsys, rfl⟩ := Option.map_eq_some_iff.mp h
      exact .request hp hl hsys
    · cases h
  | receive c =>
    simp only [step, receive] at h
    split at h
    · next hp hl hf => cases h; exact .receive hp hl hf
    · cases h
  | leave c =>
    simp only [step] at h
    split at h
    · cases h
    · next hp =>
      obtain ⟨sys, hsys, rfl⟩ := Option.map_eq_some_iff.mp h
      exact .leave (fun h => hp h) hsys
  | server a =>
    simp only [step] at h
    split_ifs at h with hi
    obtain ⟨sys, hsys, rfl⟩ := Option.map_eq_some_iff.mp h
    exact .server hi hsys

omit [Scalar α] in
/-- Whatever a worker reads, it no longer waits. -/
lemma decode_ne_waiting (env : ServerEnv α) (k : Client α) (q : Request α) (payload : List UInt8)
    (q' : Request α) : (decode env k q payload).phase ≠ .waiting q' := by
  simp only [decode]
  split
  · next resp _ => cases q <;> cases resp <;> simp [Client.finish]
  · simp

/-- A worker that waits has done so before, and may only have hung up since, or has just sent its
request. -/
lemma waiting_of (h : s.step env ids a = some s') {d : ConnId} {q : Request α}
    (hp : (s'.clients d).phase = .waiting q) :
    ((s.clients d).phase = .waiting q ∧ ∃ l, s'.clients d = { s.clients d with left := l }) ∨
      (s.clients d).phase = .idle ∧ a = .request d q ∧ s'.clients d = (s.clients d).call q := by
  have hsame : s'.clients d = s.clients d → (s.clients d).phase = .waiting q ∧
      ∃ l, s'.clients d = { s.clients d with left := l } := fun he => ⟨he ▸ hp, _, he⟩
  cases rule_of_step h with
  | @connect c sys hph hs =>
    by_cases hdc : d = c
    · subst hdc
      simp at hp
    · exact Or.inl (hsame (by simp [hdc]))
  | @request c q' sys hph hl hs =>
    by_cases hdc : d = c
    · subst hdc
      have hq : Phase.waiting q' = .waiting q := by simpa [Client.call] using hp
      cases hq
      exact Or.inr ⟨hph, rfl, by simp⟩
    · exact Or.inl (hsame (by simp [hdc]))
  | @receive c q' payload rest hph hl hf =>
    by_cases hdc : d = c
    · subst hdc
      simp only [clients_setClient, if_true] at hp
      exact (decode_ne_waiting _ _ _ _ _ hp).elim
    · exact Or.inl (hsame (by simp [hdc]))
  | @leave c sys hph hs =>
    by_cases hdc : d = c
    · subst hdc
      exact Or.inl ⟨by simpa using hp, true, by simp⟩
    · exact Or.inl (hsame (by simp [hdc]))
  | server hi hs => exact Or.inl (hsame rfl)

/-- What a step of the cluster does to the server. -/
lemma sys_of_step (h : s.step env ids a = some s') : s'.sys = s.sys ∨
    ∃ b, a.onServer ids = some b ∧ s.sys.step env b = some s'.sys := by
  cases rule_of_step h with
  | connect hp hs => exact Or.inr ⟨_, rfl, hs⟩
  | request hp hl hs => exact Or.inr ⟨_, rfl, hs⟩
  | receive hp hl hf => exact Or.inl rfl
  | leave hp hs => exact Or.inr ⟨_, rfl, hs⟩
  | server hi hs => exact Or.inr ⟨_, rfl, hs⟩

/-- A run of the cluster is a run of its server. -/
lemma reach_sys {ok : Cluster α → ClusterAction α → Cluster α → Prop}
    {okSys : System α → Action α → System α → Prop} {st : WeightStore α} {timeout : ℚ}
    (h : Reach (Cluster.step env ids) ok (.init st timeout) s)
    (hok : ∀ {s a s' b}, ok s a s' → a.onServer ids = some b → okSys s.sys b s'.sys) :
    Reach (System.step env) okSys (.init st timeout) s.sys := by
  refine h.map Cluster.sys ?_
  intro t a t' hstep hk
  rcases sys_of_step hstep with he | ⟨b, hb, hs⟩
  · exact Or.inl he
  · exact Or.inr ⟨b, hs, hok hk hb⟩

end Cluster

end DistributedRL
