import DistributedRL.Server.Rules
import DistributedRL.Server.Scenario

/-!
# The dashboard

`server/metrics_emitter.py` and `dashboard/server.py`: the metrics go through a bounded queue to the
dashboard, whose task `pump` sends each of them to the browsers that are connected. The queue never
blocks the server; what does not fit into it is dropped.

While `pump` awaits a send, browsers come and go. A browser is sent, in order and without gaps, what
is taken out of the queue while it is connected.
-/

namespace DistributedRL

variable {α ε : Type*}

/-- A websocket, in order of acceptance. -/
abbrev ClientId := ℕ

/-- Where `pump` stands. -/
inductive Pump (ε : Type*)
  /-- in `metrics_queue.get` -/
  | waiting
  /-- in the loop over `list(clients)`: the payload, the clients left and `dead` -/
  | sending (payload : ε) (todo dead : List ClientId)
  /-- `json.dumps` has raised, which has ended the task -/
  | ended

/-- The queue and the dashboard. The last three fields are records, oldest first: what `put_nowait`
has taken, what `get` has returned, and the clients with the number of payloads that were out of the
queue when they connected. -/
structure Dashboard (ε : Type*) where
  queue : List ε
  pump : Pump ε
  clients : List ClientId
  received : ClientId → List ε
  accepted : List ε
  popped : List ε
  joined : List (ClientId × ℕ)

/-- The size of the queue, and whether `json.dumps` accepts a payload. -/
structure DashboardEnv (ε : Type*) where
  maxsize : ℕ
  dumps : ε → Bool

/-- What the dashboard can do next: `pump` takes a payload and lists the clients, a send returns or
raises, the clients that have failed are discarded; a browser connects or goes. -/
inductive DashboardAction
  | get (clients : List ClientId)
  | sent
  | failed
  | discard
  | join (c : ClientId)
  | leave (c : ClientId)

namespace Dashboard

/-- The start. -/
def init (ε : Type*) : Dashboard ε := ⟨[], .waiting, [], fun _ => [], [], [], []⟩

/-- `MetricsEmitter._put` -/
def put (env : DashboardEnv ε) (s : Dashboard ε) (x : ε) : Dashboard ε :=
  if s.queue.length < env.maxsize then
    { s with queue := s.queue ++ [x], accepted := s.accepted ++ [x] }
  else s

/-- The transition function of the dashboard. -/
def step (env : DashboardEnv ε) (s : Dashboard ε) : DashboardAction → Option (Dashboard ε)
  | .get order =>
    match s.pump, s.queue with
    | .waiting, x :: queue =>
      if order.Perm s.clients then
        some { s with
          queue := queue
          popped := s.popped ++ [x]
          pump := if env.dumps x then .sending x order [] else .ended }
      else none
    | _, _ => none
  | .sent =>
    match s.pump with
    | .sending x (c :: todo) dead =>
      some { s with
        received := Function.update s.received c (s.received c ++ [x])
        pump := .sending x todo dead }
    | _ => none
  | .failed =>
    match s.pump with
    | .sending x (c :: todo) dead => some { s with pump := .sending x todo (dead ++ [c]) }
    | _ => none
  | .discard =>
    match s.pump with
    | .sending _ [] dead =>
      some { s with clients := s.clients.filter (· ∉ dead), pump := .waiting }
    | _ => none
  | .join c =>
    if c ∈ s.joined.map Prod.fst then none
    else some { s with
      clients := s.clients ++ [c], joined := s.joined ++ [(c, s.popped.length)] }
  | .leave c => some { s with clients := s.clients.filter (· ≠ c) }

/-! ### What the clients are sent -/

/-- The client that joined when `n` payloads were out has been sent those of `popped` since then. -/
def UpTo (s : Dashboard ε) (popped : List ε) (c : ClientId) : Prop :=
  ∀ n, (c, n) ∈ s.joined → n ≤ popped.length ∧ s.received c = popped.drop n

/-- What the loop over the clients keeps. -/
def PumpInv (s : Dashboard ε) : Prop :=
  match s.pump with
  | .waiting => ∀ c ∈ s.clients, s.UpTo s.popped c
  | .sending x todo dead => ∃ popped, s.popped = popped ++ [x] ∧ todo.Nodup ∧
      (∀ c ∈ todo, s.UpTo popped c ∧ c ∈ s.joined.map Prod.fst) ∧
      ∀ c ∈ s.clients, c ∉ todo → c ∉ dead → s.UpTo s.popped c
  | .ended => True

/-- What holds of the queue and of the dashboard. -/
structure Sound (env : DashboardEnv ε) (s : Dashboard ε) : Prop where
  fifo : s.accepted = s.popped ++ s.queue
  bounded : s.queue.length ≤ env.maxsize
  nodup : s.clients.Nodup
  known : ∀ c ∈ s.clients, c ∈ s.joined.map Prod.fst
  once : (s.joined.map Prod.fst).Nodup
  silent : ∀ c, c ∉ s.joined.map Prod.fst → s.received c = []
  contiguous : ∀ c n, (c, n) ∈ s.joined →
    n ≤ s.popped.length ∧ s.received c <+: s.popped.drop n
  pump : s.PumpInv

variable {env : DashboardEnv ε} {s s' : Dashboard ε}

lemma sound_init : (init ε).Sound env where
  fifo := rfl
  bounded := Nat.zero_le _
  nodup := List.nodup_nil
  known _ h := by cases h
  once := List.nodup_nil
  silent _ _ := rfl
  contiguous _ _ h := by cases h
  pump _ h := by cases h

/-- What is put into the queue is not out yet. -/
lemma Sound.put (h : s.Sound env) (x : ε) : (s.put env x).Sound env := by
  rw [Dashboard.put]
  split_ifs with hlt
  · refine ⟨?_, ?_, h.nodup, h.known, h.once, h.silent, h.contiguous, h.pump⟩
    · simp only [h.fifo, List.append_assoc]
    · simpa using Nat.succ_le_of_lt hlt
  · exact h

/-- A payload more is out: whoever was up to date has missed it so far. -/
lemma Sound.contiguous_append (h : s.Sound env) (x : ε) {c : ClientId} {n : ℕ}
    (hn : (c, n) ∈ s.joined) :
    n ≤ (s.popped ++ [x]).length ∧ s.received c <+: (s.popped ++ [x]).drop n := by
  obtain ⟨hle, hpre⟩ := h.contiguous c n hn
  rw [List.drop_append_of_le_length hle]
  exact ⟨hle.trans (by simp), hpre.trans (List.prefix_append _ _)⟩

lemma Sound.get (h : s.Sound env) {order : List ClientId} {x : ε} {queue : List ε}
    (hp : s.pump = .waiting) (hq : s.queue = x :: queue) (ho : order.Perm s.clients) :
    Sound env { s with
      queue := queue
      popped := s.popped ++ [x]
      pump := if env.dumps x then .sending x order [] else .ended } where
  fifo := by rw [h.fifo, hq, List.append_assoc, List.singleton_append]
  bounded := (by simp [hq] : queue.length ≤ s.queue.length).trans h.bounded
  nodup := h.nodup
  known := h.known
  once := h.once
  silent := h.silent
  contiguous _ _ hn := h.contiguous_append x hn
  pump := by
    have hw : ∀ c ∈ s.clients, s.UpTo s.popped c := by
      have h := h.pump
      rwa [PumpInv, hp] at h
    cases hd : env.dumps x with
    | false => simp [PumpInv]
    | true =>
      refine ⟨s.popped, rfl, ho.nodup_iff.mpr h.nodup, fun c hc => ?_, fun c hc hnot => ?_⟩
      · exact ⟨hw c (ho.mem_iff.mp hc), h.known c (ho.mem_iff.mp hc)⟩
      · exact absurd (ho.mem_iff.mpr hc) hnot

lemma Sound.sent (h : s.Sound env) {x : ε} {c : ClientId} {todo dead : List ClientId}
    (hp : s.pump = .sending x (c :: todo) dead) :
    Sound env { s with
      received := Function.update s.received c (s.received c ++ [x])
      pump := .sending x todo dead } := by
  have hpump := h.pump
  rw [PumpInv, hp] at hpump
  obtain ⟨popped, hpop, hnd, htodo, hrest⟩ := hpump
  obtain ⟨hc, hnd⟩ := List.nodup_cons.mp hnd
  obtain ⟨hup, hjoined⟩ := htodo c List.mem_cons_self
  have hnow : ∀ n, (c, n) ∈ s.joined →
      n ≤ s.popped.length ∧ s.received c ++ [x] = s.popped.drop n := by
    intro n hn
    obtain ⟨hle, heq⟩ := hup n hn
    rw [hpop, List.drop_append_of_le_length hle, heq]
    exact ⟨hle.trans (by simp), rfl⟩
  refine ⟨h.fifo, h.bounded, h.nodup, h.known, h.once, ?_, ?_, popped, hpop, hnd, ?_, ?_⟩
  · intro d hd
    have hne : d ≠ c := fun he => hd (he ▸ hjoined)
    simpa [Function.update_of_ne hne] using h.silent d hd
  · intro d n hn
    by_cases hd : d = c
    · subst hd
      obtain ⟨hle, heq⟩ := hnow n hn
      exact ⟨hle, by simp [heq]⟩
    · simpa [Function.update_of_ne hd] using h.contiguous d n hn
  · intro d hd
    have hne : d ≠ c := fun he => hc (he ▸ hd)
    obtain ⟨hupd, hj⟩ := htodo d (List.mem_cons_of_mem _ hd)
    exact ⟨fun n hn => by simpa [Function.update_of_ne hne] using hupd n hn, hj⟩
  · intro d hd hnot hdead n hn
    by_cases hdc : d = c
    · subst hdc
      simpa using hnow n hn
    · have hd := hrest d hd (by simp [hdc, hnot]) hdead n hn
      simpa [Function.update_of_ne hdc] using hd

lemma Sound.failed (h : s.Sound env) {x : ε} {c : ClientId} {todo dead : List ClientId}
    (hp : s.pump = .sending x (c :: todo) dead) :
    Sound env { s with pump := .sending x todo (dead ++ [c]) } := by
  have hpump := h.pump
  rw [PumpInv, hp] at hpump
  obtain ⟨popped, hpop, hnd, htodo, hrest⟩ := hpump
  refine ⟨h.fifo, h.bounded, h.nodup, h.known, h.once, h.silent, h.contiguous, popped, hpop,
    (List.nodup_cons.mp hnd).2, fun d hd => htodo d (List.mem_cons_of_mem _ hd), ?_⟩
  intro d hd hnot hdead
  obtain ⟨hdead, hdc⟩ : d ∉ dead ∧ d ≠ c := by simpa using hdead
  exact hrest d hd (by simp [hdc, hnot]) hdead

lemma Sound.discard (h : s.Sound env) {x : ε} {dead : List ClientId}
    (hp : s.pump = .sending x [] dead) :
    Sound env { s with clients := s.clients.filter (· ∉ dead), pump := .waiting } := by
  have hpump := h.pump
  rw [PumpInv, hp] at hpump
  obtain ⟨popped, hpop, -, -, hrest⟩ := hpump
  refine ⟨h.fifo, h.bounded, h.nodup.filter _, fun c hc => h.known c (List.mem_filter.mp hc).1,
    h.once, h.silent, h.contiguous, fun c hc => ?_⟩
  obtain ⟨hc, hdead⟩ := List.mem_filter.mp hc
  exact hrest c hc List.not_mem_nil (by simpa using hdead)

/-- A client that joins has missed nothing, and makes no difference to the others. -/
lemma upTo_join {popped : List ε} {c d : ClientId} (hsilent : s.received c = [])
    (hc : c ∉ s.joined.map Prod.fst) (hd : d ≠ c → s.UpTo popped d)
    (hpopped : d = c → popped = s.popped) :
    UpTo { s with
      clients := s.clients ++ [c], joined := s.joined ++ [(c, s.popped.length)] } popped d := by
  intro n hn
  rcases List.mem_append.mp hn with hn | hn
  · refine hd (fun hdc => hc ?_) n hn
    exact hdc ▸ List.mem_map_of_mem hn
  · cases List.mem_singleton.mp hn
    rw [hpopped rfl, List.drop_length]
    exact ⟨le_rfl, hsilent⟩

lemma Sound.pumpInv_join (h : s.Sound env) {c : ClientId} (hc : c ∉ s.joined.map Prod.fst) :
    PumpInv { s with
      clients := s.clients ++ [c], joined := s.joined ++ [(c, s.popped.length)] } := by
  have hpump := h.pump
  have hsilent := h.silent c hc
  have hold : ∀ {d}, d ≠ c → d ∈ s.clients ++ [c] → d ∈ s.clients := by
    intro d hdc hd
    simpa [hdc] using hd
  simp only [PumpInv] at hpump ⊢
  split
  · next hp =>
    rw [hp] at hpump
    exact fun d hd => upTo_join hsilent hc (fun hdc => hpump d (hold hdc hd)) fun _ => rfl
  · next x todo dead hp =>
    rw [hp] at hpump
    obtain ⟨popped, hpop, hnd, htodo, hrest⟩ := hpump
    refine ⟨popped, hpop, hnd, fun d hd => ?_, fun d hd hnot hdead => ?_⟩
    · obtain ⟨hup, hj⟩ := htodo d hd
      refine ⟨upTo_join hsilent hc (fun _ => hup) fun hdc => absurd (hdc ▸ hj) hc, ?_⟩
      rw [List.map_append]
      exact List.mem_append_left _ hj
    · exact upTo_join hsilent hc (fun hdc => hrest d (hold hdc hd) hnot hdead) fun _ => rfl
  · trivial

lemma Sound.join (h : s.Sound env) {c : ClientId} (hc : c ∉ s.joined.map Prod.fst) :
    Sound env { s with
      clients := s.clients ++ [c], joined := s.joined ++ [(c, s.popped.length)] } := by
  have hnew : c ∉ s.clients := fun hmem => hc (h.known c hmem)
  refine ⟨h.fifo, h.bounded, ?_, ?_, ?_, ?_, ?_, h.pumpInv_join hc⟩
  · exact h.nodup.append (List.nodup_singleton c) (by simpa using hnew)
  · intro d hd
    rw [List.map_append]
    rcases List.mem_append.mp hd with hd | hd
    · exact List.mem_append_left _ (h.known d hd)
    · exact List.mem_append_right _ (by simpa using hd)
  · rw [List.map_append]
    exact h.once.append (List.nodup_singleton c) (by simpa using hc)
  · intro d hd
    rw [List.map_append, List.mem_append, not_or] at hd
    exact h.silent d hd.1
  · intro d n hn
    rcases List.mem_append.mp hn with hn | hn
    · exact h.contiguous d n hn
    · cases List.mem_singleton.mp hn
      rw [h.silent c hc]
      exact ⟨le_rfl, List.nil_prefix⟩

lemma Sound.leave (h : s.Sound env) (c : ClientId) :
    Sound env { s with clients := s.clients.filter (· ≠ c) } := by
  have hsub : ∀ {d}, d ∈ s.clients.filter (· ≠ c) → d ∈ s.clients := fun hd =>
    (List.mem_filter.mp hd).1
  refine ⟨h.fifo, h.bounded, h.nodup.filter _, fun d hd => h.known d (hsub hd), h.once, h.silent,
    h.contiguous, ?_⟩
  have hpump := h.pump
  simp only [PumpInv] at hpump ⊢
  split
  · next hp =>
    rw [hp] at hpump
    exact fun d hd => hpump d (hsub hd)
  · next x todo dead hp =>
    rw [hp] at hpump
    obtain ⟨popped, hpop, hnd, htodo, hrest⟩ := hpump
    exact ⟨popped, hpop, hnd, htodo, fun d hd => hrest d (hsub hd)⟩
  · trivial

/-- Every step of the dashboard. -/
lemma Sound.step (h : s.Sound env) {a : DashboardAction} (hs : s.step env a = some s') :
    s'.Sound env := by
  cases a with
  | get order =>
    simp only [Dashboard.step] at hs
    split at hs
    · next x queue hp hq =>
      by_cases ho : order.Perm s.clients
      · rw [if_pos ho] at hs
        cases hs
        exact h.get hp hq ho
      · rw [if_neg ho] at hs
        cases hs
    · cases hs
  | sent =>
    simp only [Dashboard.step] at hs
    split at hs
    · next x c todo dead hp =>
      cases hs
      exact h.sent hp
    · cases hs
  | failed =>
    simp only [Dashboard.step] at hs
    split at hs
    · next x c todo dead hp =>
      cases hs
      exact h.failed hp
    · cases hs
  | discard =>
    simp only [Dashboard.step] at hs
    split at hs
    · next x dead hp =>
      cases hs
      exact h.discard hp
    · cases hs
  | join c =>
    simp only [Dashboard.step] at hs
    split_ifs at hs with hc
    cases hs
    exact h.join hc
  | leave c =>
    cases hs
    exact h.leave c

end Dashboard

/-! ### The server with its dashboard -/

/-- The server and the dashboard. -/
structure Observed (α : Type*) where
  sys : System α
  dash : Dashboard (MetricsEvent α)

/-- Either of them takes a step. -/
inductive ObservedAction (α : Type*)
  | server (a : Action α)
  | dashboard (a : DashboardAction)

/-- The calls of the emitter in a step, oldest first. -/
def System.emitted (s s' : System α) : List (MetricsEvent α) :=
  (s'.metrics.take (s'.metrics.length - s.metrics.length)).reverse

section Observed

variable [Scalar α] {env : ServerEnv α} {dash : DashboardEnv (MetricsEvent α)}

/-- The transition function of both. -/
def Observed.step (env : ServerEnv α) (dash : DashboardEnv (MetricsEvent α)) (s : Observed α) :
    ObservedAction α → Option (Observed α)
  | .server a => (s.sys.step env a).map fun sys =>
    ⟨sys, (s.sys.emitted sys).foldl (Dashboard.put dash) s.dash⟩
  | .dashboard a => (s.dash.step dash a).map fun d => { s with dash := d }

/-- A step of the server calls the emitter at most once. -/
lemma Rule.metrics_cases {s s' : System α} {a : Action α} (hr : Rule env s a s') :
    s'.metrics = s.metrics ∨ ∃ x, s'.metrics = x :: s.metrics := by
  cases hr
  case heartbeat => exact Or.inr ⟨_, rfl⟩
  case emit => exact Or.inr ⟨_, rfl⟩
  all_goals exact Or.inl rfl

/-- What the dashboard has of the calls of the emitter. -/
structure Observed.Sound (dash : DashboardEnv (MetricsEvent α)) (s : Observed α) : Prop where
  dashboard : s.dash.Sound dash
  inOrder : s.dash.accepted.Sublist s.sys.metrics.reverse
  complete : s.sys.metrics.length ≤ dash.maxsize → s.dash.accepted = s.sys.metrics.reverse

/-- A step of the dashboard accepts nothing. -/
lemma Dashboard.accepted_step {s s' : Dashboard ε} {env : DashboardEnv ε} {a : DashboardAction}
    (hs : s.step env a = some s') : s'.accepted = s.accepted := by
  cases a with
  | join c =>
    simp only [Dashboard.step] at hs
    split_ifs at hs
    cases hs
    rfl
  | leave c =>
    cases hs
    rfl
  | get order =>
    simp only [Dashboard.step] at hs
    split at hs
    · split at hs
      · cases hs
        rfl
      · cases hs
    · cases hs
  | sent | failed | discard =>
    simp only [Dashboard.step] at hs
    split at hs
    · cases hs
      rfl
    · cases hs

omit [Scalar α] in
/-- A call of the emitter. -/
lemma Observed.Sound.emit {s : Observed α} (h : s.Sound dash) {sys : System α}
    {x : MetricsEvent α} (hx : sys.metrics = x :: s.sys.metrics) :
    Observed.Sound dash ⟨sys, s.dash.put dash x⟩ := by
  refine ⟨h.dashboard.put x, ?_, fun hle => ?_⟩
  · show (s.dash.put dash x).accepted.Sublist sys.metrics.reverse
    rw [hx, List.reverse_cons, Dashboard.put]
    split_ifs
    · exact h.inOrder.append_right [x]
    · exact h.inOrder.trans (List.sublist_append_left _ _)
  · have hle : s.sys.metrics.length < dash.maxsize := by
      rw [hx, List.length_cons] at hle
      exact hle
    have hall := h.complete hle.le
    have hroom : s.dash.queue.length < dash.maxsize := by
      have hfifo := congrArg List.length h.dashboard.fifo
      rw [hall, List.length_reverse, List.length_append] at hfifo
      omega
    show (s.dash.put dash x).accepted = sys.metrics.reverse
    rw [hx, List.reverse_cons, Dashboard.put, if_pos hroom, ← hall]

lemma Observed.Sound.step {s s' : Observed α} {a : ObservedAction α} (h : s.Sound dash)
    (hs : s.step env dash a = some s') : s'.Sound dash := by
  cases a with
  | server a =>
    obtain ⟨sys, hsys, rfl⟩ := Option.map_eq_some_iff.mp hs
    rcases (System.rule_of_step hsys).metrics_cases with hm | ⟨x, hx⟩
    · have hnone : s.sys.emitted sys = [] := by simp [System.emitted, hm]
      rw [hnone]
      exact ⟨h.dashboard, hm ▸ h.inOrder, hm ▸ h.complete⟩
    · have hone : s.sys.emitted sys = [x] := by simp [System.emitted, hx]
      rw [hone]
      exact h.emit hx
  | dashboard a =>
    obtain ⟨d, hd, rfl⟩ := Option.map_eq_some_iff.mp hs
    have hacc := Dashboard.accepted_step hd
    exact ⟨h.dashboard.step hd, hacc ▸ h.inOrder, hacc ▸ h.complete⟩

/-- The server runs as it does alone. -/
lemma Observed.sys_of_reach {st : WeightStore α} {timeout : ℚ} {s : Observed α}
    (h : Reach (Observed.step env dash) (fun _ _ _ => True)
      ⟨.init st timeout, .init (MetricsEvent α)⟩ s) :
    Reach (System.step env) (fun _ _ _ => True) (.init st timeout) s.sys := by
  refine h.map Observed.sys fun {s a s'} hs _ => ?_
  cases a with
  | server a =>
    obtain ⟨sys, hsys, rfl⟩ := Option.map_eq_some_iff.mp hs
    exact Or.inr ⟨a, hsys, trivial⟩
  | dashboard a =>
    obtain ⟨d, -, rfl⟩ := Option.map_eq_some_iff.mp hs
    exact Or.inl rfl

lemma Observed.sound_of_reach {st : WeightStore α} {timeout : ℚ} {s : Observed α}
    (h : Reach (Observed.step env dash) (fun _ _ _ => True)
      ⟨.init st timeout, .init (MetricsEvent α)⟩ s) : s.Sound dash := by
  refine h.invariant ⟨Dashboard.sound_init, List.Sublist.refl _, fun _ => rfl⟩ ?_
  exact fun hs hstep _ => hs.step hstep

/-- While there is room in the queue, what a step emits is put into it. -/
lemma Observed.queue_step {s : Observed α} {a : Action α} {sys : System α}
    (hs : s.sys.step env a = some sys) (hroom : s.dash.queue.length < dash.maxsize) :
    ((s.sys.emitted sys).foldl (Dashboard.put dash) s.dash).popped = s.dash.popped ∧
      ((s.sys.emitted sys).foldl (Dashboard.put dash) s.dash).queue =
        s.dash.queue ++ s.sys.emitted sys := by
  rcases (System.rule_of_step hs).metrics_cases with hm | ⟨x, hx⟩
  · have hnone : s.sys.emitted sys = [] := by simp [System.emitted, hm]
    simp [hnone]
  · have hone : s.sys.emitted sys = [x] := by simp [System.emitted, hx]
    simp [hone, Dashboard.put, hroom]

omit [Scalar α] in
/-- What a browser is sent are calls of the emitter. -/
lemma Observed.Sound.mem_metrics {s : Observed α} (h : s.Sound dash) {c : ClientId}
    {x : MetricsEvent α} (hx : x ∈ s.dash.received c) : x ∈ s.sys.metrics := by
  have hc : c ∈ s.dash.joined.map Prod.fst := by
    by_contra hc
    rw [h.dashboard.silent c hc] at hx
    cases hx
  obtain ⟨⟨d, n⟩, hn, rfl⟩ := List.mem_map.mp hc
  have hpop : x ∈ s.dash.popped :=
    List.mem_of_mem_drop ((h.dashboard.contiguous d n hn).2.subset hx)
  have hacc : x ∈ s.dash.accepted := by
    rw [h.dashboard.fifo]
    exact List.mem_append_left _ hpop
  exact List.mem_reverse.mp (h.inOrder.subset hacc)

/-- The dashboard watches without being noticed. The server runs as it does alone, and none of its
steps ever has to wait for the dashboard. What is in the queue, or has been, are calls of the
emitter in their order, and a call is left out only if it finds the queue full. What a browser is
sent is a stretch of what has been taken out of the queue, from the payload that was next when it
connected; and a browser that is connected when `pump` waits has been sent all of them. -/
theorem dashboard_watches {st : WeightStore α} {timeout : ℚ} {s : Observed α}
    (h : Reach (Observed.step env dash) (fun _ _ _ => True)
      ⟨.init st timeout, .init (MetricsEvent α)⟩ s) :
    Reach (System.step env) (fun _ _ _ => True) (.init st timeout) s.sys ∧
      (∀ a sys, s.sys.step env a = some sys →
        ∃ s', s.step env dash (.server a) = some s' ∧ s'.sys = sys ∧
          (s.dash.queue.length < dash.maxsize → s'.dash.popped ++ s'.dash.queue =
            s.dash.popped ++ s.dash.queue ++ s.sys.emitted sys)) ∧
      (s.dash.popped ++ s.dash.queue).Sublist s.sys.metrics.reverse ∧
      (s.sys.metrics.length ≤ dash.maxsize →
        s.dash.popped ++ s.dash.queue = s.sys.metrics.reverse) ∧
      s.dash.queue.length ≤ dash.maxsize ∧
      ∀ c n, (c, n) ∈ s.dash.joined → s.dash.received c <+: s.dash.popped.drop n ∧
        (s.dash.pump = .waiting → c ∈ s.dash.clients → s.dash.received c = s.dash.popped.drop n) := by
  have hsound := Observed.sound_of_reach h
  refine ⟨Observed.sys_of_reach h, fun a sys hsys => ?_, ?_, ?_, hsound.dashboard.bounded,
    fun c n hn => ⟨?_, ?_⟩⟩
  · refine ⟨_, by rw [Observed.step, hsys, Option.map_some], rfl, fun hroom => ?_⟩
    obtain ⟨hpopped, hqueue⟩ := Observed.queue_step hsys hroom
    rw [hpopped, hqueue, List.append_assoc]
  · exact hsound.dashboard.fifo ▸ hsound.inOrder
  · exact fun hle => hsound.dashboard.fifo ▸ hsound.complete hle
  · exact (hsound.dashboard.contiguous c n hn).2
  · intro hp hc
    have hpump := hsound.dashboard.pump
    rw [Dashboard.PumpInv, hp] at hpump
    exact (hpump c hc n hn).2

end Observed

namespace Scenario

/-- A queue of one place. -/
def onePlace : DashboardEnv (MetricsEvent ℚ) := ⟨1, fun _ => true⟩

/-- Worker `0` connects and sends a heartbeat. -/
def firstBeat : List (Action ℚ) :=
  connect 0 0 (.heartbeat 1 ∅) ++ [.run 0 0, .run 0 0, .write 0 4]

/-- A later heartbeat, from its arrival to the end of the answer. -/
def nextBeat : List (Action ℚ) :=
  request 0 0 (.heartbeat 1 ∅) ++ [.run 0 0, .run 0 0, .write 0 4]

/-- Browser `6` connects while `pump` sends a first payload to browser `5`. -/
def firstRound : List DashboardAction := [.join 5, .get [5], .join 6, .sent, .discard]

/-- Browser `5` fails at the second payload. -/
def secondRound : List DashboardAction := [.get [6, 5], .sent, .failed, .discard]

/-- Three heartbeats, of which the last one does not fit into the queue. -/
def twoBrowsers : List (ObservedAction ℚ) :=
  firstBeat.map .server ++ firstRound.map .dashboard ++ (nextBeat ++ nextBeat).map .server ++
    secondRound.map .dashboard

end Scenario

open Scenario

/-- Of three metrics one is lost, and the browser that has come late has the other one. -/
theorem dashboard_watches_twoBrowsers :
    ∃ s, Reach (Observed.step syncEnv onePlace) (fun _ _ _ => True) ⟨start, .init _⟩ s ∧
      s.sys.metrics.length = 3 ∧ s.dash.popped.length = 2 ∧
      s.dash.received 6 = s.dash.popped.drop 1 ∧ s.dash.received 5 <+: s.dash.popped ∧
      s.dash.popped.Sublist s.sys.metrics.reverse := by
  obtain ⟨s, hreach, hmetrics, hpopped, hjoined, hclients, hpump⟩ :=
    Reach.of_script (Observed.step syncEnv onePlace) (fun _ _ _ => True) ⟨start, .init _⟩
      twoBrowsers (fun _ _ _ => true) (fun _ _ _ _ => trivial)
      (fun s : Observed ℚ => s.sys.metrics.length = 3 ∧ s.dash.popped.length = 2 ∧
        s.dash.joined = [(5, 0), (6, 1)] ∧ s.dash.clients = [6] ∧ s.dash.pump matches .waiting)
      (by decide +kernel)
  have hwait : s.dash.pump = .waiting := by
    split at hpump
    · assumption
    · cases hpump
  obtain ⟨-, -, hsub, -, -, hclient⟩ := dashboard_watches hreach
  have h5 := hclient 5 0 (by rw [hjoined]; decide)
  have h6 := hclient 6 1 (by rw [hjoined]; decide)
  exact ⟨s, hreach, hmetrics, hpopped, h6.2 hwait (by rw [hclients]; decide), h5.1,
    (List.sublist_append_left _ _).trans hsub⟩

end DistributedRL
