import DistributedRL.Data.Endless
import DistributedRL.Worker.Completion
import Mathlib.Algebra.Order.BigOperators.Group.Finset
import Mathlib.Data.Prod.Lex

/-!
# Training ends

Every step of a healthy training run other than a scan brings it nearer to its end: it uses up one
of the calls that the workers have left, or takes a thread nearer to its next message, or sends some
bytes. So a run that goes on as long as anything can go on completes the training.
-/

namespace DistributedRL

variable {α 𝕂 : Type*}

/-! ### The measure -/

namespace Handler

/-- How many steps the thread takes at most until it waits for a message, not counting partial
sends, if at most `n` workers are registered. -/
def rank (n : ℕ) : Handler α → ℕ
  | .register _ => n + 11
  | .registerSocket _ => n + 10
  | .dispatch _ => n + 9
  | .apply r => r.sockets.values.length + 8
  | .getStep r => r.sockets.values.length + 7
  | .acks _ _ todo _ => todo.length + 6
  | .emit _ _ => 6
  | .checkpoint _ => 5
  | .checkpointAssign _ => 4
  | .checkpointSave => 3
  | .beaten _ => 2
  | .reply _ _ => 1
  | _ => 0

/-- How many bytes of the current message are still to be sent. -/
def unsent : Handler α → ℕ
  | .reply _ rest | .acks _ _ _ rest => rest.length
  | _ => 0

end Handler

/-- What a thread has to do for the messages that have arrived. -/
def Conn.load (n : ℕ) (k : Conn α) : ℕ := k.handler.rank n + (n + 12) * k.inbox.length

/-- How many calls the loop of the worker can still return from. -/
def Main.callsLeft (config : LrConfig 𝕂) (m : Main 𝕂) : ℕ :=
  match m.stage with
  | .start => 3 * config.maxSteps.toNat + 1
  | .top => 3 * (config.maxSteps.toNat - m.globalStep)
  | .pushed => 3 * (config.maxSteps.toNat - m.globalStep) - 1
  | .reported => 3 * (config.maxSteps.toNat - m.globalStep) - 2

/-- How many moves the worker makes until it waits for the answer to its next call. -/
def Phase.rank : Phase α → ℕ
  | .away => 2
  | .idle => 1
  | _ => 0

/-- How far the training is from its end: what the workers have to do, what the threads have to do
for the messages that have arrived, and how many bytes are still to be sent. -/
def Training.measure (config : LrConfig 𝕂) (members : Finset ConnId) (s : Training α 𝕂) :
    ℕ × ℕ × ℕ :=
  (∑ d ∈ members, (2 * (s.mains d).callsLeft config + (s.cluster.clients d).phase.rank),
    ∑ d ∈ members, (s.cluster.sys.conns d).load members.card,
    ∑ d ∈ members, (s.cluster.sys.conns d).handler.unsent)

/-! ### Threads -/

section Rules

variable [Scalar α] {env : ServerEnv α} {s s' : System α} {b : Action α} {c d : ConnId} {n : ℕ}

omit [Scalar α] in
lemma System.rank_exit : (s.exit c).rank n = 0 := by
  rcases s.exit_cases c with h | h <;> rw [h] <;> rfl

omit [Scalar α] in
lemma System.rank_replying (resp : Response α) : (s.replying env c resp).rank n ≤ 1 := by
  rcases s.replying_cases c env resp with ⟨_, -, h⟩ | h <;> rw [h]
  · exact le_rfl
  · simp [rank_exit]

omit [Scalar α] in
lemma System.rank_acking (r : Round α) (step : ℕ) (todo : List ConnId) :
    (s.acking env c r step todo).rank n ≤ todo.length + 6 := by
  rcases s.acking_cases c env r step todo with ⟨rfl, h⟩ | ⟨-, _, -, h⟩ | h <;> rw [h]
  · exact le_rfl
  · exact le_rfl
  · simp [rank_exit]

/-- A step of a thread brings it nearer to its next message, or sends some bytes. -/
lemma Rule.load_lt (hr : Rule env s b s') (ha : b.conn = some c) (hi : b.Internal = true)
    (hn : s.agg.sockets.values.length ≤ n) (heof : (s.conns c).eof = false)
    (hq : (s.conns c).handler.Quit = false) (hsave : s.SaveSucceeds b) :
    (s'.conns c).load n < (s.conns c).load n ∨
      (s'.conns c).load n = (s.conns c).load n ∧
        (s'.conns c).handler.unsent < (s.conns c).handler.unsent := by
  cases hr <;> cases ha
  case accept | arrive | hangup => cases hi
  case recvFail hh he => rw [heof] at he; cases he
  case replyFail resp rest hh he => rw [heof] at he; cases he
  case saveFail hh => exact absurd (by rw [hh]) hsave
  case markDead now w hh hw => rw [hh] at hq; cases hq
  case unregister now w hh hw => rw [hh] at hq; cases hq
  case close now hh => rw [hh] at hq; cases hq
  case replyPart k resp rest hk hl hh hd =>
    refine Or.inr ⟨by simp [Conn.load, Handler.rank, hh], ?_⟩
    simp [Handler.unsent, hh]
    omega
  case ackPart k r step e todo rest hd hk hl hh =>
    refine Or.inr ⟨by simp [Conn.load, Handler.rank, hh], ?_⟩
    simp [Handler.unsent, hh]
    omega
  all_goals
    left
    simp only [Conn.load, System.heartbeat, System.handler_goto, System.inbox_goto,
      System.inbox_send, System.inbox_reset, System.conns_setConn, if_true]
  case unreadable now rest hh hx =>
    rw [hh, hx, System.rank_exit]
    simp [Handler.rank, Nat.mul_add]
  case anonymous now m rest hm hh hx hw => simp [hh, hx, Handler.rank, Nat.mul_add]
  case identify now m rest w hm hh hx hw =>
    simp [hh, hx, Handler.rank, Nat.mul_add]
    omega
  case next now m rest w hh hx hw =>
    simp [hh, hx, Handler.rank, Nat.mul_add]
    omega
  all_goals refine Nat.add_lt_add_right ?_ _
  case pull now m w ht hh hw =>
    rw [hh]
    exact lt_of_le_of_lt (System.rank_replying _) (by simp only [Handler.rank]; omega)
  case heartbeat now m w hh hw =>
    rw [hh]
    exact lt_of_le_of_lt (System.rank_replying _) (by simp [Handler.rank])
  case getStep now r hh =>
    rw [hh]
    exact lt_of_le_of_lt (System.rank_acking ..) (by simp [Handler.rank])
  case ackEnd r step e todo rest hd hh =>
    rw [hh]
    exact lt_of_le_of_lt (System.rank_acking ..) (by simp [Handler.rank])
  case ackFail r step e todo rest hbr hh =>
    rw [hh]
    exact lt_of_le_of_lt (System.rank_acking ..) (by simp [Handler.rank])
  case fired now m w g norm ht hg hn' hh hw hsub =>
    rw [hh]
    simp only [Handler.rank, GradientAggregator.sockets_round, GradientAggregator.sockets_enter]
    omega
  case checkpoint now step hh =>
    rw [hh]
    split_ifs <;> simp [Handler.rank]
  case keyError now m w ht hg hh hw => rw [hh, System.rank_exit]; simp [Handler.rank]
  case raised now m w g e ht hg hn' hh hw => rw [hh, System.rank_exit]; simp [Handler.rank]
  case applyRaised now r st e hap hh => rw [hh, System.rank_exit]; simp [Handler.rank]
  all_goals simp_all [Handler.rank]

end Rules

/-! ### Workers -/

namespace Main

variable [Field 𝕂] [LinearOrder 𝕂] {config : LrConfig 𝕂} {cosPi : 𝕂 → 𝕂} {m : Main 𝕂}
  {k : Client α} {q : Request α}

lemma callsLeft_call : (m.call config cosPi q).callsLeft config = m.callsLeft config := by
  cases q <;> rfl

/-- A call that returns is used up. -/
lemma LoopInv.callsLeft_lt (h : m.LoopInv config cosPi k) (hp : k.phase = .waiting q) :
    (m.resume q).callsLeft config < m.callsLeft config := by
  have hin := h.waiting q hp
  have hacks := h.acks
  have hbound := h.bound
  rw [Client.pushes] at hbound
  cases q with
  | pullWeights =>
    have hne : m.stage ≠ .top := hin
    cases hs : m.stage with
    | start =>
      simp only [Main.resume, hs, Main.callsLeft]
      omega
    | top => exact absurd hs hne
    | pushed =>
      simp [hs] at hacks
      simp only [Main.resume, hs, Main.callsLeft]
      omega
    | reported =>
      simp [hs] at hacks
      simp only [Main.resume, hs, Main.callsLeft]
      omega
  | pushGradients step g =>
    have htop : m.stage = .top := hin
    simp [htop] at hacks
    simp [hp, Phase.Pushing] at hbound
    simp only [Main.resume, Main.callsLeft, htop]
    omega
  | heartbeat reward extra =>
    have hpushed : m.stage = .pushed := hin
    simp [hpushed] at hacks
    simp only [Main.resume, Main.callsLeft, hpushed]
    omega

end Main

/-- A sum of which one term decreases and the other ones stay. -/
lemma sum_lt_of_update {ι : Type*} {members : Finset ι} {f g : ι → ℕ} {c : ι} (hc : c ∈ members)
    (hlt : g c < f c) (hne : ∀ d, d ≠ c → g d = f d) : ∑ d ∈ members, g d < ∑ d ∈ members, f d := by
  refine Finset.sum_lt_sum (fun d _ => ?_) ⟨c, hc, hlt⟩
  by_cases hd : d = c
  · exact hd ▸ hlt.le
  · exact (hne d hd).le

lemma sum_eq_of_update {ι : Type*} {members : Finset ι} {f g : ι → ℕ} {c : ι}
    (heq : g c = f c) (hne : ∀ d, d ≠ c → g d = f d) :
    ∑ d ∈ members, g d = ∑ d ∈ members, f d := by
  refine Finset.sum_congr rfl fun d _ => ?_
  by_cases hd : d = c
  · exact hd ▸ heq
  · exact hne d hd

namespace HeartbeatMonitor

/-- A scan that finds nobody silent changes nothing. -/
lemma scan_eq_self {hb : HeartbeatMonitor} {now : ℚ}
    (h : ∀ p ∈ hb.lastSeen.entries, ¬ now - p.2 > hb.timeout) : hb.scan now = hb := by
  have hloop : ∀ es : List (WorkerId × ℚ), (∀ p ∈ es, ¬ now - p.2 > hb.timeout) →
      scanEntries hb.timeout now es hb.status = hb.status := by
    intro es
    induction es with
    | nil => exact fun _ => rfl
    | cons p es ih =>
      intro h
      rw [scanEntries, if_neg fun hlate => h p List.mem_cons_self hlate.1]
      exact ih fun q hq => h q (List.mem_cons_of_mem _ hq)
  rw [scan, hloop _ h]

end HeartbeatMonitor

/-! ### The end -/

/-- The order of the measure. -/
abbrev Nearer : ℕ × ℕ × ℕ → ℕ × ℕ × ℕ → Prop :=
  Prod.Lex (· < ·) (Prod.Lex (· < ·) (· < ·))

lemma nearer_wf : WellFounded Nearer :=
  wellFounded_lt.prod_lex (wellFounded_lt.prod_lex wellFounded_lt)

namespace Training

open Cluster

variable [Scalar α] [Field 𝕂] [LinearOrder 𝕂] {config : LrConfig 𝕂} {cosPi : 𝕂 → 𝕂}
  {env : ServerEnv α} {ids : ConnId → WorkerId} {s s' : Training α 𝕂} {a : ClusterAction α}
  {members : Finset ConnId} {st : WeightStore α} {timeout : ℚ} {d : ConnId}

/-- No more workers are registered than there are members. -/
lemma SaneInv.sockets_le (h : s.SaneInv config cosPi env ids members st) :
    s.cluster.sys.agg.sockets.values.length ≤ members.card := by
  have hnodup := h.sane.sync.tracked.sound.sends.nodup_sockets
  rw [← List.toFinset_card_of_nodup hnodup]
  refine Finset.card_le_card fun d hd => ?_
  obtain ⟨w, hw⟩ := Dict.mem_values_iff.mp (List.mem_toFinset.mp hd)
  exact h.sane.group.present d (h.sane.healthy.seats w d hw)

/-- A scan changes nothing that counts. -/
lemma measure_idle (hstep : s.step config cosPi env ids a = some s') (hidle : a.Idle = true) :
    s'.measure config members = s.measure config members := by
  obtain ⟨-, k, hk, rfl⟩ := of_step hstep
  cases rule_of_step hk with
  | @server b sys hi hs =>
    cases b <;> cases hidle
    cases hs
    rfl
  | _ => cases hidle

/-- Whatever else happens brings the training nearer to its end. -/
lemma SaneInv.measure_lt (h : s.SaneInv config cosPi env ids members st) (hp : env.pickle.Lawful)
    (hstep : s.step config cosPi env ids a = some s') (hk : s.Healthy env members a s')
    (hidle : a.Idle = false) : Nearer (s'.measure config members) (s.measure config members) := by
  obtain ⟨hlets, k, hk', rfl⟩ := of_step hstep
  have hsound := h.sane.sync.tracked.sound
  cases rule_of_step hk' with
  | @connect c sys hph hs =>
    refine .left _ _ (sum_lt_of_update (c := c) hk.trains ?_ fun d hd => ?_)
    · simp [moves, hph, Phase.rank]
    · simp [moves, hd]
  | @request c q sys hph hl hs =>
    refine .left _ _ (sum_lt_of_update (c := c) (h.sane.group.present c (by simp [hph])) ?_
      fun d hd => ?_)
    · simp [moves, hph, Phase.rank, Client.call, Main.callsLeft_call]
    · simp [moves, hd]
  | @receive c q payload rest hph hl hf =>
    obtain ⟨m, hm, -, -, hdec⟩ := hsound.decode_of_split hp hph hf
    have hidle' := Client.phase_finish (s.cluster.clients c) hm
    have hlt := (h.run.loops c).callsLeft_lt hph
    refine .left _ _ (sum_lt_of_update (c := c) (h.sane.group.present c (by simp [hph])) ?_
      fun d hd => ?_)
    · simp only [moves, clients_setClient, if_true, hph, hdec, hidle', Function.update_self,
        Phase.rank]
      omega
    · simp [moves, hd, hph, hdec, hidle']
  | leave hph hs => exact absurd rfl (hk.steady.1 _)
  | @server b sys hi hs =>
    have hr := System.rule_of_step hs
    obtain ⟨c, hc⟩ := ClusterAction.conn_of_not_idle hidle
    have hmem : c ∈ members := h.sane.group.present c fun hp =>
      (hr.not_waiting hi hc).1 (h.sane.absent_of_away hp)
    have hother : ∀ d, d ≠ c → (sys.conns d).handler = (s.cluster.sys.conns d).handler ∧
        (sys.conns d).inbox = (s.cluster.sys.conns d).inbox := fun d hd => by
      have hne : b.conn ≠ some d := by
        rw [hc]
        exact fun he => hd (Option.some.inj he).symm
      exact ⟨hr.handler_of_ne hne, hr.inbox_of_ne hne⟩
    refine .right _ ?_
    rcases hr.load_lt hc hi h.sockets_le (h.sane.sync.steady.eof c) (h.sane.healthy.running c)
      hk.saves with hlt | ⟨heq, hlt⟩
    · refine .left _ _ (sum_lt_of_update hmem hlt fun d hd => ?_)
      obtain ⟨hh, hx⟩ := hother d hd
      rw [Conn.load, Conn.load, hh, hx]
    · have hsame : ∑ d ∈ members, (sys.conns d).load members.card =
          ∑ d ∈ members, (s.cluster.sys.conns d).load members.card := by
        refine sum_eq_of_update heq fun d hd => ?_
        obtain ⟨hh, hx⟩ := hother d hd
        rw [Conn.load, Conn.load, hh, hx]
      dsimp only
      rw [hsame]
      refine .right _ (sum_lt_of_update hmem hlt fun d hd => ?_)
      rw [(hother d hd).1]

/-- An endless healthy run has finitely many actions other than scans. -/
lemma eventually_idle (hids : Function.Injective ids) (hp : env.pickle.Lawful)
    (hsync : GradientAggregator.minReady env.config ≤ 0) (hmax : 0 ≤ config.maxSteps)
    (hst : st.Aligned) {s : ℕ → Training α 𝕂} {a : ℕ → ClusterAction α}
    (h : Endless (step config cosPi env ids) (Healthy env members) (.init 𝕂 st timeout) s a) :
    ∃ n, ∀ m ≥ n, (a m).Idle = true := by
  refine Endless.eventually_idle nearer_wf (fun s : Training α 𝕂 => s.measure config members)
    (fun a : ClusterAction α => a.Idle = true) ?_ fun n hidle => measure_idle (h.next n) hidle
  intro n hidle
  exact (saneInv_of_reach hids hp hsync hmax hst (h.reach n)).measure_lt hp (h.next n)
    (h.allowed n) (Bool.eq_false_of_not_eq_true hidle)

/-- A scan that finds nobody silent changes nothing. -/
lemma step_scan (cosPi : 𝕂 → 𝕂) (env : ServerEnv α) (ids : ConnId → WorkerId) {now : ℚ}
    (h : ∀ p ∈ s.cluster.sys.hb.lastSeen.entries, ¬ now - p.2 > s.cluster.sys.hb.timeout) :
    s.step config cosPi env ids (.server (.scan now)) = some s := by
  have hcluster : s.cluster.step env ids (.server (.scan now)) = some s.cluster := by
    show some (Cluster.mk { s.cluster.sys with hb := s.cluster.sys.hb.scan now } _) = _
    rw [HeartbeatMonitor.scan_eq_self h]
  rw [step, if_pos (show s.Lets config (.server (.scan now)) from trivial), hcluster]
  rfl

/-- A scan does not undo the completion. -/
lemma Complete.step (h : s.Complete config members st) (hidle : a.Idle = true)
    (hstep : s.step config cosPi env ids a = some s') : s'.Complete config members st := by
  obtain ⟨-, k, hk, rfl⟩ := of_step hstep
  cases rule_of_step hk with
  | @server b sys hi hs =>
    cases b <;> cases hidle
    cases hs
    exact ⟨h.finished, h.acked, h.waiting, h.buffer, h.globalStep⟩
  | _ => cases hidle

/-- An endless healthy run of a group of workers in synchronous mode, in which something other than
a scan happens again and again as long as it can, completes the training: every worker makes as many
pushes as the training is long and reads an ACK for each of them, and the store goes as many steps
further. -/
theorem completes (hids : Function.Injective ids) (hp : env.pickle.Lawful)
    (hsync : GradientAggregator.minReady env.config ≤ 0) (hmax : 0 ≤ config.maxSteps)
    (hst : st.Aligned) {s : ℕ → Training α 𝕂} {a : ℕ → ClusterAction α}
    (h : Endless (step config cosPi env ids) (Healthy env members) (.init 𝕂 st timeout) s a)
    (hfair : ∀ n, ∃ m ≥ n, (a m).Idle = false ∨ ¬ (s m).CanGo config cosPi env ids members) :
    ∃ n, ∀ m ≥ n, (s m).Complete config members st := by
  obtain ⟨n, hidle⟩ := eventually_idle hids hp hsync hmax hst h
  obtain ⟨m, hm, hgo⟩ := hfair n
  have hstuck : ¬ (s m).CanGo config cosPi env ids members := by
    refine hgo.resolve_left fun hne => ?_
    rw [hidle m hm] at hne
    cases hne
  have hcomplete : (s m).Complete config members st :=
    (saneInv_of_reach hids hp hsync hmax hst (h.reach m)).complete (h.allowed m).fits hstuck hids
      hmax
  exact ⟨m, Endless.persists (P := fun t : Training α 𝕂 => t.Complete config members st) hcomplete
    fun k hk hc => hc.step (hidle k (le_trans hm hk)) (h.next k)⟩

end Training

/-! ### Two runs -/

/-- The worker is between two calls. -/
def Phase.isIdle : Phase α → Bool
  | .idle => true
  | _ => false

/-- The thread is in `recv_message`. -/
def Handler.isRecv : Handler α → Bool
  | .recv => true
  | _ => false

lemma Phase.eq_idle {p : Phase α} (h : p.isIdle = true) : p = .idle := by
  cases p with
  | idle => rfl
  | _ => cases h

lemma Handler.eq_recv {t : Handler α} (h : t.isRecv = true) : t = .recv := by
  cases t with
  | recv => rfl
  | _ => cases h

namespace Scenario

/-- Two workers go through the iteration `i` of their loops, with the delta `1` each, and leave the
store at step `k` with the weight `x`. -/
def iteratesBoth (i k : ℕ) (x : ℚ) : List (ClusterAction ℚ) :=
  calls 0 (.pushGradients i (single 1)) ++ runs 0 1 ++ calls 1 (.pushGradients i (single 1)) ++
    runs 1 3 ++ sends 1 0 (.ack k) ++ sends 1 1 (.ack k) ++ runs 1 2 ++ calls 0 .pullWeights ++
    runs 0 1 ++ sends 0 0 (.weightsResponse (single x)) ++ calls 1 .pullWeights ++ runs 1 1 ++
    sends 1 1 (.weightsResponse (single x))

/-- They train for two steps. -/
def trainsTwice : List (ClusterAction ℚ) :=
  pulls 0 0 ++ pulls 1 0 ++ iteratesBoth 0 1 (-1) ++ iteratesBoth 1 2 (-2)

end Scenario

open Scenario

/-- Two workers train for two steps; from then on the monitor scans. -/
theorem completes_twoSteps :
    ∃ s a, Endless (Training.step twoSteps id (wireEnv 0) ownId)
        (Training.Healthy (wireEnv 0) {0, 1}) untrained s a ∧
      ∃ n, ∀ m ≥ n, (s m).Complete twoSteps {0, 1} (oneParam 0 0) := by
  have hmem : ∀ d ∈ ({0, 1} : Finset ConnId), d < 2 := by decide
  obtain ⟨t, ht, hend⟩ := (Option.any_eq_true _ _).mp (show (runChecked
    (Training.step twoSteps id (wireEnv 0) ownId) (healthy (wireEnv 0) {0, 1} 2) untrained
      trainsTwice).any (fun t : Training ℚ ℚ => decide (
        together {0, 1} t (.server (.scan 0)) t = true ∧
        framesFit (wireEnv 0) t.cluster.sys = true ∧
        (∀ p ∈ t.cluster.sys.hb.lastSeen.entries, ¬ 0 - p.2 > t.cluster.sys.hb.timeout) ∧
        (∀ d < (2 : ℕ), ((t.mains d).stage = .top ∧ (2 : ℤ) ≤ (t.mains d).globalStep) ∧
          (t.cluster.clients d).phase.isIdle = true ∧ (t.cluster.clients d).acks.length = 2 ∧
          (t.cluster.sys.conns d).inbox.length = 0 ∧
          (t.cluster.sys.conns d).handler.isRecv = true) ∧
        t.cluster.sys.agg.buffer.keys = [] ∧ t.cluster.sys.store.globalStep = 2)) = true by
    decide +kernel)
  obtain ⟨hscans, hfits, hseen, hboth, hbuf, hstep⟩ := of_decide_eq_true hend
  have hreach : Reach (Training.step twoSteps id (wireEnv 0) ownId) (fun s a s' =>
      s.Healthy (wireEnv 0) {0, 1} a s' ∧ ((a.onServer ownId).all fun b => b.below 2) = true)
      untrained t := .of_runChecked (fun _ _ _ h => healthy_sound h) .refl ht
  have hi := Training.saneInv_of_reach ownId_injective (wireEnv_lawful 0) (by decide) (by decide)
    (oneParam_aligned 0 0) (hreach.mono fun hk => hk.1)
  have habsent : ∀ c, ¬ c < 2 → (t.cluster.sys.conns c).handler = .absent := fun c hc =>
    Cluster.absent_of_scripted (hreach.map Training.cluster fun {s a s'} hstep hk => by
      obtain ⟨-, k, hk', rfl⟩ := Training.of_step hstep
      exact Or.inr ⟨a, hk', hk.2⟩) (fun hk => hk) hc
  have hcomplete : t.Complete twoSteps {0, 1} (oneParam 0 0) := by
    refine ⟨?_, ?_, ?_, hbuf, fun _ => by rw [hstep]; rfl⟩
    · intro d hd
      obtain ⟨hfin, hphase, -⟩ := hboth d (hmem d hd)
      exact ⟨hfin, Phase.eq_idle hphase⟩
    · intro d hd
      obtain ⟨-, -, hacks, -⟩ := hboth d (hmem d hd)
      rw [hacks]
      rfl
    · intro c
      by_cases hc : c < 2
      · obtain ⟨-, -, -, hinbox, hrecv⟩ := hboth c hc
        exact ⟨List.length_eq_zero_iff.mp hinbox, Or.inr (Handler.eq_recv hrecv)⟩
      · exact ⟨hi.sane.inbox_of_absent (habsent c hc), Or.inl (habsent c hc)⟩
  have hloop : t.step twoSteps id (wireEnv 0) ownId (.server (.scan 0)) = some t :=
    Training.step_scan id (wireEnv 0) ownId hseen
  have hok : t.Healthy (wireEnv 0) {0, 1} (.server (.scan 0)) t :=
    ⟨(together_sound hscans).1, (together_sound hscans).2, trivial, framesFit_sound hfits⟩
  obtain ⟨s, a, hrun, n, hlast⟩ := Endless.of_runChecked
    (Training.step twoSteps id (wireEnv 0) ownId) (Training.Healthy (wireEnv 0) {0, 1})
    (healthy (wireEnv 0) {0, 1} 2) (fun _ _ _ h => (healthy_sound h).1) hloop hok ht
  refine ⟨s, a, hrun, Training.completes ownId_injective (wireEnv_lawful 0) (by decide) (by decide)
    (oneParam_aligned 0 0) hrun fun k => ⟨max k n, le_max_left k n, Or.inr ?_⟩⟩
  rw [(hlast _ (le_max_right k n)).1]
  exact hi.not_canGo hcomplete

end DistributedRL
