import DistributedRL.Server.Silence
import DistributedRL.Worker.Returns

/-!
# Who beats in time

A worker heartbeats in the first iteration of its loop that ends more than `HEARTBEAT_INTERVAL` after
its latest heartbeat. If its iterations are short enough, the server hears it often enough, and no
scan of the monitor takes it for dead.
-/

namespace DistributedRL

variable {σ Act Obs 𝕂 α : Type*} {numEnvs : ℕ}

/-! ### The heartbeats of a worker -/

namespace Accounts

variable [Field 𝕂] [LinearOrder 𝕂]

lemma lastHeartbeat_foldl (dones : Fin numEnvs → 𝕂) (l : List (Fin numEnvs))
    (s : Accounts σ 𝕂 numEnvs) :
    (l.foldl (finishEpisode dones) s).lastHeartbeat = s.lastHeartbeat := by
  induction l generalizing s with
  | nil => rfl
  | cons e l ih =>
    rw [List.foldl_cons, ih, finishEpisode]
    split_ifs
    · rfl
    · rfl

end Accounts

namespace Session

variable [Field 𝕂] [LinearOrder 𝕂] (p : Session σ Act Obs 𝕂 numEnvs)

/-- Iteration `r` sends a heartbeat. -/
def Heartbeats (r : ℕ) : Prop := heartbeatInterval < p.clock r - (p.iterations r).lastHeartbeat

lemma lastHeartbeat_rollout (r t : ℕ) (s : Accounts σ 𝕂 numEnvs) :
    (p.rollout r s t).lastHeartbeat = s.lastHeartbeat := by
  induction t with
  | zero => rfl
  | succ t ih => exact (Accounts.lastHeartbeat_foldl _ _ _).trans ih

lemma lastHeartbeat_of_heartbeats {r : ℕ} (h : p.Heartbeats r) :
    (p.iterations (r + 1)).lastHeartbeat = p.clock r := by
  have hlate : heartbeatInterval < p.clock r -
      (p.rollout r (p.iterations r) p.rolloutLength).lastHeartbeat := by
    rw [lastHeartbeat_rollout]
    exact h
  rw [iterations, Accounts.heartbeat, if_pos hlate]

lemma lastHeartbeat_of_not_heartbeats {r : ℕ} (h : ¬ p.Heartbeats r) :
    (p.iterations (r + 1)).lastHeartbeat = (p.iterations r).lastHeartbeat := by
  have hnot : ¬ heartbeatInterval < p.clock r -
      (p.rollout r (p.iterations r) p.rolloutLength).lastHeartbeat := by
    rw [lastHeartbeat_rollout]
    exact h
  rw [iterations, Accounts.heartbeat, if_neg hnot, lastHeartbeat_rollout]

/-- At the end of an iteration, the latest heartbeat is at most `HEARTBEAT_INTERVAL` ago. -/
lemma exists_heartbeats [IsStrictOrderedRing 𝕂] (hfirst : heartbeatInterval < p.clock 0) (n : ℕ) :
    ∃ r ≤ n, p.Heartbeats r ∧ (p.iterations (n + 1)).lastHeartbeat = p.clock r ∧
      p.clock n - p.clock r ≤ heartbeatInterval := by
  have hpos : (0 : 𝕂) ≤ heartbeatInterval := Nat.cast_nonneg 5
  induction n with
  | zero =>
    have hbeats : p.Heartbeats 0 := by
      show heartbeatInterval < p.clock 0 - 0
      rwa [sub_zero]
    refine ⟨0, le_rfl, hbeats, p.lastHeartbeat_of_heartbeats hbeats, ?_⟩
    rwa [sub_self]
  | succ n ih =>
    by_cases hbeats : p.Heartbeats (n + 1)
    · refine ⟨n + 1, le_rfl, hbeats, p.lastHeartbeat_of_heartbeats hbeats, ?_⟩
      rwa [sub_self]
    · obtain ⟨r, hr, hsent, hlast, -⟩ := ih
      refine ⟨r, hr.trans n.le_succ, hsent, ?_, ?_⟩
      · rw [p.lastHeartbeat_of_not_heartbeats hbeats, hlast]
      · rw [← hlast]
        exact not_lt.mp hbeats

end Session

/-! ### What the server hears of it -/

section

variable {p : Session σ Act Obs ℚ numEnvs} {w : WorkerId} {pace latency timeout : ℚ}
  {t t' : TimedSystem α}

variable (p w pace latency t) in
/-- The worker is in its loop, has connected no longer before the end of its first iteration than an
iteration may take, and each of its heartbeats has been handled after `latency` at the latest. -/
structure Session.Heard : Prop where
  running : ∃ r, t.clock ≤ p.clock r + latency
  connected : ∀ e ∈ t.log, e.Beats w → p.clock 0 - pace ≤ e.time
  delivered : ∀ r, p.Heartbeats r → p.clock r + latency < t.clock →
    ∃ e ∈ t.log, e.Beats w ∧ p.clock r ≤ e.time

/-- The worker keeps pace: the clock is that of iterations that take no longer than `pace`, and with
`HEARTBEAT_INTERVAL` and the latency that is within the timeout. -/
structure Session.Punctual (p : Session σ Act Obs ℚ numEnvs) (pace latency timeout : ℚ) : Prop where
  first : heartbeatInterval < p.clock 0
  next : ∀ r, p.clock (r + 1) ≤ p.clock r + pace
  within : heartbeatInterval + pace + latency ≤ timeout

/-- The last iteration that should have been heard has heartbeated recently, or the worker has just
connected. -/
lemma Session.Heard.exists_beat (h : p.Heard w pace latency t) (hp : p.Punctual pace latency timeout)
    (hknown : ∃ e ∈ t.log, e.Beats w) :
    ∃ e ∈ t.log, e.Beats w ∧ t.clock - e.time ≤ timeout := by
  classical
  have hinterval : (0 : ℚ) ≤ heartbeatInterval := Nat.cast_nonneg 5
  have hwithin := hp.within
  cases hn : Nat.find h.running with
  | zero =>
    have hrunning := Nat.find_spec h.running
    rw [hn] at hrunning
    obtain ⟨e, he, hbeats⟩ := hknown
    have hconnected := h.connected e he hbeats
    exact ⟨e, he, hbeats, by linarith⟩
  | succ n =>
    have hrunning := Nat.find_spec h.running
    have hbefore : ¬ t.clock ≤ p.clock n + latency :=
      Nat.find_min h.running (by rw [hn]; exact n.lt_succ_self)
    rw [hn] at hrunning
    obtain ⟨r, hr, hsent, -, hrecent⟩ := p.exists_heartbeats hp.first n
    have hnext := hp.next n
    have hheard : p.clock r + latency < t.clock :=
      not_le.mp (Nat.find_min h.running (by rw [hn]; exact Nat.lt_succ_of_le hr))
    obtain ⟨e, he, hbeats, hlate⟩ := h.delivered r hsent hheard
    exact ⟨e, he, hbeats, by linarith⟩

/-- A scan spares the worker. -/
lemma Session.Heard.not_marks [Scalar α] {env : ServerEnv α} {a : Action α}
    (h : p.Heard w pace latency t') (hp : p.Punctual pace latency timeout)
    (hsilence : t.SilenceInv timeout) (hs : t.step env a = some t') {e : MonitorEvent}
    (he : t'.log = e :: t.log) : ¬ e.Marks w := by
  intro hmarks
  obtain ⟨hle, s', hsys, rfl⟩ := TimedSystem.step_cases hs
  cases hevent : t.sys.event s' a with
  | none =>
    rw [hevent] at he
    exact absurd (congrArg List.length he) (by simp)
  | some e' =>
    have htime := System.time_of_event hevent
    rw [hevent] at he
    obtain rfl : e' = e := (List.cons.inj he).1
    cases e' with
    | scanned time before after =>
      obtain ⟨rfl, rfl⟩ := System.eq_of_event_scanned hevent hsys
      obtain ⟨halive, hnone⟩ := hsilence.explained.marks_iff.mp hmarks
      obtain ⟨u, hu⟩ := hsilence.explained.known halive
      obtain ⟨m, hm, hbeats, -⟩ := hsilence.explained.beat hu
      obtain ⟨m', hm', hbeats', hrecent⟩ := h.exists_beat hp
        ⟨m, List.mem_append_right _ hm, hbeats⟩
      have hm' : m' ∈ t.log := by
        rw [hevent] at hm'
        rcases List.mem_append.mp hm' with hscan | hold
        · rw [List.mem_singleton.mp hscan] at hbeats'
          exact hbeats'.elim
        · exact hold
      refine hnone ⟨m', hm', hbeats', ?_⟩
      simp only [htime, Option.getD_some] at hrecent
      rw [hsilence.fixed]
      exact hrecent
    | _ => exact hmarks

end

variable [Scalar α] {env : ServerEnv α} {st : WeightStore α} {p : Session σ Act Obs ℚ numEnvs}
  {w : WorkerId} {pace latency timeout start : ℚ} {t : TimedSystem α}

/-- A worker whose iterations are no longer than `pace`, and whose heartbeats are handled within
`latency`, is not declared dead by any scan, provided that both and `HEARTBEAT_INTERVAL` fit into
the timeout. -/
theorem punctual_never_marked (hp : p.Punctual pace latency timeout)
    (h : Reach (TimedSystem.step env) (fun _ _ t' => p.Heard w pace latency t')
      (.init st timeout start) t) :
    ∀ e past, e :: past <:+ t.log → ¬ e.Marks w := by
  have hinv : t.SilenceInv timeout ∧ ∀ e past, e :: past <:+ t.log → ¬ e.Marks w := by
    refine h.invariant (P := fun t : TimedSystem α => t.SilenceInv timeout ∧
      ∀ e past, e :: past <:+ t.log → ¬ e.Marks w) ⟨TimedSystem.silenceInv_init, ?_⟩ ?_
    · intro e past hsuffix
      simp [TimedSystem.init] at hsuffix
    · intro t a t' ih hs hheard
      refine ⟨ih.1.step hs, ?_⟩
      obtain ⟨-, s', -, ht'⟩ := TimedSystem.step_cases hs
      cases hevent : t.sys.event s' a with
      | none =>
        rw [ht', hevent]
        exact ih.2
      | some e =>
        have hlog : t'.log = e :: t.log := by
          rw [ht', hevent]
          rfl
        rw [hlog]
        exact forall_suffix_cons.mpr ⟨hheard.not_marks hp ih.1 hs hlog, ih.2⟩
  exact hinv.2

namespace Scenario

/-- A worker whose iterations take ten seconds each. -/
def tenSeconds : Session Unit Unit Unit ℚ 1 :=
  ⟨⟨fun s => (s, ()), fun s _ => (s, (), 0, false)⟩, fun _ => (), fun _ _ => (), 8,
    fun r => 10 * (r + 1)⟩

/-- The worker connects at time 0 and beats at time 20; the monitor scans every ten seconds. -/
def beatsOnce : List (Action ℚ) :=
  joins 0 ++ [.scan 10, .scan 20, .arrive 0 (.message ((Request.heartbeat 0 ∅).message 0)),
    .run 0 20, .run 0 20, .run 0 20, .scan 30, .scan 40]

/-- Its first two heartbeats have been handled after 15 seconds at the latest. -/
def heardInTime (t' : TimedSystem ℚ) : Bool :=
  t'.clock ≤ 40 ∧ (∀ e ∈ t'.log, e.Beats 0 → 0 ≤ e.time) ∧
    (25 < t'.clock → ∃ e ∈ t'.log, e.Beats 0 ∧ 10 ≤ e.time) ∧
    (35 < t'.clock → ∃ e ∈ t'.log, e.Beats 0 ∧ 20 ≤ e.time)

lemma heardInTime_sound {t' : TimedSystem ℚ} (h : heardInTime t' = true) :
    tenSeconds.Heard 0 10 15 t' := by
  obtain ⟨hclock, hconnected, hfirst, hsecond⟩ := of_decide_eq_true h
  have hreads : ∀ r, tenSeconds.clock r = 10 * ((r : ℚ) + 1) := fun _ => rfl
  refine ⟨⟨3, ?_⟩, ?_, ?_⟩
  · rw [hreads]
    norm_num
    linarith
  · intro e he hbeats
    rw [hreads]
    norm_num
    exact hconnected e he hbeats
  · intro r _ hlate
    rw [hreads] at hlate ⊢
    match r with
    | 0 =>
      norm_num at hlate ⊢
      exact hfirst hlate
    | 1 =>
      norm_num at hlate ⊢
      exact hsecond hlate
    | n + 2 =>
      have hn : (0 : ℚ) ≤ n := Nat.cast_nonneg n
      push_cast at hlate
      linarith

lemma tenSeconds_punctual : tenSeconds.Punctual 10 15 30 where
  first := by
    show ((5 : ℕ) : ℚ) < 10 * (((0 : ℕ) : ℚ) + 1)
    norm_num
  next r := by
    show 10 * (((r + 1 : ℕ) : ℚ) + 1) ≤ 10 * ((r : ℚ) + 1) + 10
    push_cast
    linarith
  within := by
    show ((5 : ℕ) : ℚ) + 10 + 15 ≤ 30
    norm_num

end Scenario

open Scenario

/-- Worker `0` is spared by the scans up to 40 seconds, with a heartbeat at 20. -/
theorem punctual_never_marked_tenSeconds :
    ∃ t, Reach (TimedSystem.step syncEnv) (fun _ _ t' => tenSeconds.Heard 0 10 15 t') startTimed t ∧
      t.clock = 40 ∧ ∀ e past, e :: past <:+ t.log → ¬ e.Marks 0 := by
  obtain ⟨t, hreach, hclock⟩ := Reach.of_script (TimedSystem.step syncEnv)
    (fun _ _ t' => tenSeconds.Heard 0 10 15 t') startTimed beatsOnce (fun _ _ t' => heardInTime t')
    (fun _ _ _ h => heardInTime_sound h) (fun t : TimedSystem ℚ => t.clock = 40) (by decide +kernel)
  exact ⟨t, hreach, hclock, punctual_never_marked tenSeconds_punctual hreach⟩

end DistributedRL
