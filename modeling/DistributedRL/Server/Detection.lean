import DistributedRL.Server.Silence

/-!
# Detection

Silence does not go unnoticed. If the monitor scans often enough, whoever still counts as ALIVE has
beaten within the timeout and the time between two scans; so no round waits longer than that for a
worker that has stopped.
-/

namespace DistributedRL

variable {α : Type*}

/-- The time of the latest scan, or the start. -/
def lastScan (start : ℚ) : List MonitorEvent → ℚ
  | [] => start
  | .scanned t _ _ :: _ => t
  | _ :: log => lastScan start log

lemma lastScan_cons (start : ℚ) (log : List MonitorEvent) (e : MonitorEvent) :
    (∃ before after, e = .scanned e.time before after) ∧ lastScan start (e :: log) = e.time ∨
      lastScan start (e :: log) = lastScan start log := by
  cases e with
  | scanned t before after => exact Or.inl ⟨⟨before, after, rfl⟩, rfl⟩
  | _ => exact Or.inr rfl

namespace TimedSystem

/-- Whoever is ALIVE has been seen within the timeout before the latest scan. -/
structure DetectInv (timeout start : ℚ) (t : TimedSystem α) : Prop where
  silence : t.SilenceInv timeout
  scanned : lastScan start t.log ≤ t.clock
  spared : ∀ {w u}, t.sys.hb.status.get? w = some .alive → t.sys.hb.lastSeen.get? w = some u →
    lastScan start t.log - u ≤ timeout

variable [Scalar α] {env : ServerEnv α} {t t' : TimedSystem α} {timeout start : ℚ}
  {st : WeightStore α} {a : Action α}

omit [Scalar α] in
lemma detectInv_init : (init st timeout start).DetectInv timeout start where
  silence := silenceInv_init
  scanned := le_rfl
  spared h := by simp [init, System.init, HeartbeatMonitor.init] at h

lemma DetectInv.step (h : t.DetectInv timeout start) (htimeout : 0 ≤ timeout)
    (hs : t.step env a = some t') : t'.DetectInv timeout start := by
  classical
  have hsilence := h.silence.step hs
  obtain ⟨hle, s', hsys, rfl⟩ := step_cases hs
  have hhear := (System.rule_of_step hsys).hear
  refine ⟨hsilence, ?_, fun {w u} halive hu => ?_⟩
  · cases he : t.sys.event s' a with
    | none => exact h.scanned.trans hle
    | some e =>
      simp only [Option.toList_some, List.singleton_append]
      rcases lastScan_cons start t.log e with
        ⟨-, hscan⟩ | hscan
      · rw [hscan, System.time_of_event he, Option.getD_some]
      · rw [hscan]
        exact h.scanned.trans hle
  · cases he : t.sys.event s' a with
    | none =>
      rw [he, Option.elim_none] at hhear
      rw [hhear] at halive hu
      exact h.spared halive hu
    | some e =>
      rw [he, Option.elim_some] at hhear
      have htime := System.time_of_event he
      simp only [htime, Option.getD_some] at hle
      rw [hhear] at halive hu
      simp only [Option.toList_some, List.singleton_append]
      have hbefore := h.scanned.trans hle
      rw [HeartbeatMonitor.get?_lastSeen_hear] at hu
      rcases lastScan_cons start t.log e with ⟨⟨before, after, hscanned⟩, hscan⟩ | hscan
      · -- the scan would have marked a worker that has been silent for longer
        rw [hscanned] at halive hu
        obtain ⟨-, hspared⟩ := HeartbeatMonitor.alive_scan.mp
          (HeartbeatMonitor.mem_aliveWorkers.mpr halive)
        rw [if_neg (by simp [MonitorEvent.Beats])] at hu
        rw [hscan, ← h.silence.fixed]
        exact not_lt.mp fun hlate => hspared ⟨u, hu, hlate⟩
      · rw [hscan]
        split_ifs at hu with hb
        · cases hu
          linarith
        · exact h.spared ((HeartbeatMonitor.alive_of_alive_hear halive).resolve_left hb) hu

end TimedSystem

variable [Scalar α] {env : ServerEnv α} {t : TimedSystem α} {timeout start interval : ℚ}
  {st : WeightStore α}

/-- In every run in which the monitor scans at least every `interval` seconds, every worker that
counts as ALIVE has registered or beaten within `timeout + interval` seconds. Nobody else holds up
a round of the synchronous mode. -/
theorem silence_detected (htimeout : 0 ≤ timeout)
    (h : Reach (TimedSystem.step env)
      (fun _ _ t' => t'.clock - lastScan start t'.log ≤ interval) (.init st timeout start) t) :
    (∀ w ∈ t.sys.hb.aliveWorkers, ∃ e ∈ t.log, e.Beats w ∧ t.clock - e.time ≤ timeout + interval) ∧
      ∀ w ∈ t.sys.agg.waitingOn t.sys.hb,
        ∃ e ∈ t.log, e.Beats w ∧ t.clock - e.time ≤ timeout + interval := by
  obtain ⟨hinv, hscans⟩ : t.DetectInv timeout start ∧
      (t.log ≠ [] → t.clock - lastScan start t.log ≤ interval) := by
    refine h.invariant (P := fun t : TimedSystem α => t.DetectInv timeout start ∧
      (t.log ≠ [] → t.clock - lastScan start t.log ≤ interval)) ?_ ?_
    · exact ⟨TimedSystem.detectInv_init, fun hne => absurd rfl hne⟩
    · exact fun ih hs hok => ⟨ih.1.step htimeout hs, fun _ => hok⟩
  have halive : ∀ w ∈ t.sys.hb.aliveWorkers,
      ∃ e ∈ t.log, e.Beats w ∧ t.clock - e.time ≤ timeout + interval := by
    intro w hw
    have hw := HeartbeatMonitor.mem_aliveWorkers.mp hw
    obtain ⟨u, hu⟩ := hinv.silence.explained.known hw
    obtain ⟨e, he, hbeats, rfl⟩ := hinv.silence.explained.beat hu
    have hspared := hinv.spared hw hu
    have hrecent := hscans (List.ne_nil_of_mem he)
    exact ⟨e, he, hbeats, by linarith⟩
  refine ⟨halive, fun w hw => halive w ?_⟩
  exact (List.mem_filter.mp (List.mem_filter.mp hw).1).1

namespace Scenario

/-- Both workers connect at time 0, and worker `0` beats at time 20; the monitor scans every ten
seconds. -/
def scannedOften : List (Action ℚ) :=
  joins 0 ++ joins 1 ++ [.scan 10, .scan 20,
    .arrive 0 (.message ((Request.heartbeat 0 ∅).message 0)), .run 0 20, .run 0 20, .run 0 20,
    .scan 30, .scan 40]

/-- The monitor has scanned within the last ten seconds. -/
def scansOften (t' : TimedSystem ℚ) : Bool := t'.clock - lastScan 0 t'.log ≤ 10

end Scenario

open Scenario

/-- Worker `0` is ALIVE at time 40, and has beaten within 40 seconds; worker `1` is DEAD. -/
theorem silence_detected_scannedOften :
    ∃ t, Reach (TimedSystem.step syncEnv) (fun _ _ t' => t'.clock - lastScan 0 t'.log ≤ 10)
        startTimed t ∧ t.clock = 40 ∧ t.sys.hb.status.get? 1 = some .dead ∧
      ∃ e ∈ t.log, e.Beats 0 ∧ t.clock - e.time ≤ 30 + 10 := by
  obtain ⟨t, hreach, hclock, hdead, halive⟩ := Reach.of_script (TimedSystem.step syncEnv)
    (fun _ _ t' => t'.clock - lastScan 0 t'.log ≤ 10) startTimed scannedOften
    (fun _ _ t' => scansOften t') (fun _ _ _ h => of_decide_eq_true h)
    (fun t : TimedSystem ℚ => t.clock = 40 ∧ t.sys.hb.status.get? 1 = some .dead ∧
      0 ∈ t.sys.hb.aliveWorkers) (by decide +kernel)
  exact ⟨t, hreach, hclock, hdead, (silence_detected (by decide) hreach).1 0 halive⟩

end DistributedRL
