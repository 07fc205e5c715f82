import DistributedRL.Server.Freshness
import Mathlib.Tactic.Linarith

/-!
# Silence

The server under a clock. `last_seen` is what the monitor judges a worker by, and only `register`
and the HEARTBEAT branch of `handle_worker` write it: a worker that pulls and pushes but whose
heartbeats lag counts as silent.

The log records what is read off the clock, and no step reads it.
-/

namespace DistributedRL

variable {α : Type*}

/-- What happens to the monitor, with the reading of the clock. A scan comes with the monitor before
and after it. -/
inductive MonitorEvent
  | registered (w : WorkerId) (time : ℚ)
  | handled (w : WorkerId) (type : MessageType) (time : ℚ)
  | left (w : WorkerId) (time : ℚ)
  | scanned (time : ℚ) (before after : HeartbeatMonitor)

namespace MonitorEvent

def time : MonitorEvent → ℚ
  | registered _ t | handled _ _ t | left _ t | scanned t _ _ => t

/-- The event writes `last_seen[w]`. -/
def Beats (w : WorkerId) : MonitorEvent → Prop
  | registered v _ => v = w
  | handled v type _ => v = w ∧ type = .heartbeat
  | _ => False

/-- A request of `w` is handled. -/
def Hears (w : WorkerId) : MonitorEvent → Prop
  | handled v type _ =>
    v = w ∧ (type = .pullWeights ∨ type = .pushGradients ∨ type = .heartbeat)
  | _ => False

end MonitorEvent

namespace HeartbeatMonitor

/-- What an event does to the monitor. -/
def hear (hb : HeartbeatMonitor) : MonitorEvent → HeartbeatMonitor
  | .registered w t => hb.register w t
  | .handled w .heartbeat t => hb.beat w t
  | .handled _ _ _ => hb
  | .left w _ => hb.markDead w
  | .scanned t _ _ => hb.scan t

/-- The log explains the monitor: `last_seen` holds the times of the latest beats, and nobody is
ALIVE without one. -/
structure Explained (hb : HeartbeatMonitor) (log : List MonitorEvent) (clock : ℚ) : Prop where
  beat : ∀ {w t}, hb.lastSeen.get? w = some t → ∃ e ∈ log, e.Beats w ∧ e.time = t
  latest : ∀ {w t}, hb.lastSeen.get? w = some t → ∀ e ∈ log, e.Beats w → e.time ≤ t
  known : ∀ {w}, hb.status.get? w = some .alive → ∃ t, hb.lastSeen.get? w = some t
  past : ∀ e ∈ log, e.time ≤ clock

end HeartbeatMonitor

/-- The scan takes `w` out of the ALIVE workers. -/
def MonitorEvent.Marks (w : WorkerId) : MonitorEvent → Prop
  | scanned _ before after =>
    before.status.get? w = some .alive ∧ after.status.get? w = some .dead
  | _ => False

/-- The scan finds `w` ALIVE. -/
def MonitorEvent.Judges (w : WorkerId) : MonitorEvent → Prop
  | scanned _ before _ => before.status.get? w = some .alive
  | _ => False

/-- No request of a worker that a scan declares dead has been handled within the timeout. -/
def OnlySilentMarked (timeout : ℚ) (log : List MonitorEvent) : Prop :=
  ∀ e past, e :: past <:+ log → ∀ w, e.Marks w →
    ∀ m ∈ past, m.Hears w → ¬ e.time - m.time ≤ timeout

/-- Whenever a scan finds a worker ALIVE of which a request has been handled within the timeout, the
worker has also registered, or a HEARTBEAT of it has been handled, within the timeout. -/
def HeartbeatsKeepUp (timeout : ℚ) (log : List MonitorEvent) : Prop :=
  ∀ e past, e :: past <:+ log → ∀ w, e.Judges w →
    (∃ m ∈ past, m.Hears w ∧ e.time - m.time ≤ timeout) →
      ∃ m ∈ past, m.Beats w ∧ e.time - m.time ≤ timeout

section Decidable

instance (w : WorkerId) : (e : MonitorEvent) → Decidable (e.Beats w)
  | .registered _ _ | .handled _ _ _ => by unfold MonitorEvent.Beats; infer_instance
  | .left _ _ | .scanned _ _ _ => isFalse id

instance (w : WorkerId) : (e : MonitorEvent) → Decidable (e.Hears w)
  | .handled _ _ _ => by unfold MonitorEvent.Hears; infer_instance
  | .registered _ _ | .left _ _ | .scanned _ _ _ => isFalse id

variable {P : WorkerId → Prop} [DecidablePred P]

instance : (e : MonitorEvent) → Decidable (∀ w, e.Judges w → P w)
  | .scanned _ before _ =>
    decidable_of_iff (∀ w ∈ before.aliveWorkers, P w) <| by simp [MonitorEvent.Judges]
  | .registered _ _ | .handled _ _ _ | .left _ _ => isTrue fun _ h => h.elim

instance : (e : MonitorEvent) → Decidable (∀ w, e.Marks w → P w)
  | .scanned _ before after =>
    decidable_of_iff
      (∀ w ∈ before.aliveWorkers, after.status.get? w = some .dead → P w) <| by
      simp [MonitorEvent.Marks]
  | .registered _ _ | .handled _ _ _ | .left _ _ => isTrue fun _ h => h.elim

/-- A property of the events of a log and their pasts, event by event. -/
lemma forall_suffix_cons {P : MonitorEvent → List MonitorEvent → Prop} {e : MonitorEvent}
    {log : List MonitorEvent} :
    (∀ f past, f :: past <:+ e :: log → P f past) ↔
      P e log ∧ ∀ f past, f :: past <:+ log → P f past := by
  simp only [List.suffix_cons_iff, or_imp, forall_and, List.cons.injEq]
  constructor
  · rintro ⟨hhead, htail⟩
    exact ⟨hhead e log ⟨rfl, rfl⟩, htail⟩
  · rintro ⟨hhead, htail⟩
    exact ⟨by rintro _ _ ⟨rfl, rfl⟩; exact hhead, htail⟩

/-- Run through a log. -/
def decidableSuffix {P : MonitorEvent → List MonitorEvent → Prop}
    (hP : ∀ e past, Decidable (P e past)) :
    (log : List MonitorEvent) → Decidable (∀ e past, e :: past <:+ log → P e past)
  | [] => isTrue <| by simp
  | e :: log =>
    have := decidableSuffix hP log
    have := hP e log
    decidable_of_iff _ forall_suffix_cons.symm

instance (timeout : ℚ) (log : List MonitorEvent) : Decidable (OnlySilentMarked timeout log) :=
  decidableSuffix (fun _ _ => inferInstance) log

instance (timeout : ℚ) (log : List MonitorEvent) : Decidable (HeartbeatsKeepUp timeout log) :=
  decidableSuffix (fun _ _ => inferInstance) log

end Decidable

/-! ### The server under a clock -/

/-- The reading of the clock in an action. -/
def Action.reading : Action α → Option ℚ
  | .scan now | .run _ now => some now
  | _ => none

/-- What an action does to the monitor. -/
def System.event (s s' : System α) : Action α → Option MonitorEvent
  | .scan now => some (.scanned now s.hb s'.hb)
  | .run c now =>
    match (s.conns c).handler, (s.conns c).workerId with
    | .register _, some w => some (.registered w now)
    | .dispatch m, some w => some (.handled w m.type now)
    | .markDead, some w => some (.left w now)
    | _, _ => none
  | _ => none

/-- The server, the latest reading of the clock, and the events so far, newest first. -/
structure TimedSystem (α : Type*) where
  sys : System α
  clock : ℚ
  log : List MonitorEvent

namespace TimedSystem

/-- The server is started when the clock reads `clock`. -/
def init (store : WeightStore α) (timeout clock : ℚ) : TimedSystem α :=
  ⟨.init store timeout, clock, []⟩

/-- A step of the server at a reading of the clock that is not before the latest one. -/
def step [Scalar α] (env : ServerEnv α) (t : TimedSystem α) (a : Action α) :
    Option (TimedSystem α) :=
  if t.clock ≤ a.reading.getD t.clock then
    (t.sys.step env a).map fun s' =>
      ⟨s', a.reading.getD t.clock, (t.sys.event s' a).toList ++ t.log⟩
  else none

end TimedSystem

/-! ### The monitor and the log -/

namespace HeartbeatMonitor

variable {hb : HeartbeatMonitor} {log : List MonitorEvent} {e : MonitorEvent} {w : WorkerId}
  {clock t : ℚ}

lemma explained_init (timeout clock : ℚ) : (init timeout).Explained [] clock where
  beat h := by simp [init] at h
  latest h := by simp [init] at h
  known h := by simp [init] at h
  past _ h := by cases h

lemma lastSeen_scan : (hb.scan t).lastSeen = hb.lastSeen := rfl

lemma hear_handled_of_ne {type : MessageType} (h : type ≠ .heartbeat) :
    hb.hear (.handled w type t) = hb := by
  cases type with
  | heartbeat => exact absurd rfl h
  | _ => rfl

@[simp] lemma timeout_hear : (hb.hear e).timeout = hb.timeout := by
  cases e with
  | handled w type t => cases type <;> rfl
  | _ => rfl

/-- Only the worker of a beat is seen, at the time of the beat. -/
lemma get?_lastSeen_hear [Decidable (e.Beats w)] :
    (hb.hear e).lastSeen.get? w = if e.Beats w then some e.time else hb.lastSeen.get? w := by
  cases e with
  | registered v t =>
    simp only [hear, register, Dict.get?_set, MonitorEvent.Beats, MonitorEvent.time, eq_comm]
  | handled v type t =>
    cases type <;>
      simp [hear, HeartbeatMonitor.beat, Dict.get?_set, MonitorEvent.Beats, MonitorEvent.time,
        eq_comm]
  | left v t => simp [hear, markDead, MonitorEvent.Beats]
  | scanned t before after => simp [hear, lastSeen_scan, MonitorEvent.Beats]

/-- Nobody else comes to life. -/
lemma alive_of_alive_hear (h : (hb.hear e).status.get? w = some .alive) :
    e.Beats w ∨ hb.status.get? w = some .alive := by
  cases e with
  | registered v t =>
    have hreg := alive_register.mp (mem_aliveWorkers.mpr h)
    exact hreg.imp Eq.symm mem_aliveWorkers.mp
  | handled v type t =>
    cases type with
    | heartbeat =>
      have hbeat := alive_register.mp (mem_aliveWorkers.mpr h)
      exact hbeat.imp (fun hw => ⟨hw.symm, rfl⟩) mem_aliveWorkers.mp
    | _ => exact Or.inr h
  | left v t => exact Or.inr (mem_aliveWorkers.mp (alive_markDead.mp (mem_aliveWorkers.mpr h)).2)
  | scanned t before after =>
    exact Or.inr (mem_aliveWorkers.mp (alive_scan.mp (mem_aliveWorkers.mpr h)).1)

lemma Explained.mono (h : hb.Explained log clock) (hle : clock ≤ t) : hb.Explained log t :=
  { h with past := fun m hm => (h.past m hm).trans hle }

/-- An event at a later time is explained by the log it is added to. -/
lemma Explained.hear (h : hb.Explained log clock) (hle : clock ≤ e.time) :
    (hb.hear e).Explained (e :: log) e.time := by
  classical
  have hpast : ∀ m ∈ e :: log, m.time ≤ e.time := by
    intro m hm
    rcases List.mem_cons.mp hm with rfl | hm
    · exact le_rfl
    · exact (h.past m hm).trans hle
  refine ⟨fun {w t} hw => ?_, fun {w t} hw m hm hbeats => ?_, fun {w} hw => ?_, hpast⟩
  · rw [get?_lastSeen_hear] at hw
    split_ifs at hw with he
    · exact ⟨e, List.mem_cons_self, he, Option.some.inj hw⟩
    · obtain ⟨m, hm, hbeats, rfl⟩ := h.beat hw
      exact ⟨m, List.mem_cons_of_mem _ hm, hbeats, rfl⟩
  · rw [get?_lastSeen_hear] at hw
    split_ifs at hw with he
    · rw [← Option.some.inj hw]
      exact hpast m hm
    · rcases List.mem_cons.mp hm with rfl | hm
      · exact absurd hbeats he
      · exact h.latest hw m hm hbeats
  · by_cases he : e.Beats w
    · exact ⟨e.time, by rw [get?_lastSeen_hear, if_pos he]⟩
    · obtain ⟨t, ht⟩ := h.known ((alive_of_alive_hear hw).resolve_left he)
      exact ⟨t, by rw [get?_lastSeen_hear, if_neg he, ht]⟩

/-- A scan forgets nobody. -/
lemma get?_scanEntries_ne_none {timeout now : ℚ} {es : List (WorkerId × ℚ)}
    {status : Dict WorkerId Liveness} (h : status.get? w ≠ none) :
    (scanEntries timeout now es status).get? w ≠ none := by
  induction es generalizing status with
  | nil => exact h
  | cons p es ih =>
    obtain ⟨v, t⟩ := p
    simp only [scanEntries]
    split_ifs
    · refine ih ?_
      rw [Dict.get?_set]
      split_ifs <;> simp [h]
    · exact ih h

/-- The ALIVE workers that a scan marks are the silent ones. -/
lemma marks_scan_iff :
    (MonitorEvent.scanned t hb (hb.scan t)).Marks w ↔
      hb.status.get? w = some .alive ∧ hb.Silent t w := by
  refine and_congr_right ?_
  intro halive
  have hspared : w ∈ (hb.scan t).aliveWorkers ↔ w ∈ hb.aliveWorkers ∧ ¬ hb.Silent t w :=
    alive_scan
  simp only [mem_aliveWorkers, halive, true_and] at hspared
  have hknown : (hb.scan t).status.get? w ≠ none :=
    get?_scanEntries_ne_none (by rw [halive]; exact Option.some_ne_none _)
  cases hs : (hb.scan t).status.get? w with
  | none => exact absurd hs hknown
  | some l =>
    rw [hs, Option.some.injEq] at hspared
    cases l with
    | alive => simpa using hspared
    | dead => simpa using hspared

/-- A scan spares an ALIVE worker just when the log has a beat of it within the timeout. -/
lemma Explained.marks_iff (h : hb.Explained log clock) :
    (MonitorEvent.scanned t hb (hb.scan t)).Marks w ↔
      hb.status.get? w = some .alive ∧ ¬ ∃ m ∈ log, m.Beats w ∧ t - m.time ≤ hb.timeout := by
  rw [marks_scan_iff]
  refine and_congr_right ?_
  intro halive
  obtain ⟨u, hu⟩ := h.known halive
  constructor
  · rintro ⟨_, hu', hlate⟩ ⟨m, hm, hbeats, hrecent⟩
    obtain rfl := Option.some.inj (hu.symm.trans hu')
    have hle := h.latest hu m hm hbeats
    linarith
  · intro hnone
    obtain ⟨m, hm, hbeats, rfl⟩ := h.beat hu
    exact ⟨m.time, hu, not_le.mp fun hrecent => hnone ⟨m, hm, hbeats, hrecent⟩⟩

end HeartbeatMonitor

/-! ### Logs -/

section Log

variable {log : List MonitorEvent} {e : MonitorEvent} {timeout : ℚ}

lemma onlySilentMarked_nil : OnlySilentMarked timeout [] := by
  intro e past h
  simp at h

lemma heartbeatsKeepUp_nil : HeartbeatsKeepUp timeout [] := by
  intro e past h
  simp at h

/-- What one event adds: a scan wrongs nobody just when every ALIVE worker whose requests are recent
has a recent beat. -/
lemma HeartbeatMonitor.Explained.cons_iff {hb : HeartbeatMonitor} {clock : ℚ}
    (h : hb.Explained log clock)
    (he : ∀ t before after, e = .scanned t before after → before = hb ∧ after = hb.scan t)
    (ih : OnlySilentMarked hb.timeout log ↔ HeartbeatsKeepUp hb.timeout log) :
    OnlySilentMarked hb.timeout (e :: log) ↔ HeartbeatsKeepUp hb.timeout (e :: log) := by
  rw [OnlySilentMarked, HeartbeatsKeepUp, forall_suffix_cons, forall_suffix_cons]
  refine and_congr ?_ ih
  refine forall_congr' ?_
  intro w
  cases e with
  | scanned t before after =>
    obtain ⟨rfl, rfl⟩ := he t before after rfl
    rw [h.marks_iff]
    constructor
    · rintro hsilent halive ⟨m, hm, hhears, hrecent⟩
      by_contra hnone
      exact hsilent ⟨halive, hnone⟩ m hm hhears hrecent
    · rintro hkeep ⟨halive, hnone⟩ m hm hhears hrecent
      exact hnone (hkeep halive ⟨m, hm, hhears, hrecent⟩)
  | _ => simp [MonitorEvent.Marks, MonitorEvent.Judges]

end Log

/-! ### Runs -/

variable [Scalar α] {env : ServerEnv α} {s s' : System α} {a : Action α}

/-- Only what is logged changes the monitor. -/
lemma Rule.hear (hr : Rule env s a s') :
    s'.hb = (s.event s' a).elim s.hb s.hb.hear := by
  cases hr
  case ignored c now m w hh hw _ _ ht =>
    simp [System.event, hh, hw, HeartbeatMonitor.hear_handled_of_ne ht]
  all_goals simp_all [System.event, HeartbeatMonitor.hear, System.heartbeat]

omit [Scalar α] in
lemma System.time_of_event {e : MonitorEvent} (he : s.event s' a = some e) :
    a.reading = some e.time := by
  cases a with
  | scan now =>
    cases he
    rfl
  | run c now =>
    simp only [event] at he
    split at he <;> cases he <;> rfl
  | _ => cases he

lemma System.eq_of_event_scanned {t : ℚ} {before after : HeartbeatMonitor}
    (he : s.event s' a = some (.scanned t before after)) (hs : s.step env a = some s') :
    before = s.hb ∧ after = s.hb.scan t := by
  cases a with
  | scan now =>
    cases hs
    cases he
    exact ⟨rfl, rfl⟩
  | run c now =>
    simp only [event] at he
    split at he <;> cases he
  | _ => cases he

namespace TimedSystem

/-- The log explains the monitor, and a scan has wronged nobody just when heartbeats keep up. -/
structure SilenceInv (timeout : ℚ) (t : TimedSystem α) : Prop where
  fixed : t.sys.hb.timeout = timeout
  explained : t.sys.hb.Explained t.log t.clock
  agree : OnlySilentMarked timeout t.log ↔ HeartbeatsKeepUp timeout t.log

variable {t t' : TimedSystem α} {timeout clock : ℚ} {st : WeightStore α}

omit [Scalar α] in
lemma silenceInv_init : (init st timeout clock).SilenceInv timeout where
  fixed := rfl
  explained := HeartbeatMonitor.explained_init timeout clock
  agree := iff_of_true onlySilentMarked_nil heartbeatsKeepUp_nil

/-- A timed step is a step of the server at a reading that is not before the latest one. -/
lemma step_cases (h : t.step env a = some t') :
    t.clock ≤ t'.clock ∧ ∃ s', t.sys.step env a = some s' ∧
      t' = ⟨s', a.reading.getD t.clock, (t.sys.event s' a).toList ++ t.log⟩ := by
  simp only [step] at h
  split at h
  · next hle =>
    obtain ⟨s', hs, rfl⟩ := Option.map_eq_some_iff.mp h
    exact ⟨hle, s', hs, rfl⟩
  · cases h

lemma SilenceInv.step (h : t.SilenceInv timeout) (hs : t.step env a = some t') :
    t'.SilenceInv timeout := by
  obtain ⟨hle, s', hsys, rfl⟩ := step_cases hs
  have hhear := (System.rule_of_step hsys).hear
  cases he : t.sys.event s' a with
  | none =>
    rw [he, Option.elim_none] at hhear
    refine ⟨?_, ?_, h.agree⟩
    · rw [hhear, h.fixed]
    · rw [hhear]
      exact h.explained.mono hle
  | some e =>
    have htime := System.time_of_event he
    rw [he, Option.elim_some] at hhear
    simp only [htime, Option.getD_some] at hle
    refine ⟨?_, ?_, ?_⟩
    · rw [hhear, HeartbeatMonitor.timeout_hear, h.fixed]
    · rw [hhear, htime]
      exact h.explained.hear hle
    · have hagree := h.explained.cons_iff (e := e) (fun u before after hscan => ?_) ?_
      · rwa [h.fixed] at hagree
      · subst hscan
        exact System.eq_of_event_scanned he hsys
      · rw [h.fixed]
        exact h.agree

end TimedSystem

/-- In every run, only workers are declared dead that the server has not heard of within the timeout
if and only if every ALIVE worker that it has heard of has beaten within the timeout. -/
theorem only_silent_marked_iff {ok : TimedSystem α → Action α → TimedSystem α → Prop}
    {st : WeightStore α} {timeout clock : ℚ} {t : TimedSystem α}
    (h : Reach (TimedSystem.step env) ok (.init st timeout clock) t) :
    OnlySilentMarked timeout t.log ↔ HeartbeatsKeepUp timeout t.log := by
  have hinv : t.SilenceInv timeout := by
    refine h.invariant TimedSystem.silenceInv_init ?_
    intro t a t' ih hs _
    exact ih.step hs
  exact hinv.agree

namespace Scenario

/-- Worker `0` pulls at time 0 and pushes at time 25; worker `1` has not pushed yet when the monitor
scans at time 31. -/
def slowPeer : List (Action ℚ) :=
  joins 0 ++ joins 1 ++
    [.arrive 0 (.message ((push 1).message 0)), .run 0 25, .run 0 25, .scan 31]

/-- As `slowPeer`, with a HEARTBEAT of worker `0` at time 20. -/
def slowPeerBeats : List (Action ℚ) :=
  joins 0 ++ joins 1 ++
    [.arrive 0 (.message ((Request.heartbeat 0 ∅).message 0)), .run 0 20, .run 0 20, .run 0 20] ++
    [.write 0 4, .arrive 0 (.message ((push 1).message 0)), .run 0 25, .run 0 25, .scan 31]

/-- The server of `start`, with the clock at 0. -/
def startTimed : TimedSystem ℚ := .init (.init (single 0) 1 0) 30 0

end Scenario

open Scenario

/-- Worker `0` is declared dead 6 seconds after its push. -/
theorem marked_within_timeout :
    ∃ t, Reach (TimedSystem.step syncEnv) (fun _ _ _ => True) startTimed t ∧
      t.sys.hb.status.get? 0 = some .dead ∧ ¬ OnlySilentMarked 30 t.log := by
  exact Reach.of_script (TimedSystem.step syncEnv) (fun _ _ _ => True) startTimed slowPeer
    (fun _ _ _ => true) (fun _ _ _ _ => trivial)
    (fun t : TimedSystem ℚ => t.sys.hb.status.get? 0 = some .dead ∧ ¬ OnlySilentMarked 30 t.log)
    (by decide +kernel)

/-- Worker `0` has beaten in time, and only worker `1` is declared dead. -/
theorem only_silent_marked_slowPeerBeats :
    ∃ t, Reach (TimedSystem.step syncEnv) (fun _ _ _ => True) startTimed t ∧
      t.sys.hb.status.get? 0 = some .alive ∧ t.sys.hb.status.get? 1 = some .dead ∧
      HeartbeatsKeepUp 30 t.log ∧ OnlySilentMarked 30 t.log := by
  obtain ⟨t, hreach, h0, h1, hkeep⟩ := Reach.of_script (TimedSystem.step syncEnv)
    (fun _ _ _ => True) startTimed slowPeerBeats (fun _ _ _ => true) (fun _ _ _ _ => trivial)
    (fun t : TimedSystem ℚ => t.sys.hb.status.get? 0 = some .alive ∧
      t.sys.hb.status.get? 1 = some .dead ∧ HeartbeatsKeepUp 30 t.log) (by decide +kernel)
  exact ⟨t, hreach, h0, h1, hkeep, (only_silent_marked_iff hreach).mpr hkeep⟩

end DistributedRL
