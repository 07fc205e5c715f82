import DistributedRL.Data.Dict
import Mathlib.Algebra.Order.Ring.Rat

/-!
# The heartbeat monitor

`server/heartbeat_monitor.py`: when each worker was last heard of, and whether it counts as ALIVE.
Every method runs under the monitor's lock. `scan` is one round of the background thread.
-/

namespace DistributedRL

abbrev WorkerId := ℤ

/-- `HeartbeatMonitor.ALIVE` and `HeartbeatMonitor.DEAD` -/
inductive Liveness
  | alive | dead
  deriving DecidableEq, Repr

/-- `HeartbeatMonitor`; times are in seconds. -/
structure HeartbeatMonitor where
  timeout : ℚ
  lastSeen : Dict WorkerId ℚ
  status : Dict WorkerId Liveness

namespace HeartbeatMonitor

/-- `HeartbeatMonitor.__init__` -/
def init (timeout : ℚ) : HeartbeatMonitor := ⟨timeout, ∅, ∅⟩

/-- `HeartbeatMonitor.register` -/
def register (hb : HeartbeatMonitor) (w : WorkerId) (now : ℚ) : HeartbeatMonitor :=
  { hb with lastSeen := hb.lastSeen.set w now, status := hb.status.set w .alive }

/-- `HeartbeatMonitor.beat` -/
def beat (hb : HeartbeatMonitor) (w : WorkerId) (now : ℚ) : HeartbeatMonitor :=
  { hb with lastSeen := hb.lastSeen.set w now, status := hb.status.set w .alive }

/-- `HeartbeatMonitor.mark_dead` -/
def markDead (hb : HeartbeatMonitor) (w : WorkerId) : HeartbeatMonitor :=
  { hb with status := hb.status.set w .dead }

/-- `HeartbeatMonitor.alive_workers` -/
def aliveWorkers (hb : HeartbeatMonitor) : List WorkerId :=
  (hb.status.entries.filter fun p => p.2 = .alive).map Prod.fst

/-- `HeartbeatMonitor.snapshot` -/
def snapshot (hb : HeartbeatMonitor) : Dict WorkerId Liveness := hb.status

/-- The loop `for w, t in self.last_seen.items()` of `_loop`. -/
def scanEntries (timeout now : ℚ) : List (WorkerId × ℚ) → Dict WorkerId Liveness →
    Dict WorkerId Liveness
  | [], status => status
  | (w, t) :: rest, status =>
    if now - t > timeout ∧ status.get? w = some .alive then
      scanEntries timeout now rest (status.set w .dead)
    else scanEntries timeout now rest status

/-- One round of `HeartbeatMonitor._loop`. -/
def scan (hb : HeartbeatMonitor) (now : ℚ) : HeartbeatMonitor :=
  { hb with status := scanEntries hb.timeout now hb.lastSeen.entries hb.status }

/-- `w` has been silent for longer than the timeout. -/
def Silent (hb : HeartbeatMonitor) (now : ℚ) (w : WorkerId) : Prop :=
  ∃ t, hb.lastSeen.get? w = some t ∧ now - t > hb.timeout

instance (hb : HeartbeatMonitor) (now : ℚ) (w : WorkerId) : Decidable (hb.Silent now w) :=
  decidable_of_iff ((hb.lastSeen.get? w).any fun t => now - t > hb.timeout) <| by
    simp [Silent, Option.any_eq_true]

/-! ### Who is alive -/

variable {hb : HeartbeatMonitor} {w w' : WorkerId} {now : ℚ}

@[simp] lemma mem_aliveWorkers : w ∈ hb.aliveWorkers ↔ hb.status.get? w = some .alive := by
  simp [aliveWorkers, Dict.get?_eq_some_iff]

lemma alive_register : w' ∈ (hb.register w now).aliveWorkers ↔ w' = w ∨ w' ∈ hb.aliveWorkers := by
  simp only [mem_aliveWorkers, register, Dict.get?_set]
  split_ifs with h <;> simp [h]

lemma alive_markDead : w' ∈ (hb.markDead w).aliveWorkers ↔ w' ≠ w ∧ w' ∈ hb.aliveWorkers := by
  simp only [mem_aliveWorkers, markDead, Dict.get?_set]
  split_ifs with h <;> simp [h]

lemma alive_scanEntries {timeout : ℚ} {es : List (WorkerId × ℚ)} {status : Dict WorkerId Liveness} :
    (scanEntries timeout now es status).get? w = some .alive ↔
      status.get? w = some .alive ∧ ∀ t, (w, t) ∈ es → ¬ now - t > timeout := by
  induction es generalizing status with
  | nil => simp [scanEntries]
  | cons e es ih =>
    obtain ⟨v, t⟩ := e
    simp only [scanEntries]
    split_ifs with h
    · rw [ih, Dict.get?_set]
      by_cases hw : w = v
      · subst hw
        simp only [if_true, Option.some.injEq, reduceCtorEq, false_and, false_iff, not_and]
        intro _ hall
        exact hall t List.mem_cons_self h.1
      · simp [hw]
    · rw [ih]
      by_cases hw : w = v
      · subst hw
        simp only [List.mem_cons, Prod.mk.injEq, true_and, and_congr_right_iff]
        intro halive
        constructor
        · rintro hall u (rfl | hu)
          · intro hlate
            exact h ⟨hlate, halive⟩
          · exact hall u hu
        · intro hall u hu
          exact hall u (Or.inr hu)
      · simp [hw]

/-- A scan takes the silent workers out of the ALIVE set and nobody else. -/
lemma alive_scan : w ∈ (hb.scan now).aliveWorkers ↔ w ∈ hb.aliveWorkers ∧ ¬ hb.Silent now w := by
  have hsilent : (∀ t, (w, t) ∈ hb.lastSeen.entries → ¬ now - t > hb.timeout) ↔
      ¬ hb.Silent now w := by
    simp [Silent, ← Dict.get?_eq_some_iff]
  rw [mem_aliveWorkers, mem_aliveWorkers, scan, alive_scanEntries, hsilent]

end HeartbeatMonitor

end DistributedRL
