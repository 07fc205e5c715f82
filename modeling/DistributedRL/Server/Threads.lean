import DistributedRL.Data.Locks
import DistributedRL.Server.Rules
import DistributedRL.Server.Scenario
import Mathlib.Data.Fintype.EquivFin

/-!
# The locks of the server

The server has three locks: the aggregator's, the heartbeat monitor's and the weight store's. What
a thread does under one of them is a step of `System`; here it is a section, in which the thread
waits for the lock, does the step and gives the lock back. The only lock that is taken while another
one is held is the monitor's, when `submit` asks for the workers that are alive.
-/

namespace DistributedRL

variable {α : Type*}

/-- The locks of the server. -/
inductive Lock
  | aggregator | heartbeat | store
  deriving DecidableEq

namespace Lock

/-- The order in which locks are taken. -/
def rank : Lock → ℕ
  | .aggregator => 0
  | .heartbeat => 1
  | .store => 2

lemma rank_injective : Function.Injective rank := by
  intro k l h
  cases k <;> cases l <;> first | rfl | cases h

instance : LinearOrder Lock := LinearOrder.lift' rank rank_injective

instance : Fintype Lock := ⟨{.aggregator, .heartbeat, .store}, by intro l; cases l <;> decide⟩

end Lock

/-- The threads of the server. `network` stands for the peers. -/
inductive Thread
  | listener | network | monitor
  | handler (c : ConnId)
  deriving DecidableEq

/-- Whose action it is. -/
def Action.thread : Action α → Thread
  | .accept _ => .listener
  | .arrive _ _ | .hangup _ => .network
  | .scan _ => .monitor
  | .run c _ | .write c _ | .fail c => .handler c

/-- `with self.lock` -/
def under (l : Lock) : List (LockOp Lock) := [.acquire l, .work, .release l]

section Script

variable [Scalar α] (env : ServerEnv α)

/-- `with self.lock` in `submit`. It calls `alive_workers`, which has its own lock, unless
`_grad_norm` raises first. -/
def submitScript (grads : Payload α) : List (LockOp Lock) :=
  match gradNorm env.sqrt grads with
  | .ok _ =>
    [.acquire .aggregator, .acquire .heartbeat, .work, .release .heartbeat, .release .aggregator]
  | .error _ => under .aggregator

/-- What a thread does at its next step. -/
def Handler.script : Handler α → List (LockOp Lock)
  | .register _ | .emit _ _ | .markDead => under .heartbeat
  | .registerSocket _ | .unregister => under .aggregator
  | .beaten _ | .apply _ | .getStep _ | .checkpointSave => under .store
  | .dispatch m =>
    match m.type with
    | .pullWeights => under .store
    | .pushGradients => m.gradients.elim [] (submitScript env)
    | .heartbeat => under .heartbeat
    | _ => []
  | _ => []

namespace System

/-- What an action is under its locks. A full disk is found under the lock of the store. -/
def script (s : System α) : Action α → List (LockOp Lock)
  | .scan _ => under .heartbeat
  | .run c _ => (s.conns c).handler.script env
  | .fail c => if (s.conns c).handler matches .checkpointSave then under .store else []
  | _ => []

/-- The server with its locks. -/
def locking : Locking (System α) (Action α) Thread Lock := ⟨step env, Action.thread, script env⟩

end System

variable {env} {s s' : System α} {a b : Action α}

lemma ordered_under (l : Lock) : Ordered ∅ (under l) := by
  simp [under, Ordered]

lemma ordered_submitScript (grads : Payload α) : Ordered ∅ (submitScript env grads) := by
  rw [submitScript]
  split
  · have hlt : Lock.aggregator < .heartbeat := by decide
    simp [Ordered, hlt, hlt.ne']
  · exact ordered_under _

lemma Handler.ordered_script (h : Handler α) : Ordered ∅ (h.script env) := by
  cases h with
  | dispatch m =>
    rw [script]
    split
    · exact ordered_under _
    · cases m.gradients with
      | none => rfl
      | some g => exact ordered_submitScript g
    · exact ordered_under _
    · rfl
  | register m | emit r step | markDead | registerSocket m | unregister | beaten m | apply r
  | getStep r | checkpointSave => exact ordered_under _
  | _ => rfl

lemma System.ordered_script (s : System α) (a : Action α) : Ordered ∅ (s.script env a) := by
  cases a with
  | scan now => exact ordered_under _
  | run c now => exact Handler.ordered_script _
  | fail c =>
    rw [System.script]
    split_ifs
    · exact ordered_under _
    · rfl
  | _ => rfl

/-- Whether a thread that is about to enter a section can take its step depends on its own record
alone. -/
lemma System.isSome_advance {c : ConnId} {now : ℚ}
    (hh : (s'.conns c).handler = (s.conns c).handler)
    (hw : (s'.conns c).workerId = (s.conns c).workerId)
    (hs : (s.conns c).handler.script env ≠ []) (h : (s.advance env c now).isSome) :
    (s'.advance env c now).isSome := by
  simp only [System.advance, hh, hw] at h ⊢
  cases hk : (s.conns c).handler with
  | recv =>
    rw [hk] at hs
    exact absurd rfl hs
  | _ =>
    rw [hk] at h
    cases hid : (s.conns c).workerId with
    | none =>
      rw [hid] at h
      exact h
    | some w =>
      rw [hid] at h
      first | rfl | exact h

/-- The record of an accepted connection is moved by its own thread alone. -/
lemma Rule.frame_of_thread {c : ConnId} (hr : Rule env s b s') (hb : b.thread ≠ .handler c)
    (hc : (s.conns c).handler ≠ .absent) :
    (s'.conns c).handler = (s.conns c).handler ∧ (s'.conns c).workerId = (s.conns c).workerId := by
  cases b with
  | accept d =>
    have hd : some d ≠ some c := by
      rintro ⟨⟩
      cases hr with
      | accept h => exact hc h
    exact ⟨hr.handler_of_ne hd, hr.workerId_of_ne hd⟩
  | arrive d x =>
    cases hr
    by_cases hd : c = d
    · simp [← hd]
    · simp [hd]
  | hangup d =>
    cases hr
    by_cases hd : c = d
    · simp [← hd]
    · simp [hd]
  | scan now =>
    cases hr
    exact ⟨rfl, rfl⟩
  | run d now | write d n | fail d =>
    have hd : some d ≠ some c := fun h => hb (congrArg Thread.handler (Option.some.inj h))
    exact ⟨hr.handler_of_ne hd, hr.workerId_of_ne hd⟩

/-- Sections take their locks in order, and nothing that other threads do keeps a thread from the
work it has begun. -/
lemma System.lawful_locking : (System.locking env).Lawful where
  ordered := System.ordered_script
  stable {s b s' a} hstep hne hscript hsome := by
    have hr := System.rule_of_step hstep
    cases a with
    | scan now => exact ⟨rfl, rfl⟩
    | run c now =>
      obtain ⟨hh, hw⟩ := hr.frame_of_thread hne fun h => hscript (congrArg (Handler.script env) h)
      exact ⟨System.isSome_advance hh hw hscript hsome, congrArg (Handler.script env) hh⟩
    | fail c =>
      have hsave : (s.conns c).handler = .checkpointSave := by
        by_contra h
        refine hscript (if_neg fun hm => h ?_)
        split at hm
        · assumption
        · cases hm
      obtain ⟨hh, -⟩ := hr.frame_of_thread hne (by simp [hsave])
      have hsave' : (s'.conns c).handler = .checkpointSave := hh.trans hsave
      simp [locking, step, osError, System.script, hsave, hsave']
    | _ => exact absurd rfl hscript

/-- The server with its locks, in any run. The state goes through a run of `System`. Nobody sends
with a lock in his hands. While a thread is in a section some thread can go on in one, and all the
sections that have been entered can be brought to their ends. -/
theorem no_deadlock {st : WeightStore α} {timeout : ℚ}
    {sec : Sections (System α) (Action α) Thread Lock}
    (h : Reach (Sections.step (System.locking env)) (fun _ _ _ => True)
      (.init (.init st timeout)) sec) :
    Reach (System.step env) (fun _ _ _ => True) (.init st timeout) sec.shared ∧
      (∀ c n sec', sec.step (System.locking env) (.start (.write c n)) = some sec' →
        sec'.held (.handler c) = ∅) ∧
      (∀ t, sec.Inside t → ∃ u sec', sec.step (System.locking env) (.next u) = some sec') ∧
      ∃ (ts : List Thread) (sec' : Sections (System α) (Action α) Thread Lock),
        runAll (Sections.step (System.locking env)) sec (ts.map .next) = some sec' ∧
          ∀ t, ¬ sec'.Inside t := by
  obtain ⟨hsound, hnext, hdrain⟩ := Sections.never_stuck System.lawful_locking h
  refine ⟨Sections.reach_shared h, fun c n sec' hs => ?_, hnext, hdrain⟩
  cases Sections.rule_of_step hs with
  | single hr hx he => exact hsound.outside _ hr
  | enter hr hx he => exact absurd rfl he

end Script

/-! ### Three threads that want two locks -/

namespace Scenario

/-- The server with its locks and a connection for each of the workers `0` and `1`, just started. -/
def startLocks : Sections (System ℚ) (Action ℚ) Thread Lock := .init start

/-- Enter a section of one lock and leave it. -/
def wholeSection (t : Thread) (a : Action ℚ) : List (SectionAction (Action ℚ) Thread) :=
  .start a :: List.replicate 3 (.next t)

/-- Worker `w` connects over connection `w` and pushes `x`; its thread has read the message. -/
def pushing (w : ℕ) (x : ℚ) : List (SectionAction (Action ℚ) Thread) :=
  [.accept w, .arrive w (.message ((push x).message w)), .run w 0].map .start ++
    wholeSection (.handler w) (.run w 0) ++ wholeSection (.handler w) (.run w 0)

/-- Both workers submit while the monitor scans: the thread of worker `0` waits for the monitor, and
that of worker `1` for the one of worker `0`. -/
def contended : List (SectionAction (Action ℚ) Thread) :=
  pushing 0 1 ++ pushing 1 2 ++
    [.start (.scan 0), .next .monitor, .start (.run 0 0), .next (.handler 0), .start (.run 1 0)]

end Scenario

open Scenario

/-- Two threads wait and the third one can go on. -/
theorem no_deadlock_contended :
    ∃ sec, Reach (Sections.step (System.locking syncEnv)) (fun _ _ _ => True) startLocks sec ∧
      sec.step (System.locking syncEnv) (.next (.handler 0)) = none ∧
      sec.step (System.locking syncEnv) (.next (.handler 1)) = none ∧
      sec.Inside (.handler 1) ∧
      (∃ u sec', sec.step (System.locking syncEnv) (.next u) = some sec') ∧
      ∃ (ts : List Thread) (sec' : Sections (System ℚ) (Action ℚ) Thread Lock),
        runAll (Sections.step (System.locking syncEnv)) sec (ts.map .next) = some sec' ∧
          ∀ t, ¬ sec'.Inside t := by
  obtain ⟨sec, hreach, h0, h1, hin⟩ :=
    Reach.of_script (Sections.step (System.locking syncEnv)) (fun _ _ _ => True) startLocks
      contended (fun _ _ _ => true) (fun _ _ _ _ => trivial)
      (fun sec : Sections (System ℚ) (Action ℚ) Thread Lock =>
        (sec.step (System.locking syncEnv) (.next (.handler 0))).isNone ∧
          (sec.step (System.locking syncEnv) (.next (.handler 1))).isNone ∧
          (sec.running (.handler 1)).isSome)
      (by decide +kernel)
  have hin : sec.Inside (.handler 1) := fun h => by
    rw [h] at hin
    cases hin
  obtain ⟨-, -, hnext, hdrain⟩ := no_deadlock hreach
  exact ⟨sec, hreach, Option.isNone_iff_eq_none.mp h0, Option.isNone_iff_eq_none.mp h1, hin,
    hnext _ hin, hdrain⟩

end DistributedRL
