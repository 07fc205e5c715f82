import DistributedRL.Server.Atomic
import DistributedRL.Server.Scenario
import DistributedRL.Server.Versions
import DistributedRL.Worker.Fresh

/-!
# Snapshots

What a worker pulls and what a checkpoint holds is the store at one of its versions, although the
lock is all that keeps a thread from reading a store in the middle of an update. The versions that
are read never go back, and a worker that has read an ACK pulls the version of its round or a later
one.
-/

namespace DistributedRL

variable {α : Type*}

/-! ### Versions a pull may read -/

/-- The condition on one step that a push that arrives is well formed. -/
def LockedAction.WellFormed (w : Weights α) : LockedAction α → Prop
  | .other a => a.WellFormed w
  | _ => True

instance (w : Weights α) : (b : LockedAction α) → Decidable (b.WellFormed w)
  | .other a => inferInstanceAs (Decidable (a.WellFormed w))
  | .acquire _ | .turn | .release | .abort => .isTrue trivial

/-- Outside the sections that update it the store is at its newest version, and each version has a
step number of its own. Every `get_weights` and every checkpoint has read a version, of which every
WEIGHTS_RESPONSE carries the weights; and each has read the version of the one before it or a later
one. -/
structure Locked.Snapshots [Scalar α] (st : WeightStore α) (s : Locked α) : Prop where
  leads : Leads st s.sys.history.applied s.atomic.store
  numbered : (versions st s.sys.history.applied).Pairwise fun v v' => v'.globalStep < v.globalStep
  pulled : ∀ x ∈ s.pulled, ∃ v ∈ versions st s.sys.history.applied,
    x.weights = v.weights ∧ x.version = v.globalStep
  response : ∀ c w rest, (s.sys.conns c).handler = .reply (.weightsResponse w) rest →
    ∃ x, s.pulled.find? (·.conn = c) = some x ∧ x.weights = w
  checkpoints : ∀ k ∈ s.sys.checkpoints, ∃ v ∈ versions st s.sys.history.applied, k = v.checkpoint
  pulled_ordered : s.pulled.Pairwise fun x x' => x'.version ≤ x.version
  checkpoints_ordered : s.sys.checkpoints.Pairwise fun k k' => k'.globalStep ≤ k.globalStep

/-! ### Pulls of the atomic server -/

namespace System

variable {s s' : System α} {a : Action α} {c : ConnId}

lemma pulls_cases (s : System α) (a : Action α) : s.pulls a = [] ∨
    ∃ c m, a.conn = some c ∧ (s.conns c).handler = .dispatch m ∧
      s.pulls a = [⟨c, s.store.weights, s.store.globalStep⟩] := by
  cases a with
  | run c now =>
    simp only [pulls]
    split
    · next m hh =>
      split_ifs
      · exact Or.inr ⟨c, m, rfl, hh, rfl⟩
      · exact Or.inl rfl
    · exact Or.inl rfl
  | _ => exact Or.inl rfl

variable [Scalar α] {env : ServerEnv α} {st : WeightStore α} {ps : List (Pulled α)}

/-- The pulls so far have read versions of the store. -/
structure Recorded (st : WeightStore α) (s : System α) (ps : List (Pulled α)) : Prop where
  versions : ∀ x ∈ ps, ∃ v ∈ versions st s.history.applied,
    x.weights = v.weights ∧ x.version = v.globalStep
  response : ∀ c w rest, (s.conns c).handler = .reply (.weightsResponse w) rest →
    ∃ x, ps.find? (·.conn = c) = some x ∧ x.weights = w
  ordered : ps.Pairwise fun x x' => x'.version ≤ x.version

omit [Scalar α] in
lemma recorded_init (st : WeightStore α) (timeout : ℚ) : (init st timeout).Recorded st [] where
  versions _ h := by cases h
  response _ _ _ h := by cases h
  ordered := .nil

lemma Recorded.response_step (h : s.Recorded st ps) (hr : Rule env s a s') {w : Weights α}
    {rest : List UInt8} (hh : (s'.conns c).handler = .reply (.weightsResponse w) rest) :
    ∃ x, (s.pulls a ++ ps).find? (·.conn = c) = some x ∧ x.weights = w := by
  rcases hr.reply_of hh with ⟨rest', hold⟩ | ⟨now, m, rfl, hm, ht, rfl⟩
  · rcases s.pulls_cases a with hp | ⟨d, m, ha, hm, hp⟩
    · rw [hp]
      exact h.response c w rest' hold
    · -- a thread that sends weights is not the one that pulls
      have hd : d ≠ c := by
        rintro rfl
        rw [hm] at hold
        cases hold
      rw [hp, List.singleton_append, List.find?_cons_of_neg (by simpa using hd)]
      exact h.response c w rest' hold
  · refine ⟨⟨c, s.store.weights, s.store.globalStep⟩, ?_, rfl⟩
    simp [pulls, hm, ht]

lemma Recorded.step (h : s.Recorded st ps) (hv : s.VersionInv st) (hr : Rule env s a s') :
    s'.Recorded st (s.pulls a ++ ps) := by
  refine ⟨?_, fun c w rest hh => h.response_step hr hh, ?_⟩
  · intro x hx
    rcases List.mem_append.mp hx with hx | hx
    · rcases s.pulls_cases a with hp | ⟨c, m, -, -, hp⟩
      · rw [hp] at hx
        cases hx
      · rw [hp] at hx
        cases List.mem_singleton.mp hx
        exact ⟨s.store, versions_subset hr hv.leads.mem, rfl, rfl⟩
    · obtain ⟨v, hmem, hxv⟩ := h.versions x hx
      exact ⟨v, versions_subset hr hmem, hxv⟩
  · rcases s.pulls_cases a with hp | ⟨c, m, -, -, hp⟩
    · rw [hp]
      exact h.ordered
    · rw [hp]
      refine List.pairwise_cons.mpr ⟨?_, h.ordered⟩
      intro x hx
      obtain ⟨v, hmem, -, hxv⟩ := h.versions x hx
      rw [hxv]
      exact hv.leads.globalStep_le hmem

end System

/-! ### Pulls of the server with the lock -/

namespace Locked

variable [Scalar α] {env : ServerEnv α} {l l' : Locked α} {b : LockedAction α} {a : Action α}
  {st : WeightStore α}

omit [Scalar α] in
@[simp] lemma atomic_history (l : Locked α) : l.atomic.history = l.sys.history := by
  simp only [atomic]; split <;> rfl

omit [Scalar α] in
@[simp] lemma atomic_conns (l : Locked α) : l.atomic.conns = l.sys.conns := by
  simp only [atomic]; split <;> rfl

omit [Scalar α] in
@[simp] lemma atomic_checkpoints (l : Locked α) : l.atomic.checkpoints = l.sys.checkpoints := by
  simp only [atomic]; split <;> rfl

omit [Scalar α] in
lemma wellFormed_of_performed {w : Weights α} (hb : b.WellFormed w)
    (hp : l.performed b = some a) : a.WellFormed w := by
  cases b with
  | other a' =>
    cases hp
    exact hb
  | acquire c => cases hp
  | turn => cases hp
  | release =>
    obtain ⟨h, -, rfl⟩ := Option.map_eq_some_iff.mp hp
    trivial
  | abort =>
    obtain ⟨h, -, rfl⟩ := Option.map_eq_some_iff.mp hp
    trivial

/-- The atomic server has gone through a chain of versions. -/
lemma versionInv_of_reach {timeout : ℚ} (hst : st.Aligned)
    (h : Reach (Locked.step env) (fun _ b _ => b.WellFormed st.weights) (.init st timeout) l) :
    l.Sound ∧ l.atomic.VersionInv st := by
  obtain ⟨hsound, hrun⟩ := atomic_of_reach (h.mono fun hb _ hp => wellFormed_of_performed hb hp)
  exact ⟨hsound, System.versionInv_of_reach hst hrun⟩

/-- The pulls have read these versions. -/
lemma recorded_of_reach {timeout : ℚ} (hst : st.Aligned)
    (h : Reach (Locked.step env) (fun _ b _ => b.WellFormed st.weights) (.init st timeout) l) :
    l.atomic.Recorded st l.pulled := by
  refine h.invariant_reach (P := fun l => l.atomic.Recorded st l.pulled)
    (System.recorded_init st timeout) ?_
  intro l b l' hreach hrec hstep hb
  obtain ⟨hsound, hversion⟩ := versionInv_of_reach hst hreach
  obtain ⟨-, hsim⟩ := hsound.step hstep
  cases hsim with
  | stutter hp he hpulled =>
    rw [he, hpulled]
    exact hrec
  | step hp ha hpulled =>
    rw [hpulled]
    exact hrec.step hversion (System.rule_of_step ha)

/-- What is pulled later is no older than the store is now. -/
lemma Sound.later (hl : l.Sound) {ok : Locked α → LockedAction α → Locked α → Prop}
    (h : Reach (Locked.step env) ok l l') :
    l'.Sound ∧ l.atomic.store.globalStep ≤ l'.atomic.store.globalStep ∧
      ∃ later, l'.pulled = later ++ l.pulled ∧
        ∀ x ∈ later, l.atomic.store.globalStep ≤ x.version := by
  refine h.invariant (P := fun l' => l'.Sound ∧
    l.atomic.store.globalStep ≤ l'.atomic.store.globalStep ∧
      ∃ later, l'.pulled = later ++ l.pulled ∧
        ∀ x ∈ later, l.atomic.store.globalStep ≤ x.version)
    ⟨hl, le_rfl, [], rfl, fun x hx => by cases hx⟩ ?_
  rintro t b t' ⟨ht, hle, later, hlater, hversion⟩ hstep -
  obtain ⟨ht', hsim⟩ := ht.step hstep
  refine ⟨ht', ?_⟩
  cases hsim with
  | stutter hp he hpulled =>
    rw [he, hpulled]
    exact ⟨hle, later, hlater, hversion⟩
  | @step a hp ha hpulled =>
    refine ⟨hle.trans (System.rule_of_step ha).globalStep_le, t.atomic.pulls a ++ later, ?_, ?_⟩
    · rw [hpulled, hlater, List.append_assoc]
    · intro x hx
      rcases List.mem_append.mp hx with hx | hx
      · rcases t.atomic.pulls_cases a with hpulls | ⟨c, m, -, -, hpulls⟩
        · rw [hpulls] at hx
          cases hx
        · rw [hpulls] at hx
          cases List.mem_singleton.mp hx
          exact hle
      · exact hversion x hx

end Locked

/-- In every run in which the pushes that arrive are well formed. A pull that is answered after an
ACK has been written, and so any pull that is sent after the ACK has been read, reads the version
whose step the ACK carries or a later one. -/
theorem snapshots_versioned [Scalar α] {env : ServerEnv α} {st : WeightStore α} {timeout : ℚ}
    {s : Locked α} (hst : st.Aligned)
    (h : Reach (Locked.step env) (fun _ a _ => a.WellFormed st.weights) (.init st timeout) s) :
    s.Snapshots st ∧
      ∀ s', Reach (Locked.step env) (fun _ a _ => a.WellFormed st.weights) s s' →
        ∃ later, s'.pulled = later ++ s.pulled ∧
          ∀ x ∈ later, ∀ y ∈ s.sys.history.acked, y.step ≤ x.version := by
  obtain ⟨hsound, hversion⟩ := Locked.versionInv_of_reach hst h
  have hrecorded := Locked.recorded_of_reach hst h
  constructor
  · exact {
      leads := by simpa using hversion.leads
      numbered := by simpa using hversion.leads.numbered
      pulled := by simpa using hrecorded.versions
      response := by simpa using hrecorded.response
      checkpoints := by simpa using hversion.checkpoints
      pulled_ordered := hrecorded.ordered
      checkpoints_ordered := by simpa using hversion.ordered }
  · intro s' hs'
    obtain ⟨-, -, later, hlater, hle⟩ := hsound.later hs'
    refine ⟨later, hlater, ?_⟩
    intro x hx y hy
    exact (hversion.acked y (by simpa using hy)).trans (hle x hx)

/-! ### A pull in the middle of an update -/

namespace Scenario

/-- The parameters `a` and `b`, with the values `x` and `y`. -/
def pair (x y : ℚ) : Weights ℚ :=
  ((∅ : Weights ℚ).set "a" (.singleton x)).set "b" (.singleton y)

/-- A store on the weights `0`. -/
def pairStore : WeightStore ℚ := .init (pair 0 0) 1 0

/-- A server with a quorum of one that writes a checkpoint after every round. -/
def eagerEnv : ServerEnv ℚ := ⟨some ⟨1, 1⟩, id, ⟨fun _ => [], fun _ => none⟩⟩

/-- Actions that do not need the lock. -/
def unlocked (as : List (Action ℚ)) : List (LockedAction ℚ) := as.map .other

/-- The thread of `c` goes through a section of `n` steps. -/
def locked (c : ConnId) (n : ℕ) : List (LockedAction ℚ) :=
  .acquire c :: List.replicate n .turn ++ [.release]

/-- Worker `1` asks for the weights while one parameter of two has been updated from the push of
worker `0`. Then both get their ACKs, and a checkpoint is written. -/
def halfway : List (LockedAction ℚ) :=
  unlocked (connect 0 0 .pullWeights) ++ locked 0 2 ++ unlocked [.write 0 4] ++
    unlocked (connect 1 1 .pullWeights) ++ locked 1 2 ++ unlocked [.write 1 4] ++
    unlocked (request 0 0 (.pushGradients 0 (pair 1 2)) ++ [.run 0 0]) ++ [.acquire 0, .turn] ++
    unlocked (request 1 1 .pullWeights) ++ [.turn, .turn, .release] ++ locked 1 2 ++
    unlocked [.write 1 4] ++ locked 0 1 ++
    unlocked [.write 0 4, .write 0 4, .run 0 0, .run 0 0, .run 0 0] ++ locked 0 6

end Scenario

open Scenario

/-- The second pull of worker `1` reads the version after the round. -/
theorem halfway_versioned : ∃ s,
    Reach (Locked.step eagerEnv) (fun _ a _ => a.WellFormed pairStore.weights)
      (.init pairStore 30) s ∧
    (s.pulled.map Pulled.version = [1, 0, 0] ∧ s.sys.history.acked.map Acked.step = [1, 1] ∧
      s.sys.checkpoints.map Checkpoint.globalStep = [1]) ∧
    s.Snapshots pairStore ∧
      ∀ s', Reach (Locked.step eagerEnv) (fun _ a _ => a.WellFormed pairStore.weights) s s' →
        ∃ later, s'.pulled = later ++ s.pulled ∧
          ∀ x ∈ later, ∀ y ∈ s.sys.history.acked, y.step ≤ x.version := by
  obtain ⟨s, hs, hP⟩ := Reach.of_script (Locked.step eagerEnv)
    (fun _ a _ => a.WellFormed pairStore.weights) (.init pairStore 30) halfway
    (fun _ a _ => decide (a.WellFormed pairStore.weights))
    (fun _ _ _ h => of_decide_eq_true h)
    (fun s => s.pulled.map Pulled.version = [1, 0, 0] ∧
      s.sys.history.acked.map Acked.step = [1, 1] ∧
      s.sys.checkpoints.map Checkpoint.globalStep = [1]) (by decide +kernel)
  exact ⟨s, hs, hP, snapshots_versioned (WeightStore.aligned_init _ _ _) hs⟩

end DistributedRL
