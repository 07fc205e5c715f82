import DistributedRL.Data.Transition
import Mathlib.Algebra.BigOperators.Group.Finset.Basic
import Mathlib.Algebra.Order.BigOperators.Group.Finset
import Mathlib.Data.Set.Insert
import Mathlib.Order.WellFounded

/-!
# Locks

Threads that work on a shared state inside critical sections. A section is a list of operations:
take a lock, give one back, do the work. If every section takes its locks in increasing order and
gives them all back, no set of threads ever waits for each other: some thread inside a section can
always go on, and all of them can be brought to their ends without a new section being entered.
-/

namespace DistributedRL

/-- What a thread does inside a section. -/
inductive LockOp (L : Type*)
  | acquire (l : L)
  | release (l : L)
  | work
  deriving DecidableEq

variable {σ ι T L : Type*}

/-- A thread that holds the locks `held` takes locks in increasing order, gives back all it holds,
and does its work once. -/
def Ordered [LT L] : Set L → List (LockOp L) → Prop
  | held, [] => held = ∅
  | held, .acquire l :: ops => (∀ k ∈ held, k < l) ∧ Ordered (insert l held) ops
  | held, .release l :: ops => l ∈ held ∧ Ordered (held \ {l}) ops
  | held, .work :: ops => LockOp.work ∉ ops ∧ Ordered held ops

/-- A transition function whose actions are taken by threads. `script` is the section that an action
is; an action without one is a single step. -/
structure Locking (σ ι T L : Type*) where
  step : σ → ι → Option σ
  thread : ι → T
  script : σ → ι → List (LockOp L)

/-- The shared state, the sections that the threads are in, with what is left of them, and who holds
which lock. -/
structure Sections (σ ι T L : Type*) where
  shared : σ
  running : T → Option (ι × List (LockOp L))
  holder : L → Option T

/-- A thread starts an action, or goes on in its section. -/
inductive SectionAction (ι T : Type*)
  | start (a : ι)
  | next (t : T)

/-- Sections are in order, and an action that can be done stays so until its own thread does it. -/
structure Locking.Lawful [LT L] (sys : Locking σ ι T L) : Prop where
  ordered : ∀ s a, Ordered ∅ (sys.script s a)
  stable : ∀ {s b s' a}, sys.step s b = some s' → sys.thread b ≠ sys.thread a →
    sys.script s a ≠ [] → (sys.step s a).isSome →
      (sys.step s' a).isSome ∧ sys.script s' a = sys.script s a

namespace Sections

/-- No thread is in a section. -/
def init (s : σ) : Sections σ ι T L := ⟨s, fun _ => none, fun _ => none⟩

/-- The locks that a thread holds. -/
def held (s : Sections σ ι T L) (t : T) : Set L := {l | s.holder l = some t}

/-- The thread is in a section. -/
def Inside (s : Sections σ ι T L) (t : T) : Prop := s.running t ≠ none

section Resume

variable [DecidableEq T]

/-- A thread has done an operation of its section. -/
def resume (s : Sections σ ι T L) (t : T) (a : ι) (ops : List (LockOp L)) : Sections σ ι T L :=
  { s with running := Function.update s.running t (if ops.isEmpty then none else some (a, ops)) }

variable {s : Sections σ ι T L} {t : T}

@[simp] lemma shared_resume {a : ι} {ops : List (LockOp L)} :
    (s.resume t a ops).shared = s.shared := rfl

@[simp] lemma holder_resume {a : ι} {ops : List (LockOp L)} :
    (s.resume t a ops).holder = s.holder := rfl

@[simp] lemma held_resume {a : ι} {ops : List (LockOp L)} {u : T} :
    (s.resume t a ops).held u = s.held u := rfl

/-- Who is in a section after an operation of the thread of `t`. -/
lemma running_resume {a a' : ι} {ops ops' : List (LockOp L)} {u : T}
    (h : (s.resume t a ops).running u = some (a', ops')) :
    u = t ∧ a' = a ∧ ops' = ops ∧ ops ≠ [] ∨ u ≠ t ∧ s.running u = some (a', ops') := by
  simp only [resume, Function.update_apply] at h
  split_ifs at h with hu he
  · cases h
    exact Or.inl ⟨hu, rfl, rfl, by simpa using he⟩
  · exact Or.inr ⟨hu, h⟩

lemma running_resume_none {a : ι} {ops : List (LockOp L)} {u : T}
    (h : (s.resume t a ops).running u = none) :
    u = t ∧ ops = [] ∨ u ≠ t ∧ s.running u = none := by
  simp only [resume, Function.update_apply] at h
  split_ifs at h with hu he
  · exact Or.inl ⟨hu, List.isEmpty_iff.mp he⟩
  · exact Or.inr ⟨hu, h⟩

lemma running_resume_of_ne {a : ι} {ops : List (LockOp L)} {u : T} (h : u ≠ t) :
    (s.resume t a ops).running u = s.running u :=
  Function.update_of_ne h ..

lemma length_running_resume (a : ι) (ops : List (LockOp L)) :
    ((s.resume t a ops).running t).elim 0 (fun x => x.2.length) = ops.length := by
  simp only [resume, Function.update_self]
  split_ifs with he
  · rw [List.isEmpty_iff.mp he]
    rfl
  · rfl

end Resume

variable [DecidableEq T] [DecidableEq L]

/-- The next operation of the section that a thread is in. -/
def next (sys : Locking σ ι T L) (s : Sections σ ι T L) (t : T) : Option (Sections σ ι T L) :=
  match s.running t with
  | some (a, .acquire l :: ops) =>
    if s.holder l = none then
      some ({ s with holder := Function.update s.holder l (some t) }.resume t a ops)
    else none
  | some (a, .release l :: ops) =>
    if s.holder l = some t then
      some ({ s with holder := Function.update s.holder l none }.resume t a ops)
    else none
  | some (a, .work :: ops) =>
    (sys.step s.shared a).map fun s' => { s with shared := s' }.resume t a ops
  | _ => none

/-- A thread that is in no section starts an action. -/
def start (sys : Locking σ ι T L) (s : Sections σ ι T L) (a : ι) : Option (Sections σ ι T L) :=
  if (s.running (sys.thread a)).isSome then none
  else
    (sys.step s.shared a).map fun s' =>
      if (sys.script s.shared a).isEmpty then { s with shared := s' }
      else s.resume (sys.thread a) a (sys.script s.shared a)

/-- The transition function of the threads. -/
def step (sys : Locking σ ι T L) (s : Sections σ ι T L) :
    SectionAction ι T → Option (Sections σ ι T L)
  | .start a => s.start sys a
  | .next t => s.next sys t

/-! ### The rules -/

/-- One step of the threads. -/
inductive SectionRule (sys : Locking σ ι T L) (s : Sections σ ι T L) :
    SectionAction ι T → Sections σ ι T L → Prop
  | single {a s'} (hr : s.running (sys.thread a) = none) (hs : sys.step s.shared a = some s')
      (he : sys.script s.shared a = []) : SectionRule sys s (.start a) { s with shared := s' }
  | enter {a s'} (hr : s.running (sys.thread a) = none) (hs : sys.step s.shared a = some s')
      (he : sys.script s.shared a ≠ []) :
    SectionRule sys s (.start a) (s.resume (sys.thread a) a (sys.script s.shared a))
  | acquire {t a l ops} (hr : s.running t = some (a, .acquire l :: ops)) (hl : s.holder l = none) :
    SectionRule sys s (.next t)
      ({ s with holder := Function.update s.holder l (some t) }.resume t a ops)
  | release {t a l ops} (hr : s.running t = some (a, .release l :: ops))
      (hl : s.holder l = some t) :
    SectionRule sys s (.next t) ({ s with holder := Function.update s.holder l none }.resume t a ops)
  | work {t a ops s'} (hr : s.running t = some (a, .work :: ops))
      (hs : sys.step s.shared a = some s') :
    SectionRule sys s (.next t) ({ s with shared := s' }.resume t a ops)

variable {sys : Locking σ ι T L} {s s' : Sections σ ι T L} {b : SectionAction ι T} {t : T}

lemma rule_of_step (h : s.step sys b = some s') : SectionRule sys s b s' := by
  cases b with
  | start a =>
    simp only [step, start] at h
    split_ifs at h with hr he
    · obtain ⟨x, hx, rfl⟩ := Option.map_eq_some_iff.mp h
      exact .single (by simpa using hr) hx (List.isEmpty_iff.mp he)
    · obtain ⟨x, hx, rfl⟩ := Option.map_eq_some_iff.mp h
      exact .enter (by simpa using hr) hx (by simpa using he)
  | next t =>
    simp only [step, next] at h
    split at h
    · next a l ops hr =>
      split_ifs at h with hl
      cases h
      exact .acquire hr hl
    · next a l ops hr =>
      split_ifs at h with hl
      cases h
      exact .release hr hl
    · next a ops hr =>
      obtain ⟨x, hx, rfl⟩ := Option.map_eq_some_iff.mp h
      exact .work hr hx
    · cases h

lemma step_acquire {a : ι} {l : L} {ops : List (LockOp L)}
    (hr : s.running t = some (a, .acquire l :: ops)) (hl : s.holder l = none) :
    s.step sys (.next t) =
      some ({ s with holder := Function.update s.holder l (some t) }.resume t a ops) := by
  simp only [step, next, hr, hl, if_true]

lemma step_release {a : ι} {l : L} {ops : List (LockOp L)}
    (hr : s.running t = some (a, .release l :: ops)) (hl : s.holder l = some t) :
    s.step sys (.next t) =
      some ({ s with holder := Function.update s.holder l none }.resume t a ops) := by
  simp only [step, next, hr, hl, if_true]

lemma step_work {a : ι} {ops : List (LockOp L)} {x : σ} (hr : s.running t = some (a, .work :: ops))
    (hx : sys.step s.shared a = some x) :
    s.step sys (.next t) = some ({ s with shared := x }.resume t a ops) := by
  simp only [step, next, hr, hx, Option.map_some]

/-- The shared state goes through a run of the transition function. -/
lemma reach_shared {ok : Sections σ ι T L → SectionAction ι T → Sections σ ι T L → Prop} {s₀ : σ}
    (h : Reach (step sys) ok (init s₀) s) : Reach sys.step (fun _ _ _ => True) s₀ s.shared := by
  refine h.map Sections.shared fun {s b s'} hs _ => ?_
  cases rule_of_step hs with
  | single hr hx he => exact Or.inr ⟨_, hx, trivial⟩
  | work hr hx => exact Or.inr ⟨_, hx, trivial⟩
  | _ => exact Or.inl rfl

/-! ### The invariant -/

lemma held_acquire {l : L} (hl : s.holder l = none) (u : T) :
    held { s with holder := Function.update s.holder l (some t) } u =
      if u = t then insert l (s.held t) else s.held u := by
  ext k
  by_cases hu : u = t
  · by_cases hk : k = l <;> simp [held, hu, hk]
  · by_cases hk : k = l <;> simp [held, hu, hk, hl, Ne.symm hu]

lemma held_release {l : L} (hl : s.holder l = some t) (u : T) :
    held { s with holder := Function.update s.holder l none } u =
      if u = t then s.held t \ {l} else s.held u := by
  ext k
  by_cases hu : u = t
  · by_cases hk : k = l <;> simp [held, hu, hk]
  · by_cases hk : k = l <;> simp [held, hu, hk, hl, Ne.symm hu]

/-- Whoever is in a section goes on in order and can do its work; whoever is in none holds no
lock. -/
structure Sound [LT L] (sys : Locking σ ι T L) (s : Sections σ ι T L) : Prop where
  ordered : ∀ t a ops, s.running t = some (a, ops) → ops ≠ [] ∧ Ordered (s.held t) ops
  outside : ∀ t, s.running t = none → s.held t = ∅
  own : ∀ t a ops, s.running t = some (a, ops) → sys.thread a = t
  ready : ∀ t a ops, s.running t = some (a, ops) → .work ∈ ops →
    (sys.step s.shared a).isSome ∧ sys.script s.shared a ≠ []

omit [DecidableEq T] [DecidableEq L] in
lemma sound_init [LT L] (s₀ : σ) : (init s₀ : Sections σ ι T L).Sound sys where
  ordered _ _ _ h := by cases h
  outside _ _ := Set.eq_empty_of_forall_notMem fun _ h => by cases h
  own _ _ _ h := by cases h
  ready _ _ _ h := by cases h

omit [DecidableEq T] [DecidableEq L] in
/-- The work of one thread leaves the other ones ready. -/
lemma Sound.ready_step [LT L] (hs : s.Sound sys) (hsys : sys.Lawful) {a b : ι} {x : σ}
    {ops : List (LockOp L)} (hx : sys.step s.shared b = some x) (hr : s.running t = some (a, ops))
    (hne : sys.thread b ≠ t) (hw : .work ∈ ops) :
    (sys.step x a).isSome ∧ sys.script x a ≠ [] := by
  obtain ⟨hsome, hscript⟩ := hs.ready t a ops hr hw
  obtain ⟨hsome', he⟩ := hsys.stable hx (by rwa [hs.own t a ops hr]) hscript hsome
  exact ⟨hsome', he ▸ hscript⟩

omit [DecidableEq L] in
/-- An operation of the thread of `t` that leaves the other ones alone. -/
lemma Sound.resume [LT L] (hs : s.Sound sys) {a : ι} {ops : List (LockOp L)}
    {s' : Sections σ ι T L} (hrun : s'.running = s.running) (hown : sys.thread a = t)
    (hheld : ∀ u ≠ t, s'.held u = s.held u) (hord : Ordered (s'.held t) ops)
    (hready : .work ∈ ops → (sys.step s'.shared a).isSome ∧ sys.script s'.shared a ≠ [])
    (hothers : ∀ u a' ops', u ≠ t → s.running u = some (a', ops') → .work ∈ ops' →
      (sys.step s'.shared a').isSome ∧ sys.script s'.shared a' ≠ []) :
    (s'.resume t a ops).Sound sys where
  ordered u a' ops' hr := by
    rcases running_resume hr with ⟨rfl, rfl, rfl, hne⟩ | ⟨hu, hr⟩
    · exact ⟨hne, hord⟩
    · rw [held_resume, hheld u hu]
      exact hs.ordered u a' ops' (hrun ▸ hr)
  outside u hr := by
    rcases running_resume_none hr with ⟨rfl, rfl⟩ | ⟨hu, hr⟩
    · exact hord
    · rw [held_resume, hheld u hu]
      exact hs.outside u (hrun ▸ hr)
  own u a' ops' hr := by
    rcases running_resume hr with ⟨rfl, rfl, rfl, -⟩ | ⟨-, hr⟩
    · exact hown
    · exact hs.own u a' ops' (hrun ▸ hr)
  ready u a' ops' hr hw := by
    rcases running_resume hr with ⟨rfl, rfl, rfl, -⟩ | ⟨hu, hr⟩
    · exact hready hw
    · exact hothers u a' ops' hu (hrun ▸ hr) hw

lemma Sound.step [LT L] (hs : s.Sound sys) (hsys : sys.Lawful) (h : s.step sys b = some s') :
    s'.Sound sys := by
  cases rule_of_step h with
  | @single a x hr hx he =>
    refine ⟨hs.ordered, hs.outside, hs.own, fun t a' ops hr' hw => ?_⟩
    refine hs.ready_step hsys hx hr' (fun ht => ?_) hw
    rw [ht, hr'] at hr
    cases hr
  | @enter a x hr hx he =>
    refine hs.resume rfl rfl (fun _ _ => rfl) ?_ (fun _ => ⟨?_, he⟩)
      fun u a' ops' _ hr' hw => hs.ready u a' ops' hr' hw
    · rw [hs.outside _ hr]
      exact hsys.ordered _ _
    · rw [hx]
      rfl
  | @acquire t a l ops hr hl =>
    obtain ⟨-, -, hord⟩ := hs.ordered t a _ hr
    refine hs.resume rfl (hs.own t a _ hr) (fun u hu => ?_) ?_
      (fun hw => hs.ready t a _ hr (List.mem_cons_of_mem _ hw))
      fun u a' ops' _ hr' hw => hs.ready u a' ops' hr' hw
    · rw [held_acquire hl, if_neg hu]
    · rw [held_acquire hl, if_pos rfl]
      exact hord
  | @release t a l ops hr hl =>
    obtain ⟨-, -, hord⟩ := hs.ordered t a _ hr
    refine hs.resume rfl (hs.own t a _ hr) (fun u hu => ?_) ?_
      (fun hw => hs.ready t a _ hr (List.mem_cons_of_mem _ hw))
      fun u a' ops' _ hr' hw => hs.ready u a' ops' hr' hw
    · rw [held_release hl, if_neg hu]
    · rw [held_release hl, if_pos rfl]
      exact hord
  | @work t a ops x hr hx =>
    obtain ⟨-, hnot, hord⟩ := hs.ordered t a _ hr
    refine hs.resume rfl (hs.own t a _ hr) (fun _ _ => rfl) hord (fun hw => absurd hw hnot)
      fun u a' ops' hu hr' hw => ?_
    refine hs.ready_step hsys hx hr' (fun ht => hu ?_) hw
    rw [← ht, hs.own t a _ hr]

/-! ### Progress -/

section Progress

variable [LinearOrder L] [WellFoundedGT L]

/-- A thread that waits for a lock waits, in the end, for one that can go on. -/
lemma Sound.exists_next_of_acquire (hs : s.Sound sys) (l : L) :
    ∀ {t a ops}, s.running t = some (a, .acquire l :: ops) →
      ∃ u s', s.step sys (.next u) = some s' := by
  induction l using WellFoundedGT.induction with
  | ind l ih =>
    intro t a ops hr
    cases hl : s.holder l with
    | none => exact ⟨t, _, step_acquire hr hl⟩
    | some u =>
      -- its holder is inside a section, and takes a greater lock next if it takes one at all
      have hmem : l ∈ s.held u := hl
      cases hru : s.running u with
      | none =>
        rw [hs.outside u hru] at hmem
        cases hmem
      | some x =>
        obtain ⟨b, ops'⟩ := x
        obtain ⟨hne, hord⟩ := hs.ordered u b ops' hru
        cases ops' with
        | nil => exact absurd rfl hne
        | cons op ops' =>
          cases op with
          | acquire k => exact ih k (hord.1 l hmem) hru
          | release k =>
            have hk : s.holder k = some u := hord.1
            exact ⟨u, _, step_release hru hk⟩
          | work =>
            obtain ⟨x, hx⟩ := Option.isSome_iff_exists.mp
              (hs.ready u b _ hru List.mem_cons_self).1
            exact ⟨u, _, step_work hru hx⟩

/-- While a thread is in a section, some thread in a section can go on. -/
lemma Sound.exists_next (hs : s.Sound sys) (ht : s.Inside t) :
    ∃ u s', s.step sys (.next u) = some s' := by
  obtain ⟨⟨a, ops⟩, hr⟩ := Option.ne_none_iff_exists'.mp ht
  obtain ⟨hne, hord⟩ := hs.ordered t a ops hr
  cases ops with
  | nil => exact absurd rfl hne
  | cons op ops =>
    cases op with
    | acquire l => exact hs.exists_next_of_acquire l hr
    | release l =>
      have hl : s.holder l = some t := hord.1
      exact ⟨t, _, step_release hr hl⟩
    | work =>
      obtain ⟨x, hx⟩ := Option.isSome_iff_exists.mp (hs.ready t a _ hr List.mem_cons_self).1
      exact ⟨t, _, step_work hr hx⟩

end Progress

/-- What is left of the sections of some threads. -/
def left (s : Sections σ ι T L) (F : Finset T) : ℕ :=
  ∑ t ∈ F, (s.running t).elim 0 fun x => x.2.length

/-- Only the threads of `F` are in a section. -/
def Within (s : Sections σ ι T L) (F : Finset T) : Prop := ∀ t ∉ F, s.running t = none

omit [DecidableEq L] in
lemma left_resume {s' : Sections σ ι T L} {F : Finset T} {a a' : ι} {op : LockOp L}
    {ops : List (LockOp L)} (hF : s.Within F) (hrun : s'.running = s.running)
    (hr : s.running t = some (a', op :: ops)) :
    (s'.resume t a ops).Within F ∧ (s'.resume t a ops).left F < s.left F := by
  have ht : t ∈ F := by
    by_contra hne
    rw [hF t hne] at hr
    cases hr
  constructor
  · intro u hu
    have hut : u ≠ t := fun he => hu (he ▸ ht)
    rw [running_resume_of_ne hut, hrun]
    exact hF u hu
  · refine Finset.sum_lt_sum (fun u _ => ?_) ⟨t, ht, ?_⟩
    · by_cases hut : u = t
      · subst hut
        rw [length_running_resume, hr]
        exact Nat.le_succ _
      · rw [running_resume_of_ne hut, hrun]
    · rw [length_running_resume, hr]
      exact Nat.lt_succ_self _

lemma left_next {F : Finset T} (hF : s.Within F) (h : s.step sys (.next t) = some s') :
    s'.Within F ∧ s'.left F < s.left F := by
  cases rule_of_step h with
  | acquire hr hl => exact left_resume hF rfl hr
  | release hr hl => exact left_resume hF rfl hr
  | work hr hx => exact left_resume hF rfl hr

/-- The threads that are in sections can all be brought to their ends. -/
lemma Sound.drain [LinearOrder L] [WellFoundedGT L] (hsys : sys.Lawful) {F : Finset T} :
    ∀ {n : ℕ} {s : Sections σ ι T L}, s.Sound sys → s.Within F → s.left F = n →
      ∃ (ts : List T) (s' : Sections σ ι T L),
        runAll (Sections.step sys) s (ts.map .next) = some s' ∧ ∀ t, ¬ s'.Inside t := by
  intro n
  induction n using Nat.strong_induction_on with
  | _ n ih =>
    intro s hs hF hn
    by_cases hout : ∀ t, ¬ s.Inside t
    · exact ⟨[], s, rfl, hout⟩
    · push Not at hout
      obtain ⟨t, ht⟩ := hout
      obtain ⟨u, s₁, hstep⟩ := hs.exists_next ht
      obtain ⟨hF₁, hlt⟩ := left_next hF hstep
      obtain ⟨ts, s', hrun, hout⟩ := ih _ (hn ▸ hlt) (hs.step hsys hstep) hF₁ rfl
      exact ⟨u :: ts, s', by rw [List.map_cons, runAll, hstep]; exact hrun, hout⟩

/-- Only finitely many threads are ever in a section. -/
lemma Within.step {F : Finset T} (hF : s.Within F) (h : s.step sys b = some s') :
    ∃ F' : Finset T, s'.Within F' := by
  cases rule_of_step h with
  | single hr hx he => exact ⟨F, hF⟩
  | @enter a x hr hx he =>
    refine ⟨insert (sys.thread a) F, fun t ht => ?_⟩
    rw [Finset.mem_insert, not_or] at ht
    rw [running_resume_of_ne ht.1]
    exact hF t ht.2
  | acquire hr hl => exact ⟨F, (left_resume hF rfl hr).1⟩
  | release hr hl => exact ⟨F, (left_resume hF rfl hr).1⟩
  | work hr hx => exact ⟨F, (left_resume hF rfl hr).1⟩

/-- Sections in order, in a run from a state where no thread is in one: the shared state goes
through a run of the transition function, nobody holds a lock outside a section, while a thread is
in a section some thread can go on in one, and all of them can be brought to their ends. -/
lemma never_stuck [LinearOrder L] [WellFoundedGT L] (hsys : sys.Lawful) {s₀ : σ}
    {ok : Sections σ ι T L → SectionAction ι T → Sections σ ι T L → Prop}
    (h : Reach (Sections.step sys) ok (init s₀) s) : s.Sound sys ∧
      (∀ t, s.Inside t → ∃ u s', s.step sys (.next u) = some s') ∧
      ∃ (ts : List T) (s' : Sections σ ι T L),
        runAll (Sections.step sys) s (ts.map .next) = some s' ∧ ∀ t, ¬ s'.Inside t := by
  obtain ⟨hs, F, hF⟩ : s.Sound sys ∧ ∃ F : Finset T, s.Within F := by
    refine h.invariant (P := fun s => s.Sound sys ∧ ∃ F : Finset T, s.Within F) ?_ ?_
    · exact ⟨sound_init s₀, ∅, fun _ _ => rfl⟩
    · exact fun ⟨hs, F, hF⟩ hstep _ => ⟨hs.step hsys hstep, hF.step hstep⟩
  exact ⟨hs, fun t ht => hs.exists_next ht, hs.drain hsys hF rfl⟩

end Sections

end DistributedRL
