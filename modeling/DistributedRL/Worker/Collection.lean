import DistributedRL.Env.Vectorized
import DistributedRL.Worker.RolloutBuffer

/-!
# Collecting rollouts

The collection loop of `worker_main`, rollout after rollout: the environments and the current
observation are carried from one step to the next, and over the end of a rollout. Column `e` of the
buffers is what environment `e` records when it is stepped alone, in one go.

The networks act row by row. They change between rollouts, and the noise of each sample is given, so
both are parameters of the loop.
-/

namespace DistributedRL

variable {σ Act Obs Stored Noise 𝕂 : Type*}

/-- The networks during one rollout, on one row: the action sampled with a given noise and its
log-probability, and the value. -/
structure Networks (Act Obs Noise 𝕂 : Type*) where
  sample : Obs → Noise → Act × 𝕂
  critic : Obs → 𝕂

/-- What the collection loop is run with. `noise n e` is drawn for environment `e` in step `n`,
counted over all rollouts. -/
structure Collection (σ Act Obs Stored Noise 𝕂 : Type*) (numEnvs : ℕ) where
  env : Env σ Act Obs 𝕂
  actionType : ActionType Act Stored
  rolloutLength : ℕ
  networks : ℕ → Networks Act Obs Noise 𝕂
  noise : ℕ → Fin numEnvs → Noise
  gamma : 𝕂
  gaeLambda : 𝕂

/-- The environments and `obs`. -/
structure Collector (σ Obs : Type*) (numEnvs : ℕ) where
  envs : Fin numEnvs → σ
  obs : Fin numEnvs → Obs

/-- A rollout after `compute_gae`, with the values it was bootstrapped from. -/
structure Rollout (Obs Stored 𝕂 : Type*) (numSteps numEnvs : ℕ) where
  buffer : RolloutBuffer Obs Stored 𝕂 numSteps numEnvs
  lastValues : Fin numEnvs → 𝕂

namespace Collection

variable {numEnvs : ℕ} [Field 𝕂] [Zero Obs] [Zero Stored]
  (p : Collection σ Act Obs Stored Noise 𝕂 numEnvs)

/-- The body of the loop over the steps of rollout `r`, in its step `t`. -/
def collectStep (r t : ℕ) (c : Collector σ Obs numEnvs)
    (b : RolloutBuffer Obs Stored 𝕂 p.rolloutLength numEnvs) :
    Option (Collector σ Obs numEnvs × RolloutBuffer Obs Stored 𝕂 p.rolloutLength numEnvs) :=
  let values e := (p.networks r).critic (c.obs e)
  let sample e := (p.networks r).sample (c.obs e) (p.noise (r * p.rolloutLength + t) e)
  let out := p.env.vecStep c.envs fun e => (sample e).1
  (b.add c.obs (fun e => p.actionType.stored (sample e).1) out.rewards values
    (fun e => (sample e).2) out.dones).map fun b' => (⟨out.envs, out.observations⟩, b')

/-- The first steps of rollout `r`. -/
def collectSteps (r : ℕ) (c : Collector σ Obs numEnvs) : ℕ →
    Option (Collector σ Obs numEnvs × RolloutBuffer Obs Stored 𝕂 p.rolloutLength numEnvs)
  | 0 => some (c, .empty Obs Stored 𝕂 p.rolloutLength numEnvs)
  | t + 1 => (collectSteps r c t).bind fun (c', b) => p.collectStep r t c' b

/-- Rollout `r`: the steps, the bootstrap values and `compute_gae`. -/
def collectRollout (r : ℕ) (c : Collector σ Obs numEnvs) :
    Option (Collector σ Obs numEnvs × Rollout Obs Stored 𝕂 p.rolloutLength numEnvs) :=
  (p.collectSteps r c p.rolloutLength).map fun (c', b) =>
    let lastValues e := (p.networks r).critic (c'.obs e)
    (c', ⟨b.computeGae lastValues p.gamma p.gaeLambda, lastValues⟩)

/-- The loop of `worker_main` from `vec_env.reset()`, up to rollout `r`. -/
def collect (envs : Fin numEnvs → σ) : ℕ →
    Option (Collector σ Obs numEnvs × List (Rollout Obs Stored 𝕂 p.rolloutLength numEnvs))
  | 0 => some (⟨(p.env.vecReset envs).1, (p.env.vecReset envs).2⟩, [])
  | r + 1 => (collect envs r).bind fun (c, rollouts) =>
      (p.collectRollout r c).map fun (c', rollout) => (c', rollouts ++ [rollout])

end Collection

/-! ### One environment alone -/

/-- One step of one environment, with the observation that the step has returned. -/
structure Transition (Act Obs 𝕂 : Type*) where
  obs : Obs
  action : Act
  logProb : 𝕂
  value : 𝕂
  reward : 𝕂
  done : Bool
  nextObs : Obs

/-- What one environment alone is run with; the noise is its own. -/
structure Solo (σ Act Obs Noise 𝕂 : Type*) where
  env : Env σ Act Obs 𝕂
  rolloutLength : ℕ
  networks : ℕ → Networks Act Obs Noise 𝕂
  noise : ℕ → Noise

namespace Solo

variable (p : Solo σ Act Obs Noise 𝕂)

/-- A step of the environment in state `s`, observed as `obs`, and the state it leaves. -/
def step (n : ℕ) (s : σ) (obs : Obs) : Transition Act Obs 𝕂 × σ :=
  let networks := p.networks (n / p.rolloutLength)
  let sample := networks.sample obs (p.noise n)
  let out := p.env.step s sample.1
  (⟨obs, sample.1, sample.2, networks.critic obs, out.2.2.1, out.2.2.2, out.2.1⟩, out.1)

/-- The state and the observation before step `n`: the environment is reset at the start and after
each step that is done. -/
def before (s : σ) : ℕ → σ × Obs
  | 0 => p.env.reset s
  | n + 1 =>
    let out := p.step n (before s n).1 (before s n).2
    if out.1.done then p.env.reset out.2 else (out.2, out.1.nextObs)

/-- Step `n`. -/
def transition (s : σ) (n : ℕ) : Transition Act Obs 𝕂 :=
  (p.step n (p.before s n).1 (p.before s n).2).1

lemma before_succ (s : σ) (n : ℕ) : p.before s (n + 1) =
    if (p.transition s n).done then
      p.env.reset (p.step n (p.before s n).1 (p.before s n).2).2
    else ((p.step n (p.before s n).1 (p.before s n).2).2, (p.transition s n).nextObs) := rfl

/-- Step `n` in terms of what is before it. -/
lemma step_of_before {s x : σ} {obs : Obs} {n r : ℕ} (h : p.before s n = (x, obs))
    (hr : n / p.rolloutLength = r) :
    let sample := (p.networks r).sample obs (p.noise n)
    let out := p.env.step x sample.1
    p.transition s n = ⟨obs, sample.1, sample.2, (p.networks r).critic obs, out.2.2.1, out.2.2.2,
      out.2.1⟩ ∧
    p.before s (n + 1) = ((p.env.autoStep x sample.1).1, (p.env.autoStep x sample.1).2.1) := by
  subst hr
  simp only [Env.autoStep_state, before_succ, transition, step, h, and_self]

/-- While the episode goes on, the next observation is the one that the step has returned. -/
lemma before_succ_of_not_done {s : σ} {n : ℕ} (h : (p.transition s n).done = false) :
    (p.before s (n + 1)).2 = (p.transition s n).nextObs := by
  rw [before_succ, h]
  rfl

end Solo

/-! ### The invariant of the loop -/

namespace Collection

variable {numEnvs : ℕ} (p : Collection σ Act Obs Stored Noise 𝕂 numEnvs)

/-- What environment `e` is run with on its own. -/
def alone (e : Fin numEnvs) : Solo σ Act Obs Noise 𝕂 :=
  ⟨p.env, p.rolloutLength, p.networks, fun n => p.noise n e⟩

/-- Environment and observation `e` are those of the environment run alone, before step `n`. -/
def Carries (envs : Fin numEnvs → σ) (n : ℕ) (c : Collector σ Obs numEnvs) : Prop :=
  ∀ e, (c.envs e, c.obs e) = (p.alone e).before (envs e) n

/-- The entries of the buffer at `(t, e)` belong to the transition `x`. -/
structure Records [Zero 𝕂] [One 𝕂] (b : RolloutBuffer Obs Stored 𝕂 p.rolloutLength numEnvs)
    (t : ℕ) (e : Fin numEnvs) (x : Transition Act Obs 𝕂) : Prop where
  states : b.states t e = x.obs
  actions : b.actions t e = p.actionType.stored x.action
  logProbs : b.logProbs t e = x.logProb
  values : b.values t e = x.value
  rewards : b.rewards t e = x.reward
  dones : b.dones t e = if x.done then 1 else 0

variable {p} [Field 𝕂] [Zero Obs] [Zero Stored] {envs : Fin numEnvs → σ}

lemma div_rolloutLength {T r t : ℕ} (ht : t < T) : (r * T + t) / T = r := by
  rw [Nat.mul_comm, Nat.mul_add_div (Nat.zero_lt_of_lt ht), Nat.div_eq_of_lt ht, Nat.add_zero]

omit [Zero Obs] [Zero Stored] in
/-- One step of the loop: every environment takes its own step, and row `t` records it. -/
lemma collectStep_spec {r t : ℕ} (ht : t < p.rolloutLength) {c : Collector σ Obs numEnvs}
    {b : RolloutBuffer Obs Stored 𝕂 p.rolloutLength numEnvs} (hptr : b.ptr = t)
    (hc : p.Carries envs (r * p.rolloutLength + t) c)
    (hrows : ∀ u < t, ∀ e, p.Records b u e
      ((p.alone e).transition (envs e) (r * p.rolloutLength + u))) :
    ∃ c' b', p.collectStep r t c b = some (c', b') ∧ b'.ptr = t + 1 ∧
      p.Carries envs (r * p.rolloutLength + t + 1) c' ∧
      ∀ u < t + 1, ∀ e, p.Records b' u e
        ((p.alone e).transition (envs e) (r * p.rolloutLength + u)) := by
  subst hptr
  have hdiv := div_rolloutLength (r := r) ht
  have hsolo : ∀ e, _ := fun e => (p.alone e).step_of_before (hc e).symm hdiv
  simp only [collectStep, RolloutBuffer.add, dif_pos ht, Option.map_some, Option.some.injEq,
    Prod.mk.injEq]
  refine ⟨_, _, ⟨rfl, rfl⟩, rfl, fun e => (hsolo e).2.symm, ?_⟩
  intro u hu e
  rcases Nat.lt_succ_iff_lt_or_eq.mp hu with hu | rfl
  · have hold := hrows u hu e
    have hne := Nat.ne_of_lt hu
    constructor
    all_goals simp only [Function.update_of_ne hne]
    · exact hold.states
    · exact hold.actions
    · exact hold.logProbs
    · exact hold.values
    · exact hold.rewards
    · exact hold.dones
  · rw [(hsolo e).1]
    constructor
    all_goals simp only [Function.update_self, Env.vecStep, Env.autoStep_outcome]
    all_goals rfl

/-- The first steps of rollout `r`, by induction on their number. -/
lemma collectSteps_spec {r : ℕ} {c : Collector σ Obs numEnvs}
    (hc : p.Carries envs (r * p.rolloutLength) c) {t : ℕ} (ht : t ≤ p.rolloutLength) :
    ∃ c' b, p.collectSteps r c t = some (c', b) ∧ b.ptr = t ∧
      p.Carries envs (r * p.rolloutLength + t) c' ∧
      ∀ u < t, ∀ e, p.Records b u e
        ((p.alone e).transition (envs e) (r * p.rolloutLength + u)) := by
  induction t with
  | zero => exact ⟨c, _, rfl, rfl, hc, fun u hu => absurd hu (Nat.not_lt_zero u)⟩
  | succ t ih =>
    obtain ⟨c', b, hrun, hptr, hc', hrows⟩ := ih (Nat.le_of_succ_le ht)
    obtain ⟨c'', b', hstep, hptr', hc'', hrows'⟩ := collectStep_spec ht hptr hc' hrows
    refine ⟨c'', b', ?_, hptr', hc'', hrows'⟩
    rw [collectSteps, hrun]
    exact hstep

omit [Zero Obs] [Zero Stored] in
/-- The value of the observation that comes next in the loop, in row `t + 1` or bootstrapped. -/
lemma nextValues_eq {r : ℕ} {c : Collector σ Obs numEnvs}
    {b : RolloutBuffer Obs Stored 𝕂 p.rolloutLength numEnvs} (hptr : b.ptr = p.rolloutLength)
    (hc : p.Carries envs (r * p.rolloutLength + p.rolloutLength) c)
    (hrows : ∀ u < p.rolloutLength, ∀ e, p.Records b u e
      ((p.alone e).transition (envs e) (r * p.rolloutLength + u)))
    {t : ℕ} (ht : t < p.rolloutLength) (e : Fin numEnvs) :
    b.nextValues (fun e => (p.networks r).critic (c.obs e)) t e =
      (p.networks r).critic
        ((p.alone e).before (envs e) (r * p.rolloutLength + t + 1)).2 := by
  rw [RolloutBuffer.nextValues, hptr]
  split
  · next hlast =>
    have hlast : r * p.rolloutLength + t + 1 = r * p.rolloutLength + p.rolloutLength := by omega
    rw [hlast, ← hc e]
  · next hlast =>
    have ht' : t + 1 < p.rolloutLength := by omega
    have hsolo := (p.alone e).step_of_before (s := envs e) rfl (div_rolloutLength (r := r) ht')
    rw [(hrows (t + 1) ht' e).values]
    exact congrArg Transition.value hsolo.1

variable (p) in
/-- What `compute_gae` makes of the transition `x` at `(t, e)`: the value of the observation that
the step has returned is used unless it was done, and then no next value counts. -/
structure Bootstraps (r : ℕ) (rollout : Rollout Obs Stored 𝕂 p.rolloutLength numEnvs) (t : ℕ)
    (e : Fin numEnvs) (x : Transition Act Obs 𝕂) : Prop where
  next : x.done = false →
    rollout.buffer.nextValues rollout.lastValues t e = (p.networks r).critic x.nextObs
  masked : x.done = true → 1 - rollout.buffer.dones t e = 0
  delta : rollout.buffer.delta rollout.lastValues p.gamma t e =
    x.reward + p.gamma * (if x.done then 0 else (p.networks r).critic x.nextObs) - x.value
  advantage : rollout.buffer.advantages t e =
    rollout.buffer.delta rollout.lastValues p.gamma t e + p.gamma * p.gaeLambda *
      (if x.done then 0
        else if t + 1 = p.rolloutLength then 0 else rollout.buffer.advantages (t + 1) e)

variable (p envs) in
/-- Rollout `r` holds the steps `r * rollout_length, …` of every environment run alone. -/
def Faithful (r : ℕ) (rollout : Rollout Obs Stored 𝕂 p.rolloutLength numEnvs) : Prop :=
  rollout.buffer.ptr = p.rolloutLength ∧ ∀ t < p.rolloutLength, ∀ e,
    p.Records rollout.buffer t e ((p.alone e).transition (envs e) (r * p.rolloutLength + t)) ∧
    p.Bootstraps r rollout t e ((p.alone e).transition (envs e) (r * p.rolloutLength + t))

lemma collectRollout_spec {r : ℕ} {c : Collector σ Obs numEnvs}
    (hc : p.Carries envs (r * p.rolloutLength) c) :
    ∃ c' rollout, p.collectRollout r c = some (c', rollout) ∧
      p.Carries envs ((r + 1) * p.rolloutLength) c' ∧ p.Faithful envs r rollout := by
  obtain ⟨c', b, hrun, hptr, hc', hrows⟩ := collectSteps_spec hc le_rfl
  refine ⟨c', _, by rw [collectRollout, hrun]; rfl, by rwa [Nat.succ_mul], hptr, ?_⟩
  intro t ht e
  have hrow := hrows t ht e
  have hptr' : t < b.ptr := hptr.symm ▸ ht
  have hnext := nextValues_eq hptr hc' hrows ht e
  set x := (p.alone e).transition (envs e) (r * p.rolloutLength + t)
  have hgoes : x.done = false → b.nextValues (fun e => (p.networks r).critic (c'.obs e)) t e =
      (p.networks r).critic x.nextObs := by
    intro hdone
    rw [hnext, (p.alone e).before_succ_of_not_done hdone]
  refine ⟨⟨hrow.states, hrow.actions, hrow.logProbs, hrow.values, hrow.rewards, hrow.dones⟩,
    hgoes, ?_, ?_, ?_⟩
  · intro hdone
    show 1 - b.dones t e = 0
    rw [hrow.dones, hdone, if_pos rfl, sub_self]
  · show b.delta (fun e => (p.networks r).critic (c'.obs e)) p.gamma t e = _
    rw [RolloutBuffer.delta, hrow.rewards, hrow.values, hrow.dones]
    cases hdone : x.done with
    | false => simp [hgoes hdone]
    | true => simp
  · rw [RolloutBuffer.advantages_computeGae hptr', hptr, hrow.dones]
    congr 1
    cases x.done with
    | false => simp
    | true => simp

/-- The loop over the rollouts, by induction on their number. -/
lemma collect_spec (p : Collection σ Act Obs Stored Noise 𝕂 numEnvs) (envs : Fin numEnvs → σ)
    (n : ℕ) : ∃ c rollouts, p.collect envs n = some (c, rollouts) ∧ rollouts.length = n ∧
      p.Carries envs (n * p.rolloutLength) c ∧
      ∀ r rollout, rollouts[r]? = some rollout → p.Faithful envs r rollout := by
  induction n with
  | zero =>
    refine ⟨_, _, rfl, rfl, ?_, ?_⟩
    · intro e
      rw [Nat.zero_mul]
      rfl
    · intro r rollout h
      cases h
  | succ n ih =>
    obtain ⟨c, rollouts, hrun, hlen, hc, hall⟩ := ih
    obtain ⟨c', rollout, hroll, hc', hnew⟩ := collectRollout_spec hc
    refine ⟨c', rollouts ++ [rollout], by rw [collect, hrun]; simp [hroll], by simp [hlen], hc', ?_⟩
    intro r x hx
    rcases Nat.lt_or_ge r n with hr | hr
    · rw [List.getElem?_append_left (hlen ▸ hr)] at hx
      exact hall r x hx
    · rw [List.getElem?_append_right (hlen ▸ hr), hlen, List.getElem?_singleton] at hx
      split at hx
      · next h0 =>
        obtain rfl : r = n := by omega
        cases hx
        exact hnew
      · cases hx

/-- Collecting from `N` environments at once is collecting from each of them alone: the loop does
not raise, and in each rollout the entries at `(t, e)` are those of one transition, the one that
environment `e` makes alone with its own noise. `compute_gae` bootstraps it from the observation
that its step has returned, and from nothing where the episode ended. -/
theorem collect_alone (p : Collection σ Act Obs Stored Noise 𝕂 numEnvs) (envs : Fin numEnvs → σ)
    (n : ℕ) : ∃ c rollouts, p.collect envs n = some (c, rollouts) ∧ rollouts.length = n ∧
      ∀ r rollout, rollouts[r]? = some rollout →
        rollout.buffer.ptr = p.rolloutLength ∧ ∀ t < p.rolloutLength, ∀ e,
          let x := (p.alone e).transition (envs e) (r * p.rolloutLength + t)
          p.Records rollout.buffer t e x ∧ p.Bootstraps r rollout t e x := by
  obtain ⟨c, rollouts, hrun, hlen, -, hall⟩ := collect_spec p envs n
  exact ⟨c, rollouts, hrun, hlen, hall⟩

end Collection

end DistributedRL
