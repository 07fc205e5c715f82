import DistributedRL.Env.Episodes

/-!
# Episode returns

The accounting of `worker_main`: the rewards of each environment are added up until its episode is
done, the sums are listed, and a heartbeat sends the mean of the list and shortens it. The sums are
carried from one rollout to the next.

The actions are given, since what is accounted for does not depend on where they come from.
-/

namespace DistributedRL

variable {σ Act Obs 𝕂 : Type*} {numEnvs : ℕ}

/-- `HEARTBEAT_INTERVAL` -/
def heartbeatInterval {𝕂 : Type*} [NatCast 𝕂] : 𝕂 := (5 : ℕ)

/-- What a heartbeat reports of the episodes, and how many values had been appended to
`recent_episode_returns` when it was sent. -/
structure EpisodeReport (𝕂 : Type*) where
  meanReturn : 𝕂
  recentEpisodes : ℕ
  upto : ℕ

/-- The variables of the accounting in `worker_main`, with all values ever appended to
`recent_episode_returns` and the heartbeats sent. -/
structure Accounts (σ 𝕂 : Type*) (numEnvs : ℕ) where
  envs : Fin numEnvs → σ
  epReturns : Fin numEnvs → 𝕂
  stepCounts : Fin numEnvs → ℕ
  recentEpisodeReturns : List 𝕂
  lastHeartbeat : 𝕂
  appended : List 𝕂
  reports : List (EpisodeReport 𝕂)

namespace Accounts

variable [Field 𝕂] [LinearOrder 𝕂]

/-- The accounts before the first rollout. -/
def start (env : Env σ Act Obs 𝕂) (envs : Fin numEnvs → σ) : Accounts σ 𝕂 numEnvs :=
  ⟨(env.vecReset envs).1, fun _ => 0, fun _ => 0, [], 0, [], []⟩

/-- The body of the loop over the environments after a step. -/
def finishEpisode (dones : Fin numEnvs → 𝕂) (s : Accounts σ 𝕂 numEnvs) (envIdx : Fin numEnvs) :
    Accounts σ 𝕂 numEnvs :=
  if dones envIdx ≠ 0 then
    { s with
      recentEpisodeReturns := s.recentEpisodeReturns ++ [s.epReturns envIdx]
      appended := s.appended ++ [s.epReturns envIdx]
      epReturns := Function.update s.epReturns envIdx 0
      stepCounts := Function.update s.stepCounts envIdx 0 }
  else s

/-- The step of the environments, and the accounting after it. -/
def timestep (env : Env σ Act Obs 𝕂) (actions : Fin numEnvs → Act) (s : Accounts σ 𝕂 numEnvs) :
    Accounts σ 𝕂 numEnvs :=
  let out := env.vecStep s.envs actions
  (List.finRange numEnvs).foldl (finishEpisode out.dones)
    { s with
      envs := out.envs
      epReturns := fun e => s.epReturns e + out.rewards e
      stepCounts := fun e => s.stepCounts e + 1 }

/-- `float(np.mean(recent_episode_returns)) if recent_episode_returns else 0.0` -/
def meanReturn (recentEpisodeReturns : List 𝕂) : 𝕂 :=
  if recentEpisodeReturns.isEmpty then 0
  else recentEpisodeReturns.sum / recentEpisodeReturns.length

/-- `recent_episode_returns[-20:]` -/
def lastTwenty (recentEpisodeReturns : List 𝕂) : List 𝕂 :=
  recentEpisodeReturns.drop (recentEpisodeReturns.length - 20)

/-- The heartbeat at the end of an iteration, when the clock shows `now`. -/
def heartbeat (now : 𝕂) (s : Accounts σ 𝕂 numEnvs) : Accounts σ 𝕂 numEnvs :=
  if heartbeatInterval < now - s.lastHeartbeat then
    { s with
      reports := s.reports ++ [⟨meanReturn s.recentEpisodeReturns, s.recentEpisodeReturns.length,
        s.appended.length⟩]
      lastHeartbeat := now
      recentEpisodeReturns := lastTwenty s.recentEpisodeReturns }
  else s

end Accounts

/-- What `worker_main` is run with: the environments, the action of each environment in each step,
counted over all rollouts, and the clock at the end of each iteration. -/
structure Session (σ Act Obs 𝕂 : Type*) (numEnvs : ℕ) where
  env : Env σ Act Obs 𝕂
  envs : Fin numEnvs → σ
  actions : ℕ → Fin numEnvs → Act
  rolloutLength : ℕ
  clock : ℕ → 𝕂

namespace Session

variable [Field 𝕂] [LinearOrder 𝕂] (p : Session σ Act Obs 𝕂 numEnvs)

/-- The first `t` steps of rollout `r`. -/
def rollout (r : ℕ) (s : Accounts σ 𝕂 numEnvs) : ℕ → Accounts σ 𝕂 numEnvs
  | 0 => s
  | t + 1 => (rollout r s t).timestep p.env (p.actions (r * p.rolloutLength + t))

/-- The first `r` iterations of the loop of `worker_main`. -/
def iterations : ℕ → Accounts σ 𝕂 numEnvs
  | 0 => .start p.env p.envs
  | r + 1 => (p.rollout r (iterations r) p.rolloutLength).heartbeat (p.clock r)

/-! ### What is to be accounted for -/

/-- The reward of environment `e` in step `n`, counted over all rollouts. -/
def reward (e : Fin numEnvs) (n : ℕ) : 𝕂 :=
  (p.env.vecStep (p.env.vecRun p.envs p.actions n) (p.actions n)).rewards e

/-- Environment `e` is done in step `n`. -/
def Done (e : Fin numEnvs) (n : ℕ) : Prop := p.env.VecDone p.envs p.actions e n

instance (e : Fin numEnvs) : DecidablePred (p.Done e) :=
  fun _ => inferInstanceAs (Decidable (_ = _))

/-- The reward sums of the episodes that are done in step `n`, in the order of the environments. -/
def completedAt (n : ℕ) : List 𝕂 :=
  (List.finRange numEnvs).filterMap fun e =>
    if p.Done e n then some (sumThrough (p.Done e) (p.reward e) n) else none

/-- The reward sums of the episodes that are done in the first `n` steps, in the order of the steps
and of the environments within a step. -/
def completed (n : ℕ) : List 𝕂 := (List.range n).flatMap p.completedAt

end Session

/-! ### The loop over the environments -/

namespace Accounts

variable [Field 𝕂] [LinearOrder 𝕂] {s : Accounts σ 𝕂 numEnvs} {dones : Fin numEnvs → 𝕂}
  {envIdx : Fin numEnvs}

lemma finishEpisode_of_done (h : dones envIdx ≠ 0) : finishEpisode dones s envIdx =
    { s with
      recentEpisodeReturns := s.recentEpisodeReturns ++ [s.epReturns envIdx]
      appended := s.appended ++ [s.epReturns envIdx]
      epReturns := Function.update s.epReturns envIdx 0
      stepCounts := Function.update s.stepCounts envIdx 0 } := if_pos h

lemma finishEpisode_of_not_done (h : ¬ dones envIdx ≠ 0) : finishEpisode dones s envIdx = s :=
  if_neg h

/-- The values that the loop over `l` appends. -/
def finished (dones : Fin numEnvs → 𝕂) (epReturns : Fin numEnvs → 𝕂) (l : List (Fin numEnvs)) :
    List 𝕂 :=
  l.filterMap fun e => if dones e ≠ 0 then some (epReturns e) else none

/-- What the loop over `l` makes of `s`. -/
structure Finishes (dones : Fin numEnvs → 𝕂) (l : List (Fin numEnvs))
    (s s' : Accounts σ 𝕂 numEnvs) : Prop where
  envs : s'.envs = s.envs
  epReturns : ∀ e, s'.epReturns e = if e ∈ l ∧ dones e ≠ 0 then 0 else s.epReturns e
  stepCounts : ∀ e, s'.stepCounts e = if e ∈ l ∧ dones e ≠ 0 then 0 else s.stepCounts e
  recent : s'.recentEpisodeReturns = s.recentEpisodeReturns ++ finished dones s.epReturns l
  appended : s'.appended = s.appended ++ finished dones s.epReturns l
  reports : s'.reports = s.reports

/-- The first environment is done: its sum is listed and put back to zero, and the rest of the loop
does not look at it again. -/
lemma Finishes.cons_of_done {l : List (Fin numEnvs)} {s' : Accounts σ 𝕂 numEnvs}
    (hdone : dones envIdx ≠ 0) (hn : envIdx ∉ l)
    (h : Finishes dones l (finishEpisode dones s envIdx) s') :
    Finishes dones (envIdx :: l) s s' := by
  rw [finishEpisode_of_done hdone] at h
  have hsame : finished dones (Function.update s.epReturns envIdx 0) l =
      finished dones s.epReturns l := by
    refine List.filterMap_congr ?_
    intro e he
    rw [Function.update_of_ne (ne_of_mem_of_not_mem he hn)]
  have hcons : finished dones s.epReturns (envIdx :: l) =
      s.epReturns envIdx :: finished dones s.epReturns l := by
    rw [finished, List.filterMap_cons, if_pos hdone]
    rfl
  constructor
  · exact h.envs
  · intro e
    rw [h.epReturns]
    rcases eq_or_ne e envIdx with rfl | hne
    · simp [hdone]
    · simp [hne]
  · intro e
    rw [h.stepCounts]
    rcases eq_or_ne e envIdx with rfl | hne
    · simp [hdone]
    · simp [hne]
  · rw [h.recent, hsame, hcons, List.append_assoc, List.singleton_append]
  · rw [h.appended, hsame, hcons, List.append_assoc, List.singleton_append]
  · exact h.reports

lemma Finishes.cons_of_not_done {l : List (Fin numEnvs)} {s' : Accounts σ 𝕂 numEnvs}
    (hdone : ¬ dones envIdx ≠ 0) (h : Finishes dones l (finishEpisode dones s envIdx) s') :
    Finishes dones (envIdx :: l) s s' := by
  rw [finishEpisode_of_not_done hdone] at h
  have hcons : finished dones s.epReturns (envIdx :: l) = finished dones s.epReturns l := by
    rw [finished, List.filterMap_cons, if_neg hdone]
    rfl
  have hmem : ∀ e, (e ∈ envIdx :: l ∧ dones e ≠ 0) ↔ e ∈ l ∧ dones e ≠ 0 := by
    intro e
    rcases eq_or_ne e envIdx with rfl | hne
    · simp [not_not.mp hdone]
    · simp [hne]
  constructor
  · exact h.envs
  · intro e
    simp only [h.epReturns, hmem]
  · intro e
    simp only [h.stepCounts, hmem]
  · rw [h.recent, hcons]
  · rw [h.appended, hcons]
  · exact h.reports

/-- By induction on the list: an environment is looked at once, so its sum is still there. -/
lemma finishes_foldl (dones : Fin numEnvs → 𝕂) {l : List (Fin numEnvs)} (hn : l.Nodup)
    (s : Accounts σ 𝕂 numEnvs) : Finishes dones l s (l.foldl (finishEpisode dones) s) := by
  induction l generalizing s with
  | nil => constructor <;> simp [finished]
  | cons e l ih =>
    obtain ⟨he, hn⟩ := List.nodup_cons.mp hn
    by_cases hdone : dones e ≠ 0
    · exact (ih hn (finishEpisode dones s e)).cons_of_done hdone he
    · exact (ih hn (finishEpisode dones s e)).cons_of_not_done hdone

lemma finishes_timestep (env : Env σ Act Obs 𝕂) (actions : Fin numEnvs → Act)
    (s : Accounts σ 𝕂 numEnvs) :
    Finishes (env.vecStep s.envs actions).dones (List.finRange numEnvs)
      { s with
        envs := (env.vecStep s.envs actions).envs
        epReturns := fun e => s.epReturns e + (env.vecStep s.envs actions).rewards e
        stepCounts := fun e => s.stepCounts e + 1 } (s.timestep env actions) :=
  finishes_foldl _ (List.nodup_finRange numEnvs) _

end Accounts

/-! ### The running sums -/

namespace Session

variable [Field 𝕂] [LinearOrder 𝕂] {p : Session σ Act Obs 𝕂 numEnvs} {n : ℕ}
  {s : Accounts σ 𝕂 numEnvs}

variable (p n s) in
/-- The accounts after `n` steps. -/
structure Accounted : Prop where
  envs : s.envs = p.env.vecRun p.envs p.actions n
  epReturns : ∀ e, s.epReturns e = sumSince (p.Done e) (p.reward e) n
  stepCounts : ∀ e, s.stepCounts e = n - episodeStart (p.Done e) n
  appended : s.appended = p.completed n

omit [LinearOrder 𝕂] in
lemma dones_ne_zero_iff {e : Fin numEnvs} :
    (p.env.vecStep (p.env.vecRun p.envs p.actions n) (p.actions n)).dones e ≠ 0 ↔ p.Done e n := by
  simp [Done, Env.VecDone, Env.vecStep]

lemma completed_succ (p : Session σ Act Obs 𝕂 numEnvs) (n : ℕ) :
    p.completed (n + 1) = p.completed n ++ p.completedAt n := by
  rw [completed, completed, List.range_succ, List.flatMap_append, List.flatMap_singleton]

variable (p) in
lemma accounted_start : p.Accounted 0 (.start p.env p.envs) where
  envs := rfl
  epReturns e := (sumSince_zero (p.reward e)).symm
  stepCounts _ := rfl
  appended := rfl

/-- A step adds its rewards to the sums of their environments, and those that are done are listed
and put back to zero. -/
lemma Accounted.timestep (h : p.Accounted n s) :
    p.Accounted (n + 1) (s.timestep p.env (p.actions n)) := by
  have hfin := Accounts.finishes_timestep p.env (p.actions n) s
  rw [h.envs] at hfin
  have hmem : ∀ e, (e ∈ List.finRange numEnvs ∧
      (p.env.vecStep (p.env.vecRun p.envs p.actions n) (p.actions n)).dones e ≠ 0) ↔
      p.Done e n := by
    intro e
    rw [dones_ne_zero_iff, and_iff_right (List.mem_finRange e)]
  have hsum : ∀ e, s.epReturns e + p.reward e n = sumThrough (p.Done e) (p.reward e) n := by
    intro e
    rw [sumThrough_eq, h.epReturns]
  constructor
  · exact hfin.envs
  · intro e
    rw [hfin.epReturns, sumSince_succ, ← hsum]
    exact if_congr (hmem e) rfl rfl
  · intro e
    rw [hfin.stepCounts, if_congr (hmem e) rfl rfl]
    dsimp only
    split_ifs with hdone
    · rw [episodeStart_succ_of_terminal hdone, Nat.sub_self]
    · rw [episodeStart_succ_of_not_terminal hdone, h.stepCounts,
        Nat.succ_sub (episodeStart_le n)]
  · rw [hfin.appended, completed_succ, h.appended]
    refine congrArg (p.completed n ++ ·) (List.filterMap_congr ?_)
    intro e _
    rw [if_congr dones_ne_zero_iff rfl rfl, ← hsum e]
    rfl

lemma Accounted.heartbeat (h : p.Accounted n s) (now : 𝕂) : p.Accounted n (s.heartbeat now) := by
  rw [Accounts.heartbeat]
  split_ifs
  · exact ⟨h.envs, h.epReturns, h.stepCounts, h.appended⟩
  · exact h

lemma Accounted.rollout {r : ℕ} (h : p.Accounted (r * p.rolloutLength) s) (t : ℕ) :
    p.Accounted (r * p.rolloutLength + t) (p.rollout r s t) := by
  induction t with
  | zero => exact h
  | succ t ih => exact ih.timestep

lemma accounted_iterations (p : Session σ Act Obs 𝕂 numEnvs) (r : ℕ) :
    p.Accounted (r * p.rolloutLength) (p.iterations r) := by
  induction r with
  | zero =>
    rw [Nat.zero_mul]
    exact p.accounted_start
  | succ r ih =>
    rw [Nat.succ_mul]
    exact (ih.rollout p.rolloutLength).heartbeat _

/-- The running sum is over the rewards since the environment was last done. -/
lemma Accounted.exists_first (h : p.Accounted n s) (e : Fin numEnvs) :
    ∃ first ≤ n, (first = 0 ∨ p.Done e (first - 1)) ∧
      (∀ i, first ≤ i → i < n → ¬ p.Done e i) ∧
      s.epReturns e = ∑ i ∈ Finset.Ico first n, p.reward e i := by
  have hspec : (episodeStart (p.Done e) n = 0 ∨ p.Done e (episodeStart (p.Done e) n - 1)) ∧
      ∀ i, episodeStart (p.Done e) n ≤ i → i < n → ¬ p.Done e i := episodeStart_spec n
  exact ⟨episodeStart (p.Done e) n, episodeStart_le n, hspec.1, hspec.2, h.epReturns e⟩

end Session

/-! ### What the heartbeats report -/

/-- The values that the report is about, of those ever appended. -/
def EpisodeReport.values (report : EpisodeReport 𝕂) (appended : List 𝕂) : List 𝕂 :=
  (appended.take report.upto).drop (report.upto - report.recentEpisodes)

/-- The value at position `i` of those ever appended is one of them. -/
def EpisodeReport.Includes (report : EpisodeReport 𝕂) (i : ℕ) : Prop :=
  report.upto - report.recentEpisodes ≤ i ∧ i < report.upto

namespace Accounts

variable [Field 𝕂] [LinearOrder 𝕂] {s : Accounts σ 𝕂 numEnvs} {k : ℕ}

variable (s k) in
/-- All but the first `k` values are still listed, and these have been reported. -/
structure Kept : Prop where
  le : k ≤ s.appended.length
  recent : s.recentEpisodeReturns = s.appended.drop k
  reported : ∀ i < k, ∃ report ∈ s.reports, report.Includes i
  means : ∀ report ∈ s.reports, report.upto ≤ s.appended.length ∧
    report.meanReturn = meanReturn (report.values s.appended)

omit [LinearOrder 𝕂] in
lemma kept_start (env : Env σ Act Obs 𝕂) (envs : Fin numEnvs → σ) : (start env envs).Kept 0 where
  le := le_rfl
  recent := rfl
  reported i hi := absurd hi (Nat.not_lt_zero i)
  means _ h := absurd h List.not_mem_nil

lemma Kept.timestep (h : s.Kept k) (env : Env σ Act Obs 𝕂) (actions : Fin numEnvs → Act) :
    (s.timestep env actions).Kept k := by
  have hfin := finishes_timestep env actions s
  constructor
  · rw [hfin.appended, List.length_append]
    exact h.le.trans (Nat.le_add_right _ _)
  · rw [hfin.recent, hfin.appended, List.drop_append_of_le_length h.le]
    exact congrArg (· ++ _) h.recent
  · rw [hfin.reports]
    exact h.reported
  · rw [hfin.reports, hfin.appended]
    intro report hreport
    obtain ⟨hle, hmean⟩ := h.means report hreport
    constructor
    · rw [List.length_append]
      exact hle.trans (Nat.le_add_right _ _)
    · rw [EpisodeReport.values, List.take_append_of_le_length hle]
      exact hmean

omit [LinearOrder 𝕂] in
/-- The report of a heartbeat is about all values that are listed, before the list is shortened. -/
lemma Kept.values_report (h : s.Kept k) :
    (⟨meanReturn s.recentEpisodeReturns, s.recentEpisodeReturns.length, s.appended.length⟩ :
      EpisodeReport 𝕂).values s.appended = s.recentEpisodeReturns := by
  have hle := h.le
  have hlength : s.recentEpisodeReturns.length = s.appended.length - k := by
    rw [h.recent, List.length_drop]
  rw [EpisodeReport.values, List.take_length, hlength, Nat.sub_sub_self hle, h.recent]

lemma Kept.heartbeat (h : s.Kept k) (now : 𝕂) : ∃ k', (s.heartbeat now).Kept k' := by
  rw [Accounts.heartbeat]
  split_ifs
  · have hle := h.le
    have hlength : s.recentEpisodeReturns.length = s.appended.length - k := by
      rw [h.recent, List.length_drop]
    refine ⟨k + (s.recentEpisodeReturns.length - 20), ?_, ?_, ?_, ?_⟩
    · show k + (s.recentEpisodeReturns.length - 20) ≤ s.appended.length
      omega
    · show lastTwenty s.recentEpisodeReturns = _
      rw [lastTwenty, ← List.drop_drop, ← h.recent]
    · intro i hi
      rcases lt_or_ge i k with hik | hik
      · obtain ⟨report, hmem, hin⟩ := h.reported i hik
        exact ⟨report, List.mem_append_left _ hmem, hin⟩
      · refine ⟨_, List.mem_append_right _ (List.mem_singleton_self _), ?_, ?_⟩
        · show s.appended.length - s.recentEpisodeReturns.length ≤ i
          omega
        · show i < s.appended.length
          omega
    · intro report hreport
      rcases List.mem_append.mp hreport with hreport | hreport
      · exact h.means report hreport
      · rw [List.mem_singleton.mp hreport, h.values_report]
        exact ⟨le_rfl, rfl⟩
  · exact ⟨k, h⟩

lemma Kept.rollout (h : s.Kept k) (p : Session σ Act Obs 𝕂 numEnvs) (r t : ℕ) :
    (p.rollout r s t).Kept k := by
  induction t with
  | zero => exact h
  | succ t ih => exact ih.timestep p.env _

lemma kept_iterations (p : Session σ Act Obs 𝕂 numEnvs) (r : ℕ) : ∃ k, (p.iterations r).Kept k := by
  induction r with
  | zero => exact ⟨0, kept_start p.env p.envs⟩
  | succ r ih =>
    obtain ⟨k, h⟩ := ih
    exact (h.rollout p r p.rolloutLength).heartbeat _

/-- A heartbeat removes values from the list that its report is about. -/
lemma Kept.heartbeat_removes (h : s.Kept k) (now : 𝕂) :
    (s.heartbeat now).reports = s.reports ∧
        (s.heartbeat now).recentEpisodeReturns = s.recentEpisodeReturns ∨
      ∃ report removed, (s.heartbeat now).reports = s.reports ++ [report] ∧
        report.values s.appended = s.recentEpisodeReturns ∧
        report.meanReturn = meanReturn s.recentEpisodeReturns ∧
        s.recentEpisodeReturns = removed ++ (s.heartbeat now).recentEpisodeReturns := by
  rw [Accounts.heartbeat]
  split_ifs
  · right
    refine ⟨_, s.recentEpisodeReturns.take (s.recentEpisodeReturns.length - 20), rfl,
      h.values_report, rfl, ?_⟩
    exact (List.take_append_drop _ _).symm
  · exact Or.inl ⟨rfl, rfl⟩

end Accounts

/-- After every step, in whichever rollout, the running sum of an environment is over its rewards
since it was last done, and the values ever appended are the reward sums of the completed episodes,
each once and in order. They are still listed or have been included in a reported mean, and what a
heartbeat removes is included in the mean it reports. -/
theorem returns_accounted [Field 𝕂] [LinearOrder 𝕂] (p : Session σ Act Obs 𝕂 numEnvs) :
    (∀ r t, let s := p.rollout r (p.iterations r) t
      let n := r * p.rolloutLength + t
      (∀ e, ∃ first ≤ n, (first = 0 ∨ p.Done e (first - 1)) ∧
        (∀ i, first ≤ i → i < n → ¬ p.Done e i) ∧
        s.epReturns e = ∑ i ∈ Finset.Ico first n, p.reward e i) ∧
      s.appended = p.completed n ∧
      (∀ report ∈ s.reports,
        report.meanReturn = Accounts.meanReturn (report.values s.appended)) ∧
      ∃ k, s.recentEpisodeReturns = s.appended.drop k ∧
        ∀ i < k, ∃ report ∈ s.reports, report.Includes i) ∧
    ∀ r, let s := p.rollout r (p.iterations r) p.rolloutLength
      let s' := p.iterations (r + 1)
      s'.reports = s.reports ∧ s'.recentEpisodeReturns = s.recentEpisodeReturns ∨
        ∃ report removed, s'.reports = s.reports ++ [report] ∧
          report.values s.appended = s.recentEpisodeReturns ∧
          report.meanReturn = Accounts.meanReturn s.recentEpisodeReturns ∧
          s.recentEpisodeReturns = removed ++ s'.recentEpisodeReturns := by
  constructor
  · intro r t
    have hacc := (p.accounted_iterations r).rollout t
    obtain ⟨k, hkept⟩ := Accounts.kept_iterations p r
    have hkept := hkept.rollout p r t
    refine ⟨?_, hacc.appended, ?_, k, hkept.recent, hkept.reported⟩
    · intro e
      exact hacc.exists_first e
    · intro report hreport
      exact (hkept.means report hreport).2
  · intro r
    obtain ⟨k, hkept⟩ := Accounts.kept_iterations p r
    exact (hkept.rollout p r p.rolloutLength).heartbeat_removes _

end DistributedRL
