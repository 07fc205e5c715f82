import DistributedRL.Config.Schedule
import DistributedRL.Server.AllOrNothing
import DistributedRL.Server.Checkpoint
import DistributedRL.Worker.FedAvg
import DistributedRL.Worker.Script
import Mathlib.Data.Finset.Empty

/-!
# The training loop

The workers of a cluster run `worker_main`. Its variable `global_step` counts the iterations of the
worker's own loop and starts at zero, whatever the step of the store. In a group of workers the
store is one step further for each iteration, so the learning rates follow the steps of the store
if, and only if, the store starts at zero too.
-/

namespace DistributedRL

variable {α 𝕂 : Type*}

/-! ### `worker_main` -/

/-- Where `worker_main` stands between two calls. -/
inductive MainStage
  /-- before the first `pull_weights` -/
  | start
  /-- at the test of the loop -/
  | top
  /-- after `push_gradients` -/
  | pushed
  /-- after `heartbeat` -/
  | reported
  deriving DecidableEq

/-- The variables of `worker_main`: its stage, `global_step`, and the learning rates that it has
set in the optimizer. -/
structure Main (𝕂 : Type*) where
  stage : MainStage
  globalStep : ℕ
  rates : List 𝕂

namespace Main

/-- Before the worker is connected. -/
def init (𝕂 : Type*) : Main 𝕂 := ⟨.start, 0, []⟩

/-- The loop has ended. -/
def Finished (config : LrConfig 𝕂) (m : Main 𝕂) : Prop :=
  m.stage = .top ∧ config.maxSteps ≤ m.globalStep

/-- The calls that `worker_main` makes where it stands. It sends a heartbeat only now and then. -/
def Calls (config : LrConfig 𝕂) (m : Main 𝕂) : Request α → Prop
  | .pullWeights => m.stage ≠ .top
  | .pushGradients step _ =>
    m.stage = .top ∧ (m.globalStep : ℤ) < config.maxSteps ∧ step = m.globalStep
  | .heartbeat _ _ => m.stage = .pushed

instance (config : LrConfig 𝕂) (m : Main 𝕂) : ∀ q : Request α, Decidable (m.Calls config q)
  | .pullWeights => inferInstanceAs (Decidable (_ ≠ _))
  | .pushGradients _ _ => inferInstanceAs (Decidable (_ ∧ _ ∧ _))
  | .heartbeat _ _ => inferInstanceAs (Decidable (_ = _))

section

variable [Field 𝕂] [LinearOrder 𝕂]

/-- Up to the call: before a push the rollout is collected and trained on. -/
def call (config : LrConfig 𝕂) (cosPi : 𝕂 → 𝕂) (m : Main 𝕂) : Request α → Main 𝕂
  | .pushGradients _ _ => { m with rates := m.rates ++ [config.rate cosPi m.globalStep] }
  | _ => m

end

/-- The call has returned. -/
def resume (m : Main 𝕂) : Request α → Main 𝕂
  | .pullWeights =>
    match m.stage with
    | .start => { m with stage := .top }
    | _ => { m with stage := .top, globalStep := m.globalStep + 1 }
  | .pushGradients _ _ => { m with stage := .pushed }
  | .heartbeat _ _ => { m with stage := .reported }

end Main

/-- The cluster and the loops of its workers. -/
structure Training (α 𝕂 : Type*) where
  cluster : Cluster α
  mains : ConnId → Main 𝕂

namespace Training

/-- No worker is connected yet. -/
def init (𝕂 : Type*) (store : WeightStore α) (timeout : ℚ) : Training α 𝕂 :=
  ⟨.init store timeout, fun _ => .init 𝕂⟩

/-- No worker is connected yet, and the server has loaded what is in the checkpoint file, with a
natural number as its step. -/
def launch (𝕂 : Type*) (fresh : WeightStore α) (loads : List UInt8 → Option (CheckpointObj α))
    (file : Option (List UInt8)) (timeout : ℚ) : Option (Training α 𝕂) :=
  (fresh.loadCheckpoint loads file).1.toStore.map fun store => .init 𝕂 store timeout

/-- The loops after an action that leads the cluster to `k`. -/
def moves [Field 𝕂] [LinearOrder 𝕂] (config : LrConfig 𝕂) (cosPi : 𝕂 → 𝕂) (s : Training α 𝕂)
    (k : Cluster α) : ClusterAction α → ConnId → Main 𝕂
  | .request c q => Function.update s.mains c ((s.mains c).call config cosPi q)
  | .receive c =>
    match (s.cluster.clients c).phase, (k.clients c).phase with
    | .waiting q, .idle => Function.update s.mains c ((s.mains c).resume q)
    | _, _ => s.mains
  | _ => s.mains

/-- The loop of the worker lets it make the request. -/
def Lets (config : LrConfig 𝕂) (s : Training α 𝕂) : ClusterAction α → Prop
  | .request c q => (s.mains c).Calls config q
  | _ => True

instance (config : LrConfig 𝕂) (s : Training α 𝕂) :
    ∀ a : ClusterAction α, Decidable (s.Lets config a)
  | .request c q => inferInstanceAs (Decidable ((s.mains c).Calls config q))
  | .connect _ | .receive _ | .leave _ | .server _ => .isTrue trivial

/-- The transition function of a training run. -/
def step [Scalar α] [Field 𝕂] [LinearOrder 𝕂] (config : LrConfig 𝕂) (cosPi : 𝕂 → 𝕂)
    (env : ServerEnv α) (ids : ConnId → WorkerId) (s : Training α 𝕂) (a : ClusterAction α) :
    Option (Training α 𝕂) :=
  if s.Lets config a then
    (s.cluster.step env ids a).map fun k => ⟨k, s.moves config cosPi k a⟩
  else none

/-- The store keeps to the training length, and the rollouts of every worker have been trained on
with the learning rates from step `k` on. -/
def OnSchedule [Field 𝕂] [LinearOrder 𝕂] (config : LrConfig 𝕂) (cosPi : 𝕂 → 𝕂) (k : ℕ)
    (s : Training α 𝕂) : Prop :=
  (s.cluster.sys.store.globalStep : ℤ) ≤ config.maxSteps ∧
    ∀ d, (s.mains d).rates =
      (List.range' k (s.mains d).rates.length).map (config.rate cosPi)

end Training

/-! ### The loop of one worker -/

/-- The worker waits for the ACK of a push. -/
def Phase.Pushing : Phase α → Bool
  | .waiting (.pushGradients _ _) => true
  | _ => false

/-- The number of pushes that the worker has made. -/
def Client.pushes (k : Client α) : ℕ := k.acks.length + if k.phase.Pushing then 1 else 0

namespace Main

/-- The stages in which `worker_main` can be in the call. -/
def In (m : Main 𝕂) : Request α → Prop
  | .pullWeights => m.stage ≠ .top
  | .pushGradients _ _ => m.stage = .top
  | .heartbeat _ _ => m.stage = .pushed

variable [Field 𝕂] [LinearOrder 𝕂]

/-- How the variables of `worker_main` go with the calls that it has made. -/
structure LoopInv (config : LrConfig 𝕂) (cosPi : 𝕂 → 𝕂) (m : Main 𝕂) (k : Client α) : Prop where
  rates : m.rates = (List.range k.pushes).map (config.rate cosPi)
  acks : k.acks.length =
    m.globalStep + if m.stage = .pushed ∨ m.stage = .reported then 1 else 0
  waiting : ∀ q, k.phase = .waiting q → m.In q
  bound : (k.pushes : ℤ) ≤ config.maxSteps

variable {config : LrConfig 𝕂} {cosPi : 𝕂 → 𝕂} {m : Main 𝕂} {k : Client α} {q : Request α}

lemma loopInv_init (h : 0 ≤ config.maxSteps) : (init 𝕂).LoopInv config cosPi (.init α) where
  rates := rfl
  acks := rfl
  waiting _ hq := by cases hq
  bound := h

/-- The loop makes a call. -/
lemma LoopInv.call (h : m.LoopInv config cosPi k) (hp : k.phase = .idle)
    (hq : m.Calls config q) : (m.call config cosPi q).LoopInv config cosPi (k.call q) := by
  have hpushes : k.pushes = k.acks.length := by rw [Client.pushes, hp]; rfl
  have hrates := h.rates
  have hbound := h.bound
  rw [hpushes] at hrates hbound
  cases q with
  | pushGradients step g =>
    obtain ⟨htop, hlt, -⟩ := hq
    have hacks : k.acks.length = m.globalStep := by simpa [htop] using h.acks
    have hpushes' : (k.call (.pushGradients step g)).pushes = m.globalStep + 1 := by
      rw [← hacks]
      rfl
    refine ⟨?_, h.acks, ?_, ?_⟩
    · rw [hpushes', List.range_succ, List.map_append, ← hacks, ← hrates, hacks]
      rfl
    · intro q hq
      cases hq
      exact htop
    · rw [hpushes']
      exact_mod_cast hlt
  | pullWeights => exact ⟨hrates, h.acks, fun q hq' => by cases hq'; exact hq, hbound⟩
  | heartbeat reward extra => exact ⟨hrates, h.acks, fun q hq' => by cases hq'; exact hq, hbound⟩

/-- A call returns to the loop. -/
lemma LoopInv.resume (h : m.LoopInv config cosPi k) (hp : k.phase = .waiting q)
    {resp : Response α} (hresp : q.Expects resp) :
    (m.resume q).LoopInv config cosPi (k.finish q resp) := by
  have hin := h.waiting q hp
  have hpushes : (k.finish q resp).pushes = k.pushes := by
    cases q <;> cases resp <;> first | exact hresp.elim | simp [Client.finish, Client.pushes, hp,
      Phase.Pushing]
  have hidle : ∀ q', (k.finish q resp).phase = .waiting q' → (m.resume q).In q' := by
    intro q' hq'
    rw [Client.phase_finish k hresp] at hq'
    cases hq'
  refine ⟨?_, ?_, hidle, hpushes ▸ h.bound⟩
  · rw [hpushes, ← h.rates]
    cases q with
    | pullWeights => cases hs : m.stage <;> simp [Main.resume, hs]
    | _ => rfl
  · have hacks := h.acks
    cases q with
    | pullWeights =>
      cases resp with
      | weightsResponse w =>
        cases hs : m.stage with
        | top => exact absurd hs hin
        | _ => simpa [Main.resume, hs, Client.finish] using hacks
      | _ => exact hresp.elim
    | pushGradients step g =>
      have htop : m.stage = .top := hin
      cases resp with
      | ack k' => simpa [Main.resume, htop, Client.finish] using hacks
      | _ => exact hresp.elim
    | heartbeat reward extra =>
      have hpushed : m.stage = .pushed := hin
      cases resp with
      | heartbeatAck => simpa [Main.resume, hpushed, Client.finish] using hacks
      | _ => exact hresp.elim

/-- What does not show in the loop. -/
lemma LoopInv.congr (h : m.LoopInv config cosPi k) {k' : Client α} (hacks : k'.acks = k.acks)
    (hphase : k'.phase = k.phase ∨ k'.phase = .idle ∧ k.phase = .away) :
    m.LoopInv config cosPi k' := by
  have hpushes : k'.pushes = k.pushes := by
    rcases hphase with hp | ⟨hp, hp'⟩
    · rw [Client.pushes, Client.pushes, hacks, hp]
    · rw [Client.pushes, Client.pushes, hacks, hp, hp']
      rfl
  refine ⟨hpushes ▸ h.rates, hacks ▸ h.acks, ?_, hpushes ▸ h.bound⟩
  intro q hq
  rcases hphase with hp | ⟨hp, -⟩
  · exact h.waiting q (hp ▸ hq)
  · rw [hp] at hq
    cases hq

end Main

/-! ### Pushes and rounds -/

/-- `global_step` counts the rounds. -/
lemma Rule.globalStep_of [Scalar α] {env : ServerEnv α} {s s' : System α} {a : Action α} {k : ℕ}
    (hr : Rule env s a s') (h : s.store.globalStep = k + s.history.applied.length) :
    s'.store.globalStep = k + s'.history.applied.length := by
  rcases hr.globalStep_cases with ⟨hstep, happlied⟩ | ⟨t, r, happ⟩
  · rw [hstep, happlied]
    exact h
  · rw [WeightStore.globalStep_of_ok happ.apply, happ.history, h, Nat.add_assoc]
    rfl

namespace Cluster

variable {s s' : Cluster α} {d : ConnId} {members : Finset ConnId} {st : WeightStore α}

/-- The worker's push has been averaged, and the worker has not read the ACK. -/
def Ahead (s : Cluster α) (d : ConnId) : Prop :=
  (s.clients d).phase.Pushing = true ∧ (d, (s.clients d).sent) ∈ s.sys.averaged

instance (s : Cluster α) (d : ConnId) : Decidable (s.Ahead d) :=
  inferInstanceAs (Decidable (_ ∧ _))

/-- The number of the worker's pushes that have been averaged. -/
def rounds (s : Cluster α) (d : ConnId) : ℕ :=
  (s.clients d).acks.length + if s.Ahead d then 1 else 0

lemma rounds_congr (hacks : (s'.clients d).acks = (s.clients d).acks)
    (hphase : (s'.clients d).phase = (s.clients d).phase)
    (hsent : (s'.clients d).sent = (s.clients d).sent)
    (havg : s'.sys.averaged = s.sys.averaged) : s'.rounds d = s.rounds d := by
  have hahead : s'.Ahead d ↔ s.Ahead d := by rw [Ahead, Ahead, hphase, hsent, havg]
  simp only [rounds, hacks, hahead]

lemma rounds_of_not_pushing (h : (s.clients d).phase.Pushing = false) :
    s.rounds d = (s.clients d).acks.length := by
  rw [rounds, if_neg (fun ha => by rw [ha.1] at h; cases h), Nat.add_zero]

/-- The store counts the rounds, and every member has a push in each of them. -/
structure CountInv (members : Finset ConnId) (st : WeightStore α) (s : Cluster α) : Prop where
  globalStep : s.sys.store.globalStep = st.globalStep + s.sys.history.applied.length
  rounds : ∀ d ∈ members, s.sys.history.applied.length = s.rounds d
  nonempty : s.sys.history.applied ≠ [] → members.Nonempty

lemma countInv_init (timeout : ℚ) : (init st timeout).CountInv members st where
  globalStep := rfl
  rounds _ _ := rfl
  nonempty h := absurd rfl h

variable [Scalar α] {env : ServerEnv α} {ids : ConnId → WorkerId} {a : ClusterAction α}

/-- While no round is applied, nothing that a worker does changes the count. -/
lemma Tracked.rounds_eq (h : s.Tracked env ids) (hp : env.pickle.Lawful)
    (hstep : s.step env ids a = some s')
    (happ : s'.sys.history.applied = s.sys.history.applied) (d : ConnId) :
    s'.rounds d = s.rounds d := by
  have havg : s'.sys.averaged = s.sys.averaged := by rw [System.averaged, System.averaged, happ]
  cases rule_of_step hstep with
  | @connect c sys hph hsys =>
    by_cases hdc : d = c
    · subst hdc
      rw [rounds_of_not_pushing (by simp [Phase.Pushing]), rounds_of_not_pushing (by rw [hph]; rfl)]
      simp
    · refine rounds_congr ?_ ?_ ?_ havg <;> simp [hdc]
  | @request c q sys hph hl hsys =>
    by_cases hdc : d = c
    · subst hdc
      -- the push is new
      have hnew : (d, (s.clients d).sent + 1) ∉ s.sys.averaged := by
        intro hmem
        have hspent := (h.deltas.averaged_spent _ hmem).1
        have hsent := h.sound.sent d
        simp only at hspent
        omega
      rw [rounds, if_neg, rounds_of_not_pushing (by rw [hph]; rfl)]
      · simp [Client.call]
      · rintro ⟨-, hmem⟩
        rw [havg] at hmem
        simp only [clients_setClient, if_true, Client.call] at hmem
        exact hnew hmem
    · refine rounds_congr ?_ ?_ ?_ havg <;> simp [hdc]
  | @receive c q payload rest hph hl hf =>
    by_cases hdc : d = c
    · subst hdc
      obtain ⟨m, hm, hpay, -, hdec⟩ := h.sound.decode_of_split hp hph hf
      have hidle := Client.phase_finish (s.clients d) hm
      rw [rounds_of_not_pushing (by simp [hdec, hidle, Phase.Pushing])]
      simp only [clients_setClient, if_true, hdec]
      cases q with
      | pushGradients step g =>
        cases m with
        | ack k =>
          obtain ⟨x, hx, hid, -⟩ := h.reads.unread d step g payload rest hph hf
          have hmem := h.acks.averaged _ (System.mem_acknowledged.mpr ⟨x, hx, hid⟩)
          rw [rounds, if_pos ⟨by rw [hph]; rfl, hmem⟩]
          rfl
        | _ => exact hm.elim
      | pullWeights =>
        rw [rounds_of_not_pushing (by rw [hph]; rfl)]
        cases m <;> rfl
      | heartbeat reward extra =>
        rw [rounds_of_not_pushing (by rw [hph]; rfl)]
        cases m <;> rfl
    · refine rounds_congr ?_ ?_ ?_ havg <;> simp [hdc]
  | @leave c sys hph hsys =>
    refine rounds_congr ?_ ?_ ?_ havg <;>
    · simp only [clients_setClient]
      split_ifs with hdc <;> simp [hdc]
  | server hi hsys => exact rounds_congr rfl rfl rfl havg

/-- A round that is applied counts for every member. -/
lemma Tracked.rounds_succ (h : s.Tracked env ids) (hg : s.GroupInv members) {t : ConnId}
    {r : Round α} {b : Action α} (happ : Rule.Applies s.sys b s'.sys t r)
    (hclients : s'.clients = s.clients) (hd : d ∈ members) : s'.rounds d = s.rounds d + 1 := by
  obtain ⟨δ, hδ, rfl⟩ := h.pushes.complete t r happ.handler d (hg.full t r happ.handler d hd)
  obtain ⟨-, hid, step, g, hp, -⟩ := h.pushes.pending t r happ.handler δ hδ
  have hmem : δ.id ∈ r.deltas.map Delta.id := List.mem_map_of_mem hδ
  have hnew := h.deltas.pending_averaged t δ.id ⟨r, happ.handler, hmem⟩
  have havg : δ.id ∈ s'.sys.averaged := by
    rw [System.averaged, happ.history]
    exact List.mem_append_left _ hmem
  rw [hid] at hnew havg
  rw [rounds, rounds, hclients, if_pos, if_neg fun ha => hnew ha.2]
  exact ⟨by rw [hclients, hp]; rfl, by rw [hclients]; exact havg⟩

lemma CountInv.step (hc : s.CountInv members st) (h : s.Tracked env ids) (hg : s.GroupInv members)
    (hp : env.pickle.Lawful) (hk : s.Covers env a) (hstep : s.step env ids a = some s') :
    s'.CountInv members st := by
  rcases rule_of_sys hstep hk with he | ⟨b, hr, -, hcl⟩
  · refine ⟨?_, ?_, ?_⟩
    · rw [he]; exact hc.globalStep
    · intro d hd
      rw [h.rounds_eq hp hstep (by rw [he]), he]
      exact hc.rounds d hd
    · rw [he]; exact hc.nonempty
  refine ⟨hr.globalStep_of hc.globalStep, ?_, ?_⟩
  · intro d hd
    rcases hr.applied_of with happ | ⟨t, r, happ⟩
    · rw [h.rounds_eq hp hstep happ, happ]
      exact hc.rounds d hd
    · obtain ⟨now, rfl⟩ := happ.action
      rw [h.rounds_succ hg happ (hcl rfl).2 hd, ← hc.rounds d hd, happ.history]
      rfl
  · intro hne
    rcases hr.applied_of with happ | ⟨t, r, happ⟩
    · exact hc.nonempty (happ ▸ hne)
    · obtain ⟨δ, hδ, -⟩ := h.deltas.pending_own t r happ.handler
      obtain ⟨-, -, step, g, hq, -⟩ := h.pushes.pending t r happ.handler δ hδ
      exact ⟨δ.conn, hg.present δ.conn (by rw [hq]; simp)⟩

end Cluster

/-! ### The loops of a run -/

namespace Training

open Cluster

variable [Scalar α] [Field 𝕂] [LinearOrder 𝕂] {config : LrConfig 𝕂} {cosPi : 𝕂 → 𝕂}
  {env : ServerEnv α} {ids : ConnId → WorkerId} {s s' : Training α 𝕂} {a : ClusterAction α}
  {members : Finset ConnId} {st : WeightStore α} {timeout : ℚ} {d : ConnId}

lemma of_step (h : s.step config cosPi env ids a = some s') : s.Lets config a ∧
    ∃ k, s.cluster.step env ids a = some k ∧ s' = ⟨k, s.moves config cosPi k a⟩ := by
  rw [step] at h
  split_ifs at h with hlets
  obtain ⟨k, hk, rfl⟩ := Option.map_eq_some_iff.mp h
  exact ⟨hlets, k, hk, rfl⟩

/-- Every worker goes through its loop. -/
lemma loopInv_step (hs : s.cluster.Sound env ids) (hp : env.pickle.Lawful)
    (h : ∀ d, (s.mains d).LoopInv config cosPi (s.cluster.clients d))
    (hstep : s.step config cosPi env ids a = some s') (d : ConnId) :
    (s'.mains d).LoopInv config cosPi (s'.cluster.clients d) := by
  obtain ⟨hlets, k, hk, rfl⟩ := of_step hstep
  have hsame : ∀ {c : ConnId} {x : Client α}, d ≠ c →
      (s.mains d).LoopInv config cosPi (if d = c then x else s.cluster.clients d) := by
    intro c x hdc
    rw [if_neg hdc]
    exact h d
  cases rule_of_step hk with
  | @connect c sys hph hsys =>
    by_cases hdc : d = c
    · subst hdc
      simp only [moves, clients_setClient, if_true]
      exact (h d).congr rfl (Or.inr ⟨rfl, hph⟩)
    · simpa only [moves, clients_setClient] using hsame hdc
  | @request c q sys hph hl hsys =>
    by_cases hdc : d = c
    · subst hdc
      simp only [moves, clients_setClient, if_true, Function.update_self]
      exact (h d).call hph hlets
    · simpa only [moves, clients_setClient, Function.update_of_ne hdc] using hsame hdc
  | @receive c q payload rest hph hl hf =>
    obtain ⟨m, hm, -, -, hdec⟩ := hs.decode_of_split hp hph hf
    have hidle := Client.phase_finish (s.cluster.clients c) hm
    simp only [moves, clients_setClient, if_true, hph, hdec, hidle]
    by_cases hdc : d = c
    · subst hdc
      simp only [Function.update_self, if_true]
      exact ((h d).resume hph hm).congr rfl (Or.inl hidle.symm)
    · simpa only [Function.update_of_ne hdc] using hsame hdc
  | @leave c sys hph hsys =>
    by_cases hdc : d = c
    · subst hdc
      simp only [moves, clients_setClient, if_true]
      exact (h d).congr rfl (Or.inl rfl)
    · simpa only [moves, clients_setClient] using hsame hdc
  | server hi hsys => exact h d

/-- The step condition of a training run: nobody leaves or is marked DEAD, and the members have all
registered before one of them pushes what it has trained. -/
def Together (members : Finset ConnId) (s : Training α 𝕂) (a : ClusterAction α)
    (s' : Training α 𝕂) : Prop :=
  s.cluster.Steady a s'.cluster ∧ s.cluster.Trains members a

/-- What holds in every training run. -/
structure RunInv (config : LrConfig 𝕂) (cosPi : 𝕂 → 𝕂) (members : Finset ConnId)
    (st : WeightStore α) (s : Training α 𝕂) : Prop where
  loops : ∀ d, (s.mains d).LoopInv config cosPi (s.cluster.clients d)
  counts : s.cluster.CountInv members st

lemma cluster_of_reach (h : Reach (step config cosPi env ids) (Together members)
    (.init 𝕂 st timeout) s) :
    Reach (Cluster.step env ids) (fun s a s' => s.Steady a s' ∧ s.Trains members a)
      (.init st timeout) s.cluster := by
  refine h.map Training.cluster fun {s a s'} hstep hk => ?_
  obtain ⟨-, k, hk', rfl⟩ := of_step hstep
  exact Or.inr ⟨a, hk', hk⟩

lemma runInv_of_reach (hids : Function.Injective ids) (hp : env.pickle.Lawful)
    (hsync : GradientAggregator.minReady env.config ≤ 0) (hmax : 0 ≤ config.maxSteps)
    (h : Reach (step config cosPi env ids) (Together members) (.init 𝕂 st timeout) s) :
    s.RunInv config cosPi members st := by
  refine h.invariant_reach (P := fun s => s.RunInv config cosPi members st)
    ⟨fun _ => Main.loopInv_init hmax, countInv_init timeout⟩ ?_
  intro s a s' hr hi hstep hk
  obtain ⟨hs, hg⟩ := group_of_reach hids hp hsync (cluster_of_reach hr) id
  refine ⟨loopInv_step hs.tracked.sound hp hi.loops hstep, ?_⟩
  obtain ⟨-, k, hk', rfl⟩ := of_step hstep
  exact hi.counts.step hs.tracked hg hp (covers_of_sync hsync hs.steady _) hk'

omit [Scalar α] in
/-- No worker is more than one push ahead of the store. -/
lemma RunInv.rounds_le (h : s.RunInv config cosPi members st) (hmax : 0 ≤ config.maxSteps) :
    (s.cluster.sys.history.applied.length : ℤ) ≤ config.maxSteps := by
  by_cases hne : s.cluster.sys.history.applied = []
  · rw [hne]
    exact hmax
  · obtain ⟨d, hd⟩ := h.counts.nonempty hne
    have hle : s.cluster.rounds d ≤ (s.cluster.clients d).pushes := by
      rw [Cluster.rounds, Client.pushes]
      split_ifs with ha hq hq
      · exact le_rfl
      · exact absurd ha.1 hq
      · exact Nat.le_succ _
      · exact le_rfl
    rw [h.counts.rounds d hd]
    exact le_trans (by exact_mod_cast hle) (h.loops d).bound

omit [Scalar α] in
/-- When a worker has finished, there have been as many rounds as iterations. -/
lemma RunInv.rounds_of_finished (h : s.RunInv config cosPi members st) (hd : d ∈ members)
    (hfin : (s.mains d).Finished config) :
    config.maxSteps ≤ s.cluster.sys.history.applied.length := by
  have hacks : (s.cluster.clients d).acks.length = (s.mains d).globalStep := by
    simpa [hfin.1] using (h.loops d).acks
  rw [h.counts.rounds d hd, Cluster.rounds, hacks]
  refine le_trans hfin.2 ?_
  exact_mod_cast Nat.le_add_right _ _

omit [Scalar α] in
lemma RunInv.rates (h : s.RunInv config cosPi members st) (d : ConnId) :
    (s.mains d).rates = (List.range (s.mains d).rates.length).map (config.rate cosPi) := by
  have hrates := (h.loops d).rates
  have hlen := congrArg List.length hrates
  rw [List.length_map, List.length_range] at hlen
  rw [hlen]
  exact hrates

/-- The step that the server starts from is `k`. A run of a group of workers keeps to the schedule
and to the training length if nothing has been resumed. Otherwise it leaves them: when one of its
workers has finished, the store is beyond the training length. -/
theorem on_schedule (hids : Function.Injective ids) (hp : env.pickle.Lawful)
    (hsync : GradientAggregator.minReady env.config ≤ 0) {fresh : WeightStore α}
    {loads : List UInt8 → Option (CheckpointObj α)} {file : Option (List UInt8)} {k : ℕ}
    (hk : (fresh.loadCheckpoint loads file).1.globalStep = .number k)
    (hstart : (k : ℤ) < config.maxSteps) {s₀ : Training α 𝕂}
    (hlaunch : launch 𝕂 fresh loads file timeout = some s₀)
    (h : Reach (step config cosPi env ids) (Together members) s₀ s) :
    (k = 0 → s.OnSchedule config cosPi k) ∧
      ∀ d ∈ members, (s.mains d).Finished config → (s.OnSchedule config cosPi k ↔ k = 0) := by
  obtain ⟨store, hstore, rfl⟩ := Option.map_eq_some_iff.mp hlaunch
  rw [LoadedStore.eq_loaded_of_toStore hstore] at hk
  have hk : store.globalStep = k := Nat.cast_injective (StepValue.number.inj hk)
  have hmax : 0 ≤ config.maxSteps := le_trans (Int.natCast_nonneg _) hstart.le
  have hi := runInv_of_reach hids hp hsync hmax h
  have hstep := hi.counts.globalStep
  rw [hk] at hstep
  have hzero : k = 0 → s.OnSchedule config cosPi k := by
    intro hzero
    constructor
    · rw [hstep, hzero, Nat.zero_add]
      exact hi.rounds_le hmax
    · intro d
      rw [hzero, ← List.range_eq_range']
      exact hi.rates d
  refine ⟨hzero, fun d hd hfin => ⟨?_, hzero⟩⟩
  intro hon
  have hle := hon.1
  have hge := hi.rounds_of_finished hd hfin
  rw [hstep] at hle
  omega

end Training

/-! ### Two runs -/

namespace Scenario

/-- Two steps of training, from a learning rate of one down to zero. -/
def twoSteps : LrConfig ℚ := ⟨1, "linear", 0, 2⟩

/-- Worker `0` goes through the iteration `i` of its loop, with the delta `1`, and leaves the store
at step `k` with the weight `x`. -/
def iterates (i k : ℕ) (x : ℚ) : List (ClusterAction ℚ) :=
  calls 0 (.pushGradients i (single 1)) ++ runs 0 3 ++ sends 0 0 (.ack k) ++ runs 0 2 ++
    calls 0 .pullWeights ++ runs 0 1 ++ sends 0 0 (.weightsResponse (single x))

/-- A check that implies `Together`. -/
def together (members : Finset ConnId) (s : Training ℚ ℚ) (a : ClusterAction ℚ)
    (s' : Training ℚ ℚ) : Bool :=
  steady s.cluster a s'.cluster && trains members s.cluster a

lemma together_sound {members : Finset ConnId} {s s' : Training ℚ ℚ} {a : ClusterAction ℚ}
    (h : together members s a s' = true) : s.Together members a s' := by
  obtain ⟨hsteady, htrains⟩ := Bool.and_eq_true_iff.mp h
  exact ⟨steady_sound hsteady, trains_sound htrains⟩

/-- The file that holds the checkpoint of a store, or none. -/
def fileOf (c : Option (WeightStore ℚ)) : Option (List UInt8) :=
  c.map fun st => bytewise.dumps st.checkpoint

/-- A server that starts from the checkpoint of `c`, or without one. -/
def launched (c : Option (WeightStore ℚ)) : Training ℚ ℚ := .init ℚ (c.getD (oneParam 0 0)) 30

lemma launch_fileOf (c : Option (WeightStore ℚ))
    (hc : ∀ st ∈ c, st.baseLr = 1 ∧ st.momentum = 0) :
    Training.launch ℚ (oneParam 0 0) bytewise.loads (fileOf c) 30 = some (launched c) := by
  cases c with
  | none => simp [Training.launch, fileOf, launched, WeightStore.loadCheckpoint]
  | some st =>
    obtain ⟨hlr, hm⟩ := hc st rfl
    have hst : (oneParam 0 0).resume st = st := by simp [WeightStore.resume, oneParam, ← hlr, ← hm]
    rw [Training.launch, fileOf, Option.map_some, loadCheckpoint_dumps bytewise_lawful, hst,
      LoadedStore.toStore_loaded]
    rfl

end Scenario

open Scenario

/-- Resumed at step one of two, the worker starts again with the first learning rate instead of the
second one, and leaves the store at step three. -/
theorem resumed_off_schedule :
    ((oneParam 0 0).loadCheckpoint bytewise.loads (fileOf (some (oneParam 5 1)))).1.globalStep =
      .number 1 ∧ Training.launch ℚ (oneParam 0 0) bytewise.loads (fileOf (some (oneParam 5 1))) 30 =
      some (launched (some (oneParam 5 1))) ∧
    ∃ s, Reach (Training.step twoSteps id (wireEnv 0) ownId) (Training.Together {0})
        (launched (some (oneParam 5 1))) s ∧
      (s.mains 0).rates = [1, 1 / 2] ∧ twoSteps.rate id 1 = 1 / 2 ∧ twoSteps.rate id 2 = 0 ∧
      s.cluster.sys.store.globalStep = 3 ∧ ¬ s.OnSchedule twoSteps id 1 := by
  have hlaunch : Training.launch ℚ (oneParam 0 0) bytewise.loads (fileOf (some (oneParam 5 1))) 30 =
      some (launched (some (oneParam 5 1))) := launch_fileOf _ (by simp [oneParam])
  refine ⟨?_, hlaunch, ?_⟩
  · rw [fileOf, Option.map_some, loadCheckpoint_dumps bytewise_lawful]
    simp [WeightStore.loaded, WeightStore.withStep, WeightStore.resume, oneParam]
  obtain ⟨s, hreach, hrates, hstep⟩ := Reach.of_script
    (Training.step twoSteps id (wireEnv 0) ownId) (Training.Together {0})
    (launched (some (oneParam 5 1))) (pulls 0 5 ++ iterates 0 2 4 ++ iterates 1 3 3)
    (together {0}) (fun _ _ _ => together_sound)
    (fun s : Training ℚ ℚ => (s.mains 0).rates = [1, 1 / 2] ∧
      s.cluster.sys.store.globalStep = 3)
    (by decide +kernel)
  refine ⟨s, hreach, hrates, by decide +kernel, by decide +kernel, hstep, ?_⟩
  intro hon
  have hle := hon.1
  rw [hstep] at hle
  exact absurd hle (by decide)

/-- Started without a checkpoint, it has finished its two steps and is on schedule. -/
theorem on_schedule_twoSteps :
    ∃ s, Reach (Training.step twoSteps id (wireEnv 0) ownId) (Training.Together {0})
        (launched none) s ∧
      (s.mains 0).Finished twoSteps ∧ s.cluster.sys.store.globalStep = 2 ∧
      s.OnSchedule twoSteps id 0 := by
  obtain ⟨s, hreach, hfin, hstep⟩ := Reach.of_script
    (Training.step twoSteps id (wireEnv 0) ownId) (Training.Together {0}) (launched none)
    (pulls 0 0 ++ iterates 0 1 (-1) ++ iterates 1 2 (-2)) (together {0})
    (fun _ _ _ => together_sound)
    (fun s : Training ℚ ℚ => ((s.mains 0).stage = .top ∧ (2 : ℤ) ≤ (s.mains 0).globalStep) ∧
      s.cluster.sys.store.globalStep = 2)
    (by decide +kernel)
  have hlaunch := launch_fileOf none (by simp)
  obtain ⟨hzero, -⟩ := Training.on_schedule (k := 0) ownId_injective (wireEnv_lawful 0)
    (by decide) (by simp [fileOf, WeightStore.loadCheckpoint, WeightStore.loaded,
      WeightStore.withStep, oneParam]) (by decide) hlaunch hreach
  exact ⟨s, hreach, hfin, hstep, hzero rfl⟩

end DistributedRL
