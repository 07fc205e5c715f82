import DistributedRL.Server.Momentum
import DistributedRL.Worker.Training

/-!
# Reproducibility

A worker's rollouts and local updates depend on nothing but its own state (environments, generators,
optimizer) and the weights that it has pulled. In synchronous mode this makes the whole training a
function of the initial weights: for every interleaving of workers and threads, partial sends, scans
and heartbeats, the store is that of one process that lets every member train in turn and then
calls `apply_gradients` on their deltas.
-/

namespace DistributedRL

/-! ### The order of the deltas -/

namespace WeightStore

variable {𝕂 : Type*} [Field 𝕂] {initial : Weights 𝕂} {lr m : 𝕂} {k : ℕ} {st st' : WeightStore 𝕂}

/-- Stores after as many rounds that agree in every element are equal. -/
lemma RoundInv.unique (h : RoundInv initial lr m k st) (h' : RoundInv initial lr m k st')
    (hitem : ∀ name a, initial.get? name = some a → ∀ i,
      st.weights.item name i = st'.weights.item name i ∧
        st.momentumBuffers.item name i = st'.momentumBuffers.item name i) : st = st' := by
  have hget : ∀ name, st.weights.get? name = st'.weights.get? name ∧
      st.momentumBuffers.get? name = st'.momentumBuffers.get? name := by
    intro name
    cases ha : initial.get? name with
    | none =>
      have hnone : ∀ {d : Weights 𝕂}, d.keys = initial.keys → d.get? name = none := by
        intro d hd
        rw [Dict.get?_eq_none_iff, hd]
        exact Dict.get?_eq_none_iff.mp ha
      exact ⟨(hnone h.keys).trans (hnone h'.keys).symm,
        (hnone h.bufferKeys).trans (hnone h'.bufferKeys).symm⟩
    | some a =>
      obtain ⟨w, hw, hws⟩ := h.shapes.get? ha
      obtain ⟨w', hw', hws'⟩ := h'.shapes.get? ha
      obtain ⟨v, hv, hvs⟩ := h.aligned.exists_buffer hw
      obtain ⟨v', hv', hvs'⟩ := h'.aligned.exists_buffer hw'
      have hww : w = w' := NDArray.ext_item (hws.trans hws'.symm) fun i _ => by
        rw [← Dict.item_of_get? hw, ← Dict.item_of_get? hw']
        exact (hitem name a ha i).1
      have hvv : v = v' := by
        refine NDArray.ext_item (by rw [hvs, hvs', hww]) fun i _ => ?_
        rw [← Dict.item_of_get? hv, ← Dict.item_of_get? hv']
        exact (hitem name a ha i).2
      exact ⟨by rw [hw, hw', hww], by rw [hv, hv', hvv]⟩
  obtain ⟨w, b, lr', m', k⟩ := st
  obtain ⟨w', b', lr'', m'', k'⟩ := st'
  have hw : w = w' := Dict.ext_get? (h.keys.trans h'.keys.symm) fun name => (hget name).1
  have hb : b = b' :=
    Dict.ext_get? (h.bufferKeys.trans h'.bufferKeys.symm) fun name => (hget name).2
  have hlr : lr' = lr'' := h.baseLr.trans h'.baseLr.symm
  have hm : m' = m'' := h.momentum.trans h'.momentum.symm
  have hk : k = k' := h.globalStep.trans h'.globalStep.symm
  rw [hw, hb, hlr, hm, hk]

/-- `apply_gradients` takes the deltas in any order. -/
lemma RoundInv.applyGradients_perm (h : RoundInv initial lr m k st) {grads grads' : List (Payload 𝕂)}
    (hne : grads ≠ []) (hg : ∀ g ∈ grads, WellShaped initial g) (hp : grads.Perm grads') :
    ∃ st', st.applyGradients grads = (st', .ok ()) ∧ st.applyGradients grads' = (st', .ok ()) ∧
      RoundInv initial lr m (k + 1) st' := by
  obtain ⟨st₁, hok₁, hinv₁, hdesc₁⟩ := h.next hne hg
  have hne' : grads' ≠ [] := fun he => hne (List.perm_nil.mp (he ▸ hp))
  obtain ⟨st₂, hok₂, hinv₂, hdesc₂⟩ := h.next hne' fun g hmem => hg g (hp.mem_iff.mpr hmem)
  obtain rfl : st₁ = st₂ := by
    refine hinv₁.unique hinv₂ fun name a ha i => ?_
    have hone := hdesc₁ name a ha i
    have htwo := hdesc₂ name a ha i
    have hvel : st₁.momentumBuffers.item name i = st₂.momentumBuffers.item name i := by
      rw [hone.velocity, htwo.velocity, meanItem_perm hp]
    exact ⟨by rw [hone.position, htwo.position, hvel], hvel⟩
  exact ⟨st₁, hok₁, hok₂, hinv₁⟩

end WeightStore

/-! ### The sequential program -/

/-- How a worker trains: from its state and the weights it starts from to its next state and the
weights that it ends up with. -/
abbrev Learner (σ α : Type*) := ConnId → σ → Weights α → σ × Weights α

/-- The store, and the states of the workers. -/
structure Sequential (α σ : Type*) where
  store : WeightStore α
  locals : ConnId → σ

namespace Sequential

variable {α σ : Type*} [Scalar α]

/-- What a worker pushes after it has trained from the weights of the store. -/
def delta (learn : Learner σ α) (s : Sequential α σ) (d : ConnId) : Except PyError (Weights α) :=
  weightDelta s.store.weights (learn d (s.locals d) s.store.weights).2

/-- The deltas of the members, in some order. -/
noncomputable def deltas (learn : Learner σ α) (members : Finset ConnId) (s : Sequential α σ) :
    List (Payload α) :=
  members.toList.map fun d => ((s.delta learn d).toOption.map Payload.dict).getD .other

/-- Every member trains, and the store applies their deltas. -/
noncomputable def round (learn : Learner σ α) (members : Finset ConnId) (s : Sequential α σ) :
    Sequential α σ where
  store := (s.store.applyGradients (s.deltas learn members)).1
  locals d := (learn d (s.locals d) s.store.weights).1

/-- The program after `k` rounds. -/
noncomputable def rounds (learn : Learner σ α) (members : Finset ConnId) (s : Sequential α σ)
    (k : ℕ) : Sequential α σ :=
  (round learn members)^[k] s

lemma rounds_succ (learn : Learner σ α) (members : Finset ConnId) (s : Sequential α σ) (k : ℕ) :
    s.rounds learn members (k + 1) = (s.rounds learn members k).round learn members :=
  Function.iterate_succ_apply' _ k s

end Sequential

/-! ### The cluster of learners -/

/-- The cluster, and the states of the workers. -/
structure Learning (α σ : Type*) where
  cluster : Cluster α
  locals : ConnId → σ

namespace Learning

variable {α σ : Type*}

/-- Every worker is in its first state. -/
def init (store : WeightStore α) (locals : ConnId → σ) (timeout : ℚ) : Learning α σ :=
  ⟨.init store timeout, locals⟩

/-- What a worker has trained when it pushes. -/
def trained (learn : Learner σ α) (s : Learning α σ) (c : ConnId) : Option (σ × Weights α) :=
  (s.cluster.clients c).base.map (learn c (s.locals c))

/-- The states of the workers after a step. -/
def moves (learn : Learner σ α) (s : Learning α σ) : ClusterAction α → ConnId → σ
  | .request c (.pushGradients _ _) =>
    Function.update s.locals c ((s.trained learn c).elim (s.locals c) Prod.fst)
  | _ => s.locals

/-- The transition function of the cluster of learners. -/
def step [Scalar α] (learn : Learner σ α) (env : ServerEnv α) (ids : ConnId → WorkerId)
    (s : Learning α σ) (a : ClusterAction α) : Option (Learning α σ) :=
  (s.cluster.step env ids a).map fun k => ⟨k, s.moves learn a⟩

/-- A worker pushes what it has trained. -/
def Pushes [Scalar α] (learn : Learner σ α) (s : Learning α σ) : ClusterAction α → Prop
  | .request c (.pushGradients _ g) => ∃ w, (s.cluster.clients c).base = some w ∧
      weightDelta w (learn c (s.locals c) w).2 = .ok g
  | _ => True

/-- The store is that of the sequential program after as many rounds, as it was before and after each
of the rounds, and every worker has the state of as many rounds as it has trained for. -/
structure Follows [Scalar α] (learn : Learner σ α) (members : Finset ConnId) (q : Sequential α σ)
    (s : Learning α σ) : Prop where
  store : s.cluster.sys.store =
    (q.rounds learn members s.cluster.sys.history.applied.length).store
  applied : ∀ x ∈ s.cluster.sys.history.applied, ∃ k,
    k < s.cluster.sys.history.applied.length ∧ x.before = (q.rounds learn members k).store ∧
      x.after = (q.rounds learn members (k + 1)).store
  locals : ∀ d ∈ members,
    s.locals d = (q.rounds learn members (s.cluster.clients d).pushes).locals d

/-! ### The invariant -/

variable {𝕂 : Type*} [Field 𝕂] {learn : Learner σ 𝕂} {env : ServerEnv 𝕂} {ids : ConnId → WorkerId}
  {s s' : Learning 𝕂 σ} {a : ClusterAction 𝕂} {members : Finset ConnId} {st : WeightStore 𝕂}
  {x₀ : ConnId → σ} {q : Sequential 𝕂 σ} {timeout : ℚ} {d : ConnId}

/-- What is pushed has been trained from the weights of the round that it is for. -/
structure LearnInv (learn : Learner σ 𝕂) (members : Finset ConnId) (st : WeightStore 𝕂)
    (q : Sequential 𝕂 σ) (s : Learning 𝕂 σ) : Prop where
  follows : s.Follows learn members q
  rounds : WeightStore.RoundInv st.weights st.baseLr st.momentum
    (st.globalStep + s.cluster.sys.history.applied.length) s.cluster.sys.store
  counts : s.cluster.CountInv members st
  pushed : ∀ d step g, (s.cluster.clients d).phase = .waiting (.pushGradients step g) →
    (q.rounds learn members (s.cluster.clients d).acks.length).delta learn d = .ok g

lemma learnInv_init (hst : st.Aligned) (hkeys : st.momentumBuffers.keys = st.weights.keys)
    (x₀ : ConnId → σ) (timeout : ℚ) :
    (init st x₀ timeout).LearnInv learn members st ⟨st, x₀⟩ where
  follows := ⟨rfl, fun _ h => absurd h List.not_mem_nil, fun _ _ => rfl⟩
  rounds := ⟨hst, .refl _, rfl, hkeys, rfl, rfl, rfl⟩
  counts := Cluster.countInv_init timeout
  pushed _ _ _ h := by cases h

lemma of_step (h : s.step learn env ids a = some s') :
    ∃ k, s.cluster.step env ids a = some k ∧ s' = ⟨k, s.moves learn a⟩ := by
  obtain ⟨k, hk, rfl⟩ := Option.map_eq_some_iff.mp h
  exact ⟨k, hk, rfl⟩

/-- A delta of a round that is about to be applied is what its worker pushes in the sequential
program. -/
lemma LearnInv.delta (hi : s.LearnInv learn members st q) (hs : s.cluster.Synchronous env ids)
    (hg : s.cluster.GroupInv members) {t : ConnId} {r : Round 𝕂}
    (hh : (s.cluster.sys.conns t).handler = .apply r) {δ : Delta 𝕂} (hδ : δ ∈ r.deltas) :
    (s.cluster.clients δ.conn).pushes = s.cluster.sys.history.applied.length + 1 ∧
      ∃ g, δ.grads = .dict g ∧
        (q.rounds learn members s.cluster.sys.history.applied.length).delta learn δ.conn = .ok g := by
  obtain ⟨-, hid, step, g, hq, hgrads⟩ := hs.tracked.pushes.pending t r hh δ hδ
  have hmem := hg.present δ.conn (by rw [hq]; simp)
  have hnew := hs.tracked.deltas.pending_averaged t δ.id ⟨r, hh, List.mem_map_of_mem hδ⟩
  have hacks : s.cluster.sys.history.applied.length = (s.cluster.clients δ.conn).acks.length := by
    rw [hi.counts.rounds _ hmem, Cluster.rounds, if_neg (fun ha => hnew (hid ▸ ha.2)), Nat.add_zero]
  rw [hacks]
  refine ⟨?_, g, hgrads, hi.pushed _ step g hq⟩
  rw [Client.pushes, hq]
  rfl

/-- The deltas of such a round are those of the sequential program, in some order. -/
lemma LearnInv.deltas_perm (hi : s.LearnInv learn members st q)
    (hs : s.cluster.Synchronous env ids) (hg : s.cluster.GroupInv members) {t : ConnId}
    {r : Round 𝕂} (hh : (s.cluster.sys.conns t).handler = .apply r) :
    (r.deltas.map Delta.grads).Perm
      ((q.rounds learn members s.cluster.sys.history.applied.length).deltas learn members) := by
  have hperm := (hs.perm hg hh).map fun d =>
    (((q.rounds learn members s.cluster.sys.history.applied.length).delta learn d).toOption.map
      Payload.dict).getD .other
  rw [List.map_map] at hperm
  refine .trans (List.Perm.of_eq (List.map_congr_left fun δ hδ => ?_)) hperm
  obtain ⟨-, g, hgrads, hdelta⟩ := hi.delta hs hg hh hδ
  rw [Function.comp_apply, hdelta, hgrads]
  rfl

/-- A worker between two calls has trained for as many rounds as there have been. -/
lemma LearnInv.level (hi : s.LearnInv learn members st q) (hd : d ∈ members)
    (hp : (s.cluster.clients d).phase.Pushing = false) :
    (s.cluster.clients d).acks.length = s.cluster.sys.history.applied.length ∧
      s.locals d =
        (q.rounds learn members s.cluster.sys.history.applied.length).locals d := by
  have hacks : (s.cluster.clients d).acks.length = s.cluster.sys.history.applied.length := by
    rw [hi.counts.rounds d hd, Cluster.rounds_of_not_pushing hp]
  have hpushes : (s.cluster.clients d).pushes = s.cluster.sys.history.applied.length := by
    rw [Client.pushes, hp, hacks]
    rfl
  exact ⟨hacks, by rw [hi.follows.locals d hd, hpushes]⟩

/-- A worker that pushes has trained from the weights of the store. -/
lemma LearnInv.push (hi : s.LearnInv learn members st q) (hs : s.cluster.Synchronous env ids)
    (hd : d ∈ members) (hp : (s.cluster.clients d).phase = .idle) {w g : Weights 𝕂}
    (hw : (s.cluster.clients d).base = some w)
    (hg : weightDelta w (learn d (s.locals d) w).2 = .ok g) :
    (learn d (s.locals d) w).1 =
        (q.rounds learn members (s.cluster.sys.history.applied.length + 1)).locals d ∧
      (q.rounds learn members (s.cluster.clients d).acks.length).delta learn d = .ok g := by
  obtain ⟨hacks, hlocal⟩ := hi.level hd (by rw [hp]; rfl)
  obtain rfl : w = s.cluster.sys.store.weights := by
    refine (hs.fresh.base d w hw).resolve_right ?_
    rintro ⟨⟨step, g, hq⟩, -⟩
    rw [hp] at hq
    cases hq
  rw [hi.follows.store] at hg ⊢
  rw [hlocal] at hg ⊢
  rw [hacks, Sequential.rounds_succ]
  exact ⟨rfl, hg⟩

/-- The worker of `d` has trained for as many rounds as it has pushed in, and what it is pushing is
for the last of them. -/
def InSequence (learn : Learner σ 𝕂) (members : Finset ConnId) (q : Sequential 𝕂 σ) (d : ConnId)
    (x : σ) (k : Client 𝕂) : Prop :=
  (d ∈ members → x = (q.rounds learn members k.pushes).locals d) ∧
    ∀ step g, k.phase = .waiting (.pushGradients step g) →
      (q.rounds learn members k.acks.length).delta learn d = .ok g

lemma LearnInv.inSequence (hi : s.LearnInv learn members st q) (d : ConnId) :
    InSequence learn members q d (s.locals d) (s.cluster.clients d) :=
  ⟨hi.follows.locals d, hi.pushed d⟩

omit [Field 𝕂] in
lemma pushes_congr {k k' : Client 𝕂} (hacks : k'.acks = k.acks)
    (hphase : k'.phase.Pushing = k.phase.Pushing) : k'.pushes = k.pushes := by
  rw [Client.pushes, Client.pushes, hacks, hphase]

omit [Field 𝕂] in
/-- The ACK of a push takes its place in the count. -/
lemma pushes_finish {k : Client 𝕂} {call : Request 𝕂} {resp : Response 𝕂}
    (hp : k.phase = .waiting call) (hm : call.Expects resp) :
    (k.finish call resp).pushes = k.pushes := by
  rw [Client.pushes, Client.pushes, Client.phase_finish k hm, hp]
  cases call with
  | pushGradients step g =>
    cases resp with
    | ack step => rfl
    | _ => exact hm.elim
  | _ => cases resp <;> rfl

/-- A worker that is not pushing after a step that leaves the count of its pushes as it was. -/
lemma InSequence.of_pushes {x : σ} {k k' : Client 𝕂} (h : InSequence learn members q d x k)
    (hpushes : k'.pushes = k.pushes) (hphase : k'.phase.Pushing = false) :
    InSequence learn members q d x k' := by
  refine ⟨fun hd => by rw [hpushes, h.1 hd], fun step g hq => ?_⟩
  rw [hq] at hphase
  cases hphase

/-- Only a push changes the state of its worker and the count of its pushes. -/
lemma LearnInv.inSequence_step (hi : s.LearnInv learn members st q)
    (hs : s.cluster.Synchronous env ids) (hg : s.cluster.GroupInv members) (hp : env.pickle.Lawful)
    (hpush : s.Pushes learn a) {k : Cluster 𝕂} (hk : s.cluster.step env ids a = some k)
    (d : ConnId) : InSequence learn members q d (s.moves learn a d) (k.clients d) := by
  have hsame := hi.inSequence d
  cases Cluster.rule_of_step hk with
  | @connect c sys hph hsys =>
    by_cases hdc : d = c
    · subst hdc
      simp only [moves, Cluster.clients_setClient, if_true]
      refine hsame.of_pushes (pushes_congr rfl ?_) rfl
      rw [hph]
      rfl
    · simpa only [moves, Cluster.clients_setClient, if_neg hdc] using hsame
  | @request c call sys hph hl hsys =>
    by_cases hdc : d = c
    · subst hdc
      simp only [Cluster.clients_setClient, if_true]
      cases call with
      | pushGradients step g =>
        obtain ⟨w, hw, hdelta⟩ := hpush
        have hd := hg.present d (by rw [hph]; simp)
        obtain ⟨hlocal, hg⟩ := hi.push hs hd hph hw hdelta
        obtain ⟨hacks, -⟩ := hi.level hd (by rw [hph]; rfl)
        refine ⟨fun _ => ?_, ?_⟩
        · simp only [moves, trained, hw, Function.update_self, Option.map_some, Option.elim]
          rw [hlocal]
          simp only [Client.call, Client.pushes, Phase.Pushing, hacks, if_true]
        · rintro _ _ ⟨⟩
          exact hg
      | _ => exact hsame.of_pushes (pushes_congr rfl (by rw [hph]; rfl)) rfl
    · have hmoves : s.moves learn (.request c call) d = s.locals d := by
        cases call with
        | pushGradients step g => exact Function.update_of_ne hdc _ _
        | _ => rfl
      rw [hmoves]
      simpa only [Cluster.clients_setClient, if_neg hdc] using hsame
  | @receive c call payload rest hph hl hf =>
    by_cases hdc : d = c
    · subst hdc
      obtain ⟨m, hm, -, -, hdec⟩ := hs.tracked.sound.decode_of_split hp hph hf
      have hidle := Client.phase_finish (s.cluster.clients d) hm
      simp only [moves, Cluster.clients_setClient, if_true, hdec]
      refine hsame.of_pushes ?_ (by simp [hidle, Phase.Pushing])
      exact pushes_finish hph hm
    · simpa only [moves, Cluster.clients_setClient, if_neg hdc] using hsame
  | @leave c sys hph hsys =>
    by_cases hdc : d = c
    · subst hdc
      simp only [moves, Cluster.clients_setClient, if_true]
      exact hsame
    · simpa only [moves, Cluster.clients_setClient, if_neg hdc] using hsame
  | server hi hsys => exact hsame

lemma LearnInv.step_same (hi : s.LearnInv learn members st q)
    (hs : s.cluster.Synchronous env ids) (hg : s.cluster.GroupInv members) (hp : env.pickle.Lawful)
    (hcounts : s'.cluster.CountInv members st) (hpush : s.Pushes learn a)
    (hstep : s.step learn env ids a = some s')
    (hstore : s'.cluster.sys.store = s.cluster.sys.store)
    (happ : s'.cluster.sys.history.applied = s.cluster.sys.history.applied) :
    s'.LearnInv learn members st q := by
  obtain ⟨k, hk, rfl⟩ := of_step hstep
  have hclient := hi.inSequence_step hs hg hp hpush hk
  refine ⟨⟨?_, ?_, fun d hd => (hclient d).1 hd⟩, ?_, hcounts, fun d => (hclient d).2⟩
  · rw [hstore, happ]
    exact hi.follows.store
  · rw [happ]
    exact hi.follows.applied
  · rw [hstore, happ]
    exact hi.rounds

/-- A round that is about to be applied leaves the store of the sequential program. -/
lemma LearnInv.applies (hi : s.LearnInv learn members st q)
    (hs : s.cluster.Synchronous env ids) (hg : s.cluster.GroupInv members) {t : ConnId}
    {r : Round 𝕂} (hh : (s.cluster.sys.conns t).handler = .apply r) :
    ∃ now, s.cluster.sys.store.applyGradients (r.deltas.map Delta.grads) = (now, .ok ()) ∧
      now = (q.rounds learn members (s.cluster.sys.history.applied.length + 1)).store ∧
      WeightStore.RoundInv st.weights st.baseLr st.momentum
        (st.globalStep + (s.cluster.sys.history.applied.length + 1)) now := by
  obtain ⟨δ₀, hδ₀, -⟩ := hs.tracked.deltas.pending_own t r hh
  have hne : r.deltas.map Delta.grads ≠ [] := by
    intro hnil
    rw [List.map_eq_nil_iff.mp hnil] at hδ₀
    cases hδ₀
  obtain ⟨locals, hshapes, htrained⟩ := hs.trained hg hh
  have hmember : ∀ δ ∈ r.deltas, δ.conn ∈ members := fun δ hδ =>
    Finset.mem_toList.mp ((hs.perm hg hh).subset (List.mem_map_of_mem hδ))
  have hwell : ∀ g ∈ r.deltas.map Delta.grads, WellShaped st.weights g := by
    intro g hmem
    obtain ⟨δ, hδ, rfl⟩ := List.mem_map.mp hmem
    obtain ⟨-, g, hgrads, hdelta⟩ := htrained δ hδ
    rw [hgrads]
    exact (wellShaped_weightDelta (hshapes _ (hmember δ hδ)) hdelta).of_sameShapes hi.rounds.shapes
  obtain ⟨now, hok, hseq, hinv⟩ :=
    hi.rounds.applyGradients_perm hne hwell (hi.deltas_perm hs hg hh)
  refine ⟨now, hok, ?_, hinv⟩
  rw [Sequential.rounds_succ, Sequential.round, ← hi.follows.store, hseq]

/-- A step that applies a round. -/
lemma LearnInv.step_round (hi : s.LearnInv learn members st q)
    (hs : s.cluster.Synchronous env ids) (hg : s.cluster.GroupInv members)
    (hcounts : s'.cluster.CountInv members st) {t : ConnId} {r : Round 𝕂} {b : Action 𝕂}
    (happ : Rule.Applies s.cluster.sys b s'.cluster.sys t r)
    (hclients : s'.cluster.clients = s.cluster.clients) (hlocals : s'.locals = s.locals) :
    s'.LearnInv learn members st q := by
  obtain ⟨now, hok, hnext, hinv⟩ := hi.applies hs hg happ.handler
  obtain rfl : s'.cluster.sys.store = now := congrArg Prod.fst (happ.apply.symm.trans hok)
  have hhistory : s'.cluster.sys.history.applied =
      ⟨r.deltas, s.cluster.sys.store, s'.cluster.sys.store⟩ :: s.cluster.sys.history.applied := by
    rw [happ.history]
    rfl
  have hlength : s'.cluster.sys.history.applied.length =
      s.cluster.sys.history.applied.length + 1 := by rw [hhistory, List.length_cons]
  refine ⟨⟨?_, ?_, ?_⟩, ?_, hcounts, ?_⟩
  · rw [hlength, hnext]
  · intro x hx
    rw [hhistory] at hx
    rw [hlength]
    rcases List.mem_cons.mp hx with rfl | hx
    · exact ⟨_, Nat.lt_succ_self _, hi.follows.store, hnext⟩
    · obtain ⟨k, hk, hbefore, hafter⟩ := hi.follows.applied x hx
      exact ⟨k, hk.trans (Nat.lt_succ_self _), hbefore, hafter⟩
  · intro d hd
    rw [hlocals, hclients]
    exact hi.follows.locals d hd
  · rw [hlength]
    exact hinv
  · intro d step g hq
    rw [hclients] at hq ⊢
    exact hi.pushed d step g hq

end Learning

variable {σ 𝕂 : Type*} [Field 𝕂] {learn : Learner σ 𝕂} {env : ServerEnv 𝕂}
  {ids : ConnId → WorkerId} {s : Learning 𝕂 σ} {members : Finset ConnId} {st : WeightStore 𝕂}
  {x₀ : ConnId → σ} {timeout : ℚ}

/-- In synchronous mode, with exact arithmetic, the training is a function of the initial weights
and of the workers' first states: the store goes through the rounds of the sequential program, and so
do the states of the workers. -/
theorem training_reproducible (hids : Function.Injective ids) (hp : env.pickle.Lawful)
    (hsync : GradientAggregator.minReady env.config ≤ 0) (hst : st.Aligned)
    (hkeys : st.momentumBuffers.keys = st.weights.keys)
    (h : Reach (Learning.step learn env ids)
      (fun s a s' => s.cluster.Steady a s'.cluster ∧ s.cluster.Trains members a ∧ s.Pushes learn a)
      (.init st x₀ timeout) s) : s.Follows learn members ⟨st, x₀⟩ := by
  have hcluster : ∀ {s : Learning 𝕂 σ}, Reach (Learning.step learn env ids)
      (fun s a s' => s.cluster.Steady a s'.cluster ∧ s.cluster.Trains members a ∧ s.Pushes learn a)
      (.init st x₀ timeout) s → Reach (Cluster.step env ids)
        (fun s a s' => s.Steady a s' ∧ s.Trains members a) (.init st timeout) s.cluster := by
    intro s h
    refine h.map Learning.cluster fun {s a s'} hstep hok => ?_
    obtain ⟨k, hk, rfl⟩ := Learning.of_step hstep
    exact Or.inr ⟨a, hk, hok.1, hok.2.1⟩
  have hinv : s.LearnInv learn members st ⟨st, x₀⟩ := by
    refine h.invariant_reach (P := fun s => s.LearnInv learn members st ⟨st, x₀⟩)
      (Learning.learnInv_init hst hkeys x₀ timeout) ?_
    intro s a s' hr hi hstep hok
    obtain ⟨hs, hg⟩ := Cluster.group_of_reach hids hp hsync (hcluster hr) id
    obtain ⟨k, hk, hs'⟩ := Learning.of_step hstep
    have hcovers := Cluster.covers_of_sync hsync hs.steady a
    have hcounts : s'.cluster.CountInv members st := by
      rw [hs']
      exact hi.counts.step hs.tracked hg hp hcovers hk
    have hsys : k = s'.cluster := by rw [hs']
    rcases Cluster.rule_of_sys hk hcovers with he | ⟨b, hrule, -, hcl⟩
    · rw [hsys] at he
      exact hi.step_same hs hg hp hcounts hok.2.2 hstep (by rw [he]) (by rw [he])
    rw [hsys] at hrule hcl
    rcases hrule.round_of fun t r hh => (hi.applies hs hg hh).imp fun _ hnow => hnow.1 with
      ⟨hstore, happ⟩ | ⟨t, r, happ⟩
    · exact hi.step_same hs hg hp hcounts hok.2.2 hstep hstore happ
    · obtain ⟨now, rfl⟩ := happ.action
      obtain ⟨rfl, hclients⟩ := hcl rfl
      exact hi.step_round hs hg hcounts happ hclients (by rw [hs']; rfl)
  exact hinv.follows

/-! ### A run -/

namespace Scenario

/-- A worker that moves its weights by a number that grows by four in each round. -/
def fourMore : Learner ℚ ℚ := fun _ x w => (x + 4, (weightDelta w (single x)).toOption.getD w)

/-- A check that implies `Pushes`. -/
def learns (learn : Learner ℚ ℚ) (s : Learning ℚ ℚ) : ClusterAction ℚ → Bool
  | .request c (.pushGradients _ g) => (s.cluster.clients c).base.any fun w =>
      decide ((weightDelta w (learn c (s.locals c) w).2).toOption = some g)
  | _ => true

lemma learns_sound {learn : Learner ℚ ℚ} {s : Learning ℚ ℚ} {a : ClusterAction ℚ}
    (h : learns learn s a = true) : s.Pushes learn a := by
  cases a with
  | request c q =>
    cases q with
    | pushGradients step g =>
      obtain ⟨w, hw, hg⟩ := (Option.any_eq_true _ _).mp h
      refine ⟨w, hw, ?_⟩
      have hg := of_decide_eq_true hg
      cases hd : weightDelta w (learn c (s.locals c) w).2 with
      | ok d => simpa [hd, Except.toOption] using hg
      | error e => simp [hd, Except.toOption] at hg
    | _ => trivial
  | _ => trivial

/-- The workers start from 1 and 3. -/
def oneAndThree (d : ConnId) : ℚ := if d = 0 then 1 else 3

end Scenario

open Scenario

/-- After the two rounds of `racesAhead`, in which worker `0` has pulled and pushed again before
worker `1` is sent its ACK. -/
theorem training_reproducible_racesAhead :
    ∃ s, Reach (Learning.step fourMore (wireEnv 0) ownId)
        (fun s a s' => s.cluster.Steady a s'.cluster ∧ s.cluster.Trains {0, 1} a ∧
          s.Pushes fourMore a) (.init (.init (single 0) 1 0) oneAndThree 30) s ∧
      s.cluster.sys.store.weights = single (-8) ∧
      s.Follows fourMore {0, 1} ⟨.init (single 0) 1 0, oneAndThree⟩ := by
  obtain ⟨s, hreach, hw⟩ := Reach.of_script (Learning.step fourMore (wireEnv 0) ownId)
    (fun s a s' => s.cluster.Steady a s'.cluster ∧ s.cluster.Trains {0, 1} a ∧ s.Pushes fourMore a)
    (.init (.init (single 0) 1 0) oneAndThree 30) racesAhead
    (fun s a s' => steady s.cluster a s'.cluster && trains {0, 1} s.cluster a &&
      learns fourMore s a)
    (fun s a s' h => by
      simp only [Bool.and_eq_true_iff] at h
      exact ⟨steady_sound h.1.1, trains_sound h.1.2, learns_sound h.2⟩)
    (fun s : Learning ℚ ℚ => s.cluster.sys.store.weights = single (-8)) (by decide +kernel)
  exact ⟨s, hreach, hw, training_reproducible ownId_injective (wireEnv_lawful 0) (by decide)
    (WeightStore.aligned_init _ _ _) rfl hreach⟩

end DistributedRL
