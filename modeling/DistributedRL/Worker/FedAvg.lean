import DistributedRL.Worker.LocalUpdate
import DistributedRL.Worker.Members
import DistributedRL.Worker.Updates

/-!
# Federated averaging

Sequential federated averaging lets every member train from the same weights and then averages the
results. In synchronous mode, with a server learning rate of one and no momentum, this is what the
server's store goes through, whatever the interleaving of its threads.
-/

namespace DistributedRL

/-! ### The sequential algorithm -/

/-- The weights after some rounds, and the number of the last of them. -/
structure FedAvg (𝕂 : Type*) where
  weights : Weights 𝕂
  step : ℕ

namespace FedAvg

variable {𝕂 : Type*} [Field 𝕂]

/-- A round in which member `d` ends up with the weights `locals d`. -/
def round (members : Finset ConnId) (m : FedAvg 𝕂) (locals : ConnId → Weights 𝕂) :
    Option (FedAvg 𝕂) :=
  some ⟨m.weights.mean members locals, m.step + 1⟩

/-- Training keeps the layout of the weights. -/
def Trained (members : Finset ConnId) (m : FedAvg 𝕂) (locals : ConnId → Weights 𝕂)
    (_ : FedAvg 𝕂) : Prop :=
  ∀ d ∈ members, SameShapes (locals d) m.weights

end FedAvg

/-- What the sequential algorithm sees of a store. -/
def WeightStore.fedAvg {𝕂 : Type*} (st : WeightStore 𝕂) : FedAvg 𝕂 := ⟨st.weights, st.globalStep⟩

/-! ### Rounds of both algorithms -/

variable {𝕂 : Type*} [Field 𝕂]

/-- The round `x` has one delta of each member, computed from the weights of the store before the
round, which the member held when it pushed; it leaves the mean of the members' weights. -/
structure Cluster.FedAvgRound (s : Cluster 𝕂) (members : Finset ConnId) (x : Applied 𝕂)
    (locals : ConnId → Weights 𝕂) : Prop where
  conns : (x.deltas.map Delta.conn).Perm members.toList
  base : ∀ δ ∈ x.deltas, (δ.seq, some x.before.weights) ∈ (s.clients δ.conn).bases
  trained : ∀ d ∈ members, SameShapes (locals d) x.before.weights
  deltas : ∀ δ ∈ x.deltas, ∃ g, δ.grads = .dict g ∧
    weightDelta x.before.weights (locals δ.conn) = .ok g
  mean : x.after.weights = x.before.weights.mean members locals

/-- The rounds of the list, newest first, lead from the store `st` to the store `now`. Round `k`
starts from the store that round `k - 1` has left, and leaves the step that `st` is at plus `k`. -/
def Cluster.Rounds (s : Cluster 𝕂) (members : Finset ConnId) (st : WeightStore 𝕂) :
    List (Applied 𝕂) → WeightStore 𝕂 → Prop
  | [], now => now = st
  | x :: xs, now => now = x.after ∧ x.after.globalStep = st.globalStep + (xs.length + 1) ∧
    (∃ locals, s.FedAvgRound members x locals) ∧ s.Rounds members st xs x.before

/-- The thread can take a step: it does not wait for anybody. -/
def System.CanGo (env : ServerEnv 𝕂) (s : System 𝕂) (t : ConnId) : Prop :=
  (∀ now, (s.step env (.run t now)).isSome) ∨ ∃ n, (s.step env (.write t n)).isSome

/-- The store is that of sequential federated averaging, round by round; and every push of a round
is acknowledged once, with the step of its own round. -/
structure Cluster.RefinesFedAvg (env : ServerEnv 𝕂) (members : Finset ConnId)
    (st : WeightStore 𝕂) (s : Cluster 𝕂) : Prop where
  sequential : Reach (FedAvg.round members) (FedAvg.Trained members) st.fedAvg s.sys.store.fedAvg
  rounds : s.Rounds members st s.sys.history.applied s.sys.store
  acked : ∀ y ∈ s.sys.history.acked, ∃ x ∈ s.sys.history.applied, y.deltas = x.deltas ∧
    (∃ δ ∈ x.deltas, δ.conn = y.conn) ∧ y.step = x.after.globalStep
  once : s.sys.acknowledged.Nodup
  every : ∀ x ∈ s.sys.history.applied, ∀ δ ∈ x.deltas, δ.id ∈ s.sys.acknowledged ∨
    ∃ t r, (s.sys.conns t).handler.acking = some r ∧ δ.conn ∈ (s.sys.conns t).handler.owed ∧
      δ.id ∈ r.deltas.map Delta.id ∧ s.sys.CanGo env t
  read : ∀ d n k, (n, k) ∈ (s.clients d).acks → ∃ x ∈ s.sys.history.applied,
    (d, n) ∈ x.deltas.map Delta.id ∧ k = x.after.globalStep

/-! ### The invariant -/

namespace Cluster

variable {env : ServerEnv 𝕂} {ids : ConnId → WorkerId} {s s' : Cluster 𝕂} {a : ClusterAction 𝕂}
  {members : Finset ConnId} {st : WeightStore 𝕂} {d t : ConnId} {r : Round 𝕂}

/-- What a worker held at its past requests is not forgotten. -/
lemma bases_step (hstep : s.step env ids a = some s') {p : ℕ × Option (Weights 𝕂)}
    (h : p ∈ (s.clients d).bases) : p ∈ (s'.clients d).bases := by
  cases rule_of_step hstep with
  | @connect c sys hp hs =>
    by_cases hdc : d = c
    · subst hdc
      simpa using h
    · simpa [hdc] using h
  | @request c q sys hp hl hs =>
    by_cases hdc : d = c
    · subst hdc
      simp [Client.call, h]
    · simpa [hdc] using h
  | @receive c q payload rest hp hl hf =>
    by_cases hdc : d = c
    · subst hdc
      simp only [clients_setClient, if_true, decode]
      split
      · next resp _ => cases q <;> cases resp <;> exact h
      · exact h
    · simpa [hdc] using h
  | @leave c sys hp hs =>
    by_cases hdc : d = c
    · subst hdc
      simpa using h
    · simpa [hdc] using h
  | server hi hs => exact h

lemma Rounds.step (hstep : s.step env ids a = some s') :
    ∀ {xs : List (Applied 𝕂)} {now : WeightStore 𝕂}, s.Rounds members st xs now →
      s'.Rounds members st xs now
  | [], _, h => h
  | _ :: _, _, ⟨hnow, hk, ⟨locals, hround⟩, hrest⟩ =>
    ⟨hnow, hk, ⟨locals, { hround with
      base := fun δ hδ => bases_step hstep (hround.base δ hδ) }⟩, Rounds.step hstep hrest⟩

/-- The rounds are a run of the sequential algorithm. -/
lemma Rounds.sequential : ∀ {xs : List (Applied 𝕂)} {now : WeightStore 𝕂},
    s.Rounds members st xs now → now.globalStep = st.globalStep + xs.length ∧
      Reach (FedAvg.round members) (FedAvg.Trained members) st.fedAvg now.fedAvg
  | [], _, rfl => ⟨rfl, .refl⟩
  | x :: xs, now, ⟨hnow, hk, ⟨locals, hround⟩, hrest⟩ => by
    obtain ⟨hstep, hreach⟩ := Rounds.sequential hrest
    subst hnow
    refine ⟨hk, hreach.tail ?_ hround.trained⟩
    rw [FedAvg.round, WeightStore.fedAvg, WeightStore.fedAvg, hround.mean, hk, hstep]
    rfl

lemma Rounds.member : ∀ {xs : List (Applied 𝕂)} {now : WeightStore 𝕂},
    s.Rounds members st xs now → ∀ x ∈ xs, ∀ δ ∈ x.deltas, δ.conn ∈ members
  | x :: xs, _, ⟨_, _, ⟨_, hround⟩, hrest⟩, y, hy, δ, hδ => by
    rcases List.mem_cons.mp hy with rfl | hy
    · exact Finset.mem_toList.mp (hround.conns.subset (List.mem_map_of_mem hδ))
    · exact Rounds.member hrest y hy δ hδ

/-- The store is that of the rounds so far, and every thread that acknowledges a round has the step
that the round has left. -/
structure RoundInv (members : Finset ConnId) (st : WeightStore 𝕂) (s : Cluster 𝕂) : Prop where
  rounds : s.Rounds members st s.sys.history.applied s.sys.store
  aligned : s.sys.store.Aligned
  baseLr : s.sys.store.baseLr = 1
  momentum : s.sys.store.momentum = 0
  getStep : ∀ t r, (s.sys.conns t).handler = .getStep r →
    ∃ x xs, s.sys.history.applied = x :: xs ∧ x.deltas = r.deltas
  acks : ∀ t r step todo rest, (s.sys.conns t).handler = .acks r step todo rest →
    ∃ x ∈ s.sys.history.applied, r.deltas = x.deltas ∧ step = x.after.globalStep
  acked : ∀ y ∈ s.sys.history.acked,
    ∃ x ∈ s.sys.history.applied, y.deltas = x.deltas ∧ y.step = x.after.globalStep

lemma roundInv_init (hst : st.Aligned) (hlr : st.baseLr = 1) (hmom : st.momentum = 0)
    (timeout : ℚ) : (init st timeout).RoundInv members st where
  rounds := rfl
  aligned := hst
  baseLr := hlr
  momentum := hmom
  getStep _ _ h := by cases h
  acks _ _ _ _ _ h := by cases h
  acked _ h := by cases h

/-- The deltas of a round that is about to be applied are those of the members, one of each. -/
lemma Synchronous.perm (h : s.Synchronous env ids) (hg : s.GroupInv members)
    (hh : (s.sys.conns t).handler = .apply r) :
    (r.deltas.map Delta.conn).Perm members.toList := by
  refine (List.perm_ext_iff_of_nodup (h.tracked.deltas.pending_nodup t r hh)
    members.nodup_toList).mpr ?_
  intro d
  rw [Finset.mem_toList]
  constructor
  · intro hd
    obtain ⟨δ, hδ, rfl⟩ := List.mem_map.mp hd
    obtain ⟨-, -, step, g, hp, -⟩ := h.tracked.pushes.pending t r hh δ hδ
    exact hg.present _ (by rw [hp]; simp)
  · intro hd
    obtain ⟨δ, hδ, rfl⟩ := h.tracked.pushes.complete t r hh d (hg.full t r hh d hd)
    exact List.mem_map_of_mem hδ

/-- The members have trained the deltas of such a round from the weights of the store. -/
lemma Synchronous.trained (h : s.Synchronous env ids) (hg : s.GroupInv members)
    (hh : (s.sys.conns t).handler = .apply r) :
    ∃ locals : ConnId → Weights 𝕂,
      (∀ d ∈ members, SameShapes (locals d) s.sys.store.weights) ∧ ∀ δ ∈ r.deltas,
        (δ.seq, some s.sys.store.weights) ∈ (s.clients δ.conn).bases ∧
          ∃ g, δ.grads = .dict g ∧ weightDelta s.sys.store.weights (locals δ.conn) = .ok g := by
  have hmodel : ∀ d, ∃ model : Weights 𝕂, d ∈ members →
      SameShapes model s.sys.store.weights ∧ ∀ δ ∈ r.deltas, δ.conn = d →
        ∃ g, δ.grads = .dict g ∧ weightDelta s.sys.store.weights model = .ok g := by
    intro d
    by_cases hd : d ∈ members
    · obtain ⟨δ, hδ, rfl⟩ := List.mem_map.mp
        ((h.perm hg hh).mem_iff.mpr (Finset.mem_toList.mpr hd))
      obtain ⟨-, hid, step, g, hp, hgrads⟩ := h.tracked.pushes.pending t r hh δ hδ
      obtain ⟨-, w, model, hbase, hshapes, hdelta⟩ := hg.pushed δ.conn step g hp
      obtain rfl : w = s.sys.store.weights := by
        refine (h.fresh.base δ.conn w hbase).resolve_right ?_
        rintro ⟨-, -, -, hnp⟩
        exact hnp t ⟨r, hh, hid ▸ List.mem_map_of_mem hδ⟩
      refine ⟨model, fun _ => ⟨hshapes, ?_⟩⟩
      intro ε hε hconn
      obtain rfl : ε = δ :=
        List.inj_on_of_nodup_map (h.tracked.deltas.pending_nodup t r hh) hε hδ hconn
      exact ⟨g, hgrads, hdelta⟩
    · exact ⟨∅, fun h => absurd h hd⟩
  choose locals hlocals using hmodel
  refine ⟨locals, fun d hd => (hlocals d hd).1, fun δ hδ => ⟨(h.computedFrom hh hδ).1, ?_⟩⟩
  have hd : δ.conn ∈ members :=
    Finset.mem_toList.mp ((h.perm hg hh).subset (List.mem_map_of_mem hδ))
  exact (hlocals _ hd).2 δ hδ rfl

variable [CharZero 𝕂]

/-- A round that is about to be applied goes through, and leaves the mean. -/
lemma RoundInv.applies (hi : s.RoundInv members st) (h : s.Synchronous env ids)
    (hg : s.GroupInv members) (hh : (s.sys.conns t).handler = .apply r) :
    ∃ now, s.sys.store.applyGradients (r.deltas.map Delta.grads) = (now, .ok ()) ∧
      now.globalStep = s.sys.store.globalStep + 1 ∧
      ∃ locals, s.FedAvgRound members ⟨r.deltas, s.sys.store, now⟩ locals := by
  obtain ⟨locals, hshapes, htrained⟩ := h.trained hg hh
  obtain ⟨δ, hδ, -⟩ := h.tracked.deltas.pending_own t r hh
  have hperm := h.perm hg hh
  have hdeltas : ∀ δ ∈ r.deltas, ∃ g, δ.grads = .dict g ∧
      weightDelta s.sys.store.weights (locals δ.conn) = .ok g := fun δ hδ => (htrained δ hδ).2
  obtain ⟨now, hok, hmean, hstep⟩ := WeightStore.applyGradients_mean hi.aligned hi.baseLr
    hi.momentum (List.ne_nil_of_mem hδ) hperm hdeltas
    fun δ hδ => hshapes _ (Finset.mem_toList.mp (hperm.subset (List.mem_map_of_mem hδ)))
  exact ⟨now, hok, hstep, locals, hperm, fun δ hδ => (htrained δ hδ).1, hshapes, hdeltas, hmean⟩

lemma RoundInv.step (hi : s.RoundInv members st) (h : s.Synchronous env ids)
    (hg : s.GroupInv members) (hk : s.Covers env a) (hstep : s.step env ids a = some s') :
    s'.RoundInv members st := by
  rcases rule_of_sys hstep hk with he | ⟨b, hr, -, -⟩
  · have hrounds := hi.rounds.step hstep
    refine ⟨?_, ?_, ?_, ?_, ?_, ?_, ?_⟩ <;> rw [he]
    exacts [hrounds, hi.aligned, hi.baseLr, hi.momentum, hi.getStep, hi.acks, hi.acked]
  have hround := hr.round_of fun t r hh => (hi.applies h hg hh).imp fun _ hnow => hnow.1
  have hlater : ∀ {deltas : List (Delta 𝕂)} {step : ℕ},
      (∃ x ∈ s.sys.history.applied, deltas = x.deltas ∧ step = x.after.globalStep) →
      ∃ x ∈ s'.sys.history.applied, deltas = x.deltas ∧ step = x.after.globalStep :=
    fun ⟨x, hx, hrest⟩ => ⟨x, hr.mem_applied hx, hrest⟩
  have hspec := fun grads => WeightStore.applyGradients_spec grads hi.aligned
  have hkeep : s'.sys.store.Aligned ∧ s'.sys.store.baseLr = 1 ∧ s'.sys.store.momentum = 0 := by
    rcases hround with ⟨hs, -⟩ | ⟨t, r, happ⟩
    · rw [hs]
      exact ⟨hi.aligned, hi.baseLr, hi.momentum⟩
    · obtain ⟨hal, -, hlr, hmom⟩ := hspec (r.deltas.map Delta.grads)
      rw [happ.apply] at hal hlr hmom
      exact ⟨hal, hlr.trans hi.baseLr, hmom.trans hi.momentum⟩
  obtain ⟨haligned, hlr, hmom⟩ := hkeep
  refine {
    rounds := ?rounds
    aligned := haligned
    baseLr := hlr
    momentum := hmom
    getStep := ?getStep
    acks := ?acks
    acked := ?acked }
  case rounds =>
    rcases hround with ⟨hs, he⟩ | ⟨t, r, happ⟩
    · rw [hs, he]
      exact hi.rounds.step hstep
    · obtain ⟨now, hok, hnow, locals, hfed⟩ := hi.applies h hg happ.handler
      obtain rfl : s'.sys.store = now := congrArg Prod.fst (happ.apply.symm.trans hok)
      rw [happ.history]
      refine ⟨rfl, ?_, ⟨locals, { hfed with
        base := fun δ hδ => bases_step hstep (hfed.base δ hδ) }⟩, hi.rounds.step hstep⟩
      rw [hnow, hi.rounds.sequential.1, Nat.add_assoc]
  case getStep =>
    intro t r hh
    rcases hr.getStep_of hh with hold | happ
    · rcases hround with ⟨-, he⟩ | ⟨u, r', happ⟩
      · rw [he]
        exact hi.getStep t r hold
      · -- only the thread that is in a round applies one
        obtain rfl := hg.single t u (by rw [hold]; rfl) (by rw [happ.handler]; rfl)
        rw [happ.handler] at hold
        cases hold
    · exact ⟨_, _, congrArg History.applied happ.history, rfl⟩
  case acks =>
    intro t r step todo rest hh
    rcases hr.acks_of hh with ⟨todo', rest', hold⟩ | ⟨hold, rfl⟩
    · exact hlater (hi.acks t r step todo' rest' hold)
    · obtain ⟨x, xs, hx, hdeltas⟩ := hi.getStep t r hold
      have hrounds := hi.rounds
      rw [hx] at hrounds
      exact hlater ⟨x, by rw [hx]; exact List.mem_cons_self, hdeltas.symm,
        congrArg WeightStore.globalStep hrounds.1⟩
  case acked =>
    intro y hy
    rcases hr.acked_of with he | ⟨t, r, step, e, todo, rest, hack⟩
    · exact hlater (hi.acked y (he ▸ hy))
    · rw [hack.acked] at hy
      rcases List.mem_cons.mp hy with rfl | hy
      · exact hlater (hi.acks t r step _ rest hack.handler)
      · exact hlater (hi.acked y hy)

omit [CharZero 𝕂] in
/-- A thread that acknowledges a round does not wait for anybody. -/
lemma Synchronous.canGo (h : s.Synchronous env ids) (hg : s.GroupInv members)
    (hr : (s.sys.conns t).handler.acking = some r) (hd : d ∈ (s.sys.conns t).handler.owed) :
    s.sys.CanGo env t := by
  cases hh : (s.sys.conns t).handler <;> rw [hh] at hr <;> cases hr
  case getStep => exact Or.inl fun now => by simp [System.step, System.advance, hh]
  case acks step todo rest =>
    rw [hh] at hd
    obtain ⟨e, todo, rfl⟩ := List.exists_cons_of_ne_nil (List.ne_nil_of_mem hd)
    have he : e ∈ s.sys.agg.sockets.values :=
      h.tracked.registered_of_owed hg (t := t) (by rw [hh]; simp [Handler.owed])
    have hw : s.sys.Writable e :=
      ⟨hg.reset e, fun hdone => h.tracked.sound.not_broken h.steady he (Or.inr hdone)⟩
    exact Or.inr ⟨rest.length, by simp [System.step, System.write, hh, hw]⟩

end Cluster

open Cluster

variable [CharZero 𝕂] {env : ServerEnv 𝕂} {ids : ConnId → WorkerId} {s : Cluster 𝕂}

/-- In synchronous mode, with a server learning rate of one, no momentum and exact arithmetic, and
whatever the interleaving. -/
theorem refines_fedAvg {members : Finset ConnId} {st : WeightStore 𝕂} {timeout : ℚ}
    (hids : Function.Injective ids) (hp : env.pickle.Lawful)
    (hsync : GradientAggregator.minReady env.config ≤ 0) (hst : st.Aligned) (hlr : st.baseLr = 1)
    (hmom : st.momentum = 0)
    (h : Reach (Cluster.step env ids)
      (fun s a s' => s.Steady a s' ∧ s.Trains members a ∧ s.AckFits env a) (.init st timeout) s) :
    s.RefinesFedAvg env members st := by
  have hgroup : ∀ {s}, Reach (Cluster.step env ids)
      (fun s a s' => s.Steady a s' ∧ s.Trains members a ∧ s.AckFits env a) (.init st timeout) s →
      s.Synchronous env ids ∧ s.GroupInv members :=
    fun h => group_of_reach hids hp hsync h fun hk => ⟨hk.1, hk.2.1⟩
  have hinv : s.RoundInv members st := by
    refine h.invariant_reach (P := fun s => s.RoundInv members st)
      (roundInv_init hst hlr hmom timeout) ?_
    intro t a t' hr hi hstep _
    obtain ⟨hs, hg⟩ := hgroup hr
    exact hi.step hs hg (covers_of_sync hsync hs.steady _) hstep
  have hcovered : Reach (Cluster.step env ids) (fun s a _ => s.Covers env a ∧ s.AckFits env a)
      (.init st timeout) s :=
    h.mono_of hgroup fun hs _ hk => ⟨covers_of_sync hsync hs.1.steady _, hk.2.2⟩
  have haccounted := accounted_of_reach hids hp hcovered id
  obtain ⟨hs, hg⟩ := hgroup h
  refine ⟨hinv.rounds.sequential.2, hinv.rounds, ?_, hs.tracked.acks.nodup, ?_, ?_⟩
  · intro y hy
    obtain ⟨x, hx, hdeltas, hstep⟩ := hinv.acked y hy
    exact ⟨x, hx, hdeltas, hdeltas ▸ hs.tracked.acks.own y hy, hstep⟩
  · intro x hx δ hδ
    have hmem := hinv.rounds.member x hx δ hδ
    have hreg := hg.begun (List.ne_nil_of_mem hx) _ hmem
    rcases haccounted δ.id (System.mem_averaged.mpr ⟨x, hx, List.mem_map_of_mem hδ⟩) with
      hack | ⟨t, r, hr, ho, hi⟩ | hbroken
    · exact Or.inl hack
    · exact Or.inr ⟨t, r, hr, ho, hi, hs.canGo hg hr ho⟩
    · exact absurd hbroken (hs.tracked.sound.not_broken hs.steady hreg)
  · intro d n k hk
    obtain ⟨y, hy, hid, rfl⟩ := hs.tracked.reads.read d n k hk
    obtain ⟨x, hx, hdeltas, hstep⟩ := hinv.acked y hy
    exact ⟨x, hx, hdeltas ▸ (Acked.mem_ids.mp hid).2, hstep⟩

/-! ### A run -/

namespace Scenario

/-- Two workers train for two rounds. Worker `0` has read its ACK of the first round, pulled and
pushed again before worker `1` is sent its own. -/
def racesAhead : List (ClusterAction ℚ) :=
  pulls 0 0 ++ pulls 1 0 ++ calls 0 (push 1) ++ runs 0 1 ++ calls 1 (push 3) ++ runs 1 3 ++
    sends 1 0 (.ack 1) ++ calls 0 .pullWeights ++ runs 0 1 ++
    sends 0 0 (.weightsResponse (single (-2))) ++ calls 0 (push 5) ++ runs 0 1 ++
    sends 1 1 (.ack 1) ++ runs 1 2 ++ calls 1 .pullWeights ++ runs 1 1 ++
    sends 1 1 (.weightsResponse (single (-2))) ++ calls 1 (push 7) ++ runs 1 3 ++
    sends 1 0 (.ack 2) ++ sends 1 1 (.ack 2)

/-- A check that implies `SameShapes`. -/
def sameShapes (w w' : Weights ℚ) : Bool :=
  w.mapValues (fun _ => NDArray.shape) = w'.mapValues fun _ => NDArray.shape

lemma sameShapes_sound {w w' : Weights ℚ} (h : sameShapes w w' = true) : SameShapes w w' := by
  intro name
  rw [← Dict.get?_mapValues (fun _ => NDArray.shape), of_decide_eq_true h, Dict.get?_mapValues]

/-- A check that implies `Trains`: the model is the base less the delta. -/
def trains (members : Finset ConnId) (s : Cluster ℚ) : ClusterAction ℚ → Bool
  | .connect c => decide (c ∈ members)
  | .request c (.pushGradients _ g) =>
    decide (∀ d ∈ members, d ∈ s.sys.agg.sockets.values) && (s.clients c).base.any fun w =>
      (weightDelta w g).toOption.any fun model =>
        sameShapes model w && (weightDelta w model).toOption = some g
  | _ => true

lemma trains_sound {members : Finset ConnId} {s : Cluster ℚ} {a : ClusterAction ℚ}
    (h : trains members s a = true) : s.Trains members a := by
  cases a with
  | connect c =>
    have hc : c ∈ members := of_decide_eq_true h
    exact hc
  | request c q =>
    cases q with
    | pushGradients step g =>
      obtain ⟨hgather, h⟩ := Bool.and_eq_true_iff.mp h
      obtain ⟨w, hw, h⟩ := (Option.any_eq_true _ _).mp h
      obtain ⟨model, -, h⟩ := (Option.any_eq_true _ _).mp h
      obtain ⟨hshapes, h⟩ := Bool.and_eq_true_iff.mp h
      have hmem : ∀ d ∈ members, d ∈ s.sys.agg.sockets.values := of_decide_eq_true hgather
      refine ⟨hmem, w, model, hw, sameShapes_sound hshapes, ?_⟩
      cases hd : weightDelta w model with
      | ok d => simpa [hd, Except.toOption] using h
      | error e => simp [hd, Except.toOption] at h
    | _ => trivial
  | _ => trivial

end Scenario

open Scenario

/-- After two rounds, with deltas of `1` and `3`, then `5` and `7`. -/
theorem refines_fedAvg_racesAhead :
    ∃ s, Reach (Cluster.step (wireEnv 0) ownId)
        (fun s a s' => s.Steady a s' ∧ s.Trains {0, 1} a ∧ s.AckFits (wireEnv 0) a) idle s ∧
      s.sys.store.weights = single (-8) ∧ (s.clients 0).acks = [(4, 2), (2, 1)] ∧
      (s.clients 1).acks = [(4, 2), (2, 1)] ∧
      s.RefinesFedAvg (wireEnv 0) {0, 1} (.init (single 0) 1 0) := by
  obtain ⟨s, hreach, hw, h0, h1⟩ := Reach.of_script (Cluster.step (wireEnv 0) ownId)
    (fun s a s' => s.Steady a s' ∧ s.Trains {0, 1} a ∧ s.AckFits (wireEnv 0) a) idle racesAhead
    (fun s a s' => steady s a s' && trains {0, 1} s a && decide (s.AckFits (wireEnv 0) a))
    (fun s a s' h => by
      simp only [Bool.and_eq_true_iff] at h
      exact ⟨steady_sound h.1.1, trains_sound h.1.2, of_decide_eq_true h.2⟩)
    (fun s : Cluster ℚ => s.sys.store.weights = single (-8) ∧
      (s.clients 0).acks = [(4, 2), (2, 1)] ∧ (s.clients 1).acks = [(4, 2), (2, 1)])
    (by decide +kernel)
  exact ⟨s, hreach, hw, h0, h1, refines_fedAvg ownId_injective (wireEnv_lawful 0) (by decide)
    (WeightStore.aligned_init _ _ _) rfl rfl hreach⟩

end DistributedRL
