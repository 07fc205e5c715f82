import DistributedRL.Server.AllOrNothing
import DistributedRL.Server.Average
import DistributedRL.Server.Deltas
import DistributedRL.Server.Registry
import DistributedRL.Server.Submit

/-!
# Malformed deltas

Nothing looks at a delta before its round is applied. The round has then been taken out of the
buffer, the exception is raised in whichever thread completed it, and only `ConnectionClosed` and
`OSError` are caught there. So one bad delta costs the others of its round theirs, and the thread
that happened to come last its connection. Where broadcasting lets the call return, the bad delta is
averaged with the others.
-/

namespace DistributedRL

variable {α : Type*}

/-! ### The harm of a delta -/

/-- The delta is no dict, lacks a parameter, or has an array of another shape for one. -/
def WeightStore.Malformed (st : WeightStore α) (g : Payload α) : Prop :=
  ¬ WellShaped st.weights g

instance (st : WeightStore α) (g : Payload α) : Decidable (st.Malformed g) :=
  inferInstanceAs (Decidable (¬ _))

/-- What is pushed in the well-formed ones among some deltas. -/
def WeightStore.wellFormed (st : WeightStore α) (deltas : List (Delta α)) : List (Payload α) :=
  (deltas.filter fun δ => ¬ st.Malformed δ.grads).map Delta.grads

namespace System

/-- The delta has been applied, and the ACK for it has been sent or is about to be. -/
def Served (s : System α) (δ : Delta α) : Prop :=
  (∃ x ∈ s.history.applied, δ ∈ x.deltas) ∧
    ((∃ x ∈ s.history.acked, x.conn = δ.conn ∧ δ ∈ x.deltas) ∨
      ∃ t r, δ ∈ r.deltas ∧
        ((s.conns t).handler = .getStep r ∧ δ.conn ∈ r.sockets.values ∨
          ∃ step todo rest, (s.conns t).handler = .acks r step todo rest ∧ δ.conn ∈ todo))

/-- The state `s'` after the application of the round `r` shows no harm of its malformed delta `δ`
beyond the worker that pushed it. -/
structure Contained [Scalar α] (s : System α) (r : Round α) (δ : Delta α) (s' : System α) :
    Prop where
  store : s'.store = s.store ∨
    s.store.applyGradients (s.store.wellFormed r.deltas) = (s'.store, .ok ())
  others : ∀ ε ∈ r.deltas, ε.conn ≠ δ.conn →
    (∃ w, s'.agg.buffer.get? w = some ε) ∨ s'.Served ε
  threads : ∀ d ≠ δ.conn, (s.conns d).handler.InLoop → (s'.conns d).handler.InLoop
  status : ∀ w, (s.conns δ.conn).workerId ≠ some w →
    s.hb.status.get? w = some .alive → s'.hb.status.get? w = some .alive

end System

variable [Scalar α]

/-! ### The call -/

namespace WeightStore

variable {st st' : WeightStore α} {grads grads' : List (Payload α)} {g : Payload α}
  {name : String}

/-- A parameter whose velocity exists gets its new weight. -/
lemma fails_iff (h : st.Aligned) (hmem : name ∈ st.weights.keys) :
    st.Fails grads name ↔ st.velocity grads name = none := by
  refine ⟨fun hf => ?_, fun hv => by rw [Fails, hv, Option.bind_none]⟩
  obtain ⟨w, hw⟩ := Dict.mem_keys_iff.mp hmem
  obtain ⟨b, hb, hs⟩ := h.exists_buffer hw
  by_contra hne
  obtain ⟨v, hv⟩ := Option.ne_none_iff_exists'.mp hne
  rw [Fails, hv, Option.bind_some, moved, hw, Option.bind_some, NDArray.binop_eq_none_iff] at hf
  simp only [velocity, hb, Option.bind_some, Option.bind_eq_some_iff] at hv
  obtain ⟨avg, -, hv⟩ := hv
  have hvs : broadcastShape b.shape avg.shape = some v.shape := by
    simpa using NDArray.shape_binop hv
  rw [NDArray.shape_map, ← hs, broadcastShape_absorb hvs] at hf
  cases hf

/-- A call returns where every parameter has a velocity. -/
lemma exists_applyGradients_iff (h : st.Aligned) :
    (∃ st', st.applyGradients grads = (st', .ok ())) ↔
      ∀ n ∈ st.weights.keys, ∃ v, st.velocity grads n = some v := by
  have hraises : st.Raises grads ↔ ∃ n ∈ st.weights.keys, st.velocity grads n = none := by
    rw [raises_iff]
    exact exists_congr fun n => and_congr_right fun hn => fails_iff h hn
  have hok : (∃ st', st.applyGradients grads = (st', .ok ())) ↔ ¬ st.Raises grads := by
    rw [Raises]
    obtain ⟨st₁, res⟩ := st.applyGradients grads
    cases res <;> simp
  rw [hok, hraises]
  push Not
  simp only [Option.ne_none_iff_exists']

/-- Two rounds that return leave the same store just if they have the same velocities. -/
lemma applyGradients_congr_iff (h : st.applyGradients grads = (st', .ok ())) :
    st.applyGradients grads' = (st', .ok ()) ↔
      ∀ n ∈ st.weights.keys, st.velocity grads' n = st.velocity grads n := by
  obtain ⟨st₁, hparams, rfl⟩ := applyGradients_ok_iff.mp h
  constructor
  · intro h' n hn
    obtain ⟨st₂, hparams', he⟩ := applyGradients_ok_iff.mp h'
    have hbuf : st₁.momentumBuffers = st₂.momentumBuffers := (WeightStore.mk.inj he).2.1
    obtain ⟨v, -, hv, -, hget, -⟩ :=
      applyParams_get? (fun n hn => hn) st.weights.nodup_keys hparams hn
    obtain ⟨v', -, hv', -, hget', -⟩ :=
      applyParams_get? (fun n hn => hn) st.weights.nodup_keys hparams' hn
    rw [hbuf, hget'] at hget
    rw [hv, hv', hget]
  · intro hv
    exact applyGradients_ok_iff.mpr ⟨st₁,
      applyParams_congr (fun n hn => hn) st.weights.nodup_keys hv hparams, rfl⟩

/-- Alone in a round, a delta makes the call raise just if a parameter rejects it. -/
lemma raises_single_iff (h : st.Aligned) : st.Raises [g] ↔ st.Rejects g := by
  constructor
  · intro hraises
    obtain ⟨n, hn, hfail⟩ := raises_iff.mp hraises
    refine ⟨n, hn, Bool.eq_false_iff.mpr fun hgood => ?_⟩
    obtain ⟨w, a, hw, ha⟩ := exists_of_accepts hgood
    obtain ⟨b, v, w', -, -, hok⟩ := applyParam_single h ha hw hgood
    obtain ⟨e, he, -⟩ := applyParam_of_fails hfail
    rw [hok] at he
    cases he
  · intro hrej
    obtain ⟨st', e, he⟩ := applyGradients_of_rejects h (List.mem_singleton_self g) hrej
    exact ⟨e, by rw [he]⟩

end WeightStore

lemma List.eq_singleton_of_nodup_map {β γ : Type*} {f : β → γ} {x : β} :
    ∀ {l : List β}, (l.map f).Nodup → x ∈ l → (∀ y ∈ l, f y = f x) → l = [x]
  | [y], _, hx, _ => by rw [List.mem_singleton.mp hx]
  | y :: z :: l, hn, _, h => by
    have hyz : f y = f z := (h y (by simp)).trans (h z (by simp)).symm
    simp [hyz] at hn

lemma List.eq_pair_of_map_eq {β γ : Type*} {f : β → γ} {l : List β} {x y : γ}
    (h : l.map f = [x, y]) : ∃ a b, l = [a, b] ∧ f a = x ∧ f b = y := by
  obtain ⟨a, l, rfl, ha, h⟩ := List.map_eq_cons_iff.mp h
  obtain ⟨b, l, rfl, hb, h⟩ := List.map_eq_cons_iff.mp h
  obtain rfl := List.map_eq_nil_iff.mp h
  exact ⟨a, b, rfl, ha, hb⟩

/-! ### The step -/

namespace System

variable {env : ServerEnv α} {s s' : System α} {t : ConnId} {r : Round α} {δ : Delta α}
  {now : ℚ}

lemma step_apply (env : ServerEnv α) (now : ℚ) (ht : (s.conns t).handler = .apply r) :
    s.step env (.run t now) = some (s.applyGradients t r) := by
  simp only [step, advance, ht]

/-- The round is applied, or it is lost: its thread leaves, and the store keeps what was assigned. -/
lemma applyGradients_cases (s : System α) (t : ConnId) (r : Round α) :
    (∃ st, s.store.applyGradients (r.deltas.map Delta.grads) = (st, .ok ()) ∧
      s.applyGradients t r =
        { s with store := st, history := s.history.apply r s.store st }.goto t (.getStep r)) ∨
    (s.store.Raises (r.deltas.map Delta.grads) ∧ s.applyGradients t r =
      { s with store := (s.store.applyGradients (r.deltas.map Delta.grads)).1 }.quit t) := by
  simp only [applyGradients, WeightStore.Raises]
  split
  · next st _ he => exact Or.inl ⟨st, he, rfl⟩
  · next st e he => exact Or.inr ⟨⟨e, by rw [he]⟩, by rw [he]⟩

omit [Scalar α] in
/-- A delta of a lost round is nowhere any more. -/
lemma DeltasInv.not_kept (hs : s.DeltasInv) (ht : (s.conns t).handler = .apply r)
    {ε : Delta α} (hε : ε ∈ r.deltas) (st : WeightStore α) :
    ¬ ((∃ w, ({ s with store := st }.quit t).agg.buffer.get? w = some ε) ∨
      ({ s with store := st }.quit t).Served ε) := by
  have hp : s.Pending t ε.id := ⟨r, ht, List.mem_map_of_mem hε⟩
  rintro (⟨w, hw⟩ | ⟨⟨x, hx, hεx⟩, -⟩)
  · exact hs.buffered_pending t ε.id ⟨w, ε, hw, rfl⟩ hp
  · exact hs.pending_averaged t ε.id hp
      (List.mem_flatMap.mpr ⟨x, hx, List.mem_map_of_mem hεx⟩)

/-- The store stays aligned in every run, also through rounds that raise. -/
lemma aligned_of_reach {ok : System α → Action α → System α → Prop} {st : WeightStore α}
    {timeout : ℚ} (hal : st.Aligned) (h : Reach (System.step env) ok (.init st timeout) s) :
    s.store.Aligned := by
  refine h.invariant (P := fun s => s.store.Aligned) hal ?_
  intro s a s' ih hstep _
  rcases (rule_of_step hstep).store_of with he | ⟨t, r, hst⟩
  · rwa [he]
  · rw [hst.store]
    exact (WeightStore.applyGradients_spec _ ih).1

/-- The rounds that threads finish, and those whose ACKs have been sent, have been applied. -/
structure OnRecord (s : System α) : Prop where
  finishing : ∀ t r, (s.conns t).handler.finishing = some r →
    ∃ x ∈ s.history.applied, x.deltas = r.deltas
  acked : ∀ y ∈ s.history.acked, ∃ x ∈ s.history.applied, x.deltas = y.deltas

lemma OnRecord.step (hs : s.OnRecord) {a : Action α} (hr : Rule env s a s') : s'.OnRecord where
  finishing t r hf := by
    rcases hr.finishing_of hf with hf | happ
    · obtain ⟨x, hx, he⟩ := hs.finishing t r hf
      exact ⟨x, hr.applied_mono hx, he⟩
    · refine ⟨⟨r.deltas, s.store, s'.store⟩, ?_, rfl⟩
      rw [happ.history]
      exact List.mem_cons_self
  acked y hy := by
    rcases hr.acked_of with he | ⟨t, r, k, e, todo, rest, hack⟩
    · obtain ⟨x, hx, hxy⟩ := hs.acked y (he ▸ hy)
      exact ⟨x, hr.applied_mono hx, hxy⟩
    · rw [hack.acked] at hy
      rcases List.mem_cons.mp hy with rfl | hy
      · obtain ⟨x, hx, hxr⟩ := hs.finishing t r (by rw [hack.handler]; rfl)
        exact ⟨x, hr.applied_mono hx, hxr⟩
      · obtain ⟨x, hx, hxy⟩ := hs.acked y hy
        exact ⟨x, hr.applied_mono hx, hxy⟩

lemma onRecord_of_reach {ok : System α → Action α → System α → Prop} {st : WeightStore α}
    {timeout : ℚ} (h : Reach (System.step env) ok (.init st timeout) s) : s.OnRecord := by
  refine h.invariant (P := System.OnRecord) ⟨fun _ _ h => ?_, fun _ h => ?_⟩ ?_
  · cases h
  · cases h
  · exact fun hs hstep _ => hs.step (rule_of_step hstep)

omit [Scalar α] in
/-- A delta of a round that is still to be applied is in no round that has been. -/
lemma DeltasInv.not_mem_applied (hs : s.DeltasInv) (ht : (s.conns t).handler = .apply r)
    {ε : Delta α} (hε : ε ∈ r.deltas) {x : Applied α} (hx : x ∈ s.history.applied) :
    ε ∉ x.deltas := by
  intro hεx
  exact hs.pending_averaged t ε.id ⟨r, ht, List.mem_map_of_mem hε⟩
    (List.mem_flatMap.mpr ⟨x, hx, List.mem_map_of_mem hεx⟩)

/-- The state after a call that returns. -/
lemma contained_applied_iff (hs : s.DeltasInv) (hset : s.OnRecord)
    (ht : (s.conns t).handler = .apply r) {st : WeightStore α}
    (hok : s.store.applyGradients (r.deltas.map Delta.grads) = (st, .ok ())) :
    s.Contained r δ ({ s with store := st, history := s.history.apply r s.store st }.goto t
      (.getStep r)) ↔
      s.store.applyGradients (s.store.wellFormed r.deltas) = (st, .ok ()) ∧
        ∀ ε ∈ r.deltas, ε.conn ≠ δ.conn → ε.conn ∈ r.sockets.values := by
  constructor
  · intro hc
    refine ⟨?_, fun ε hε hne => ?_⟩
    · rcases hc.store with heq | hwell
      · have hstep := WeightStore.globalStep_of_ok hok
        have heq : st = s.store := heq
        rw [heq] at hstep
        exact absurd hstep (Nat.succ_ne_self _).symm
      · exact hwell
    · have hnot := fun x hx => hs.not_mem_applied ht hε (x := x) hx
      rcases hc.others ε hε hne with ⟨w, hw⟩ | ⟨-, ⟨y, hy, -, hεy⟩ | ⟨u, r', hεr, hu⟩⟩
      · exact absurd ⟨r, ht, List.mem_map_of_mem hε⟩ (hs.buffered_pending t ε.id ⟨w, ε, hw, rfl⟩)
      · obtain ⟨x, hx, hxy⟩ := hset.acked y hy
        exact absurd (hxy ▸ hεy) (hnot x hx)
      · by_cases hut : u = t
        · subst hut
          rcases hu with ⟨hu, hsock⟩ | ⟨k, todo, rest, hu, -⟩
          · rw [handler_goto, if_pos rfl] at hu
            cases hu
            exact hsock
          · rw [handler_goto, if_pos rfl] at hu
            cases hu
        · -- another thread finishes a round that was applied before
          have hfin : (s.conns u).handler.finishing = some r' := by
            rcases hu with ⟨hu, -⟩ | ⟨k, todo, rest, hu, -⟩ <;>
            · rw [handler_goto, if_neg hut] at hu
              exact congrArg Handler.finishing hu
          obtain ⟨x, hx, hxr⟩ := hset.finishing u r' hfin
          exact absurd (hxr ▸ hεr) (hnot x hx)
  · rintro ⟨hwell, hsock⟩
    refine ⟨Or.inr hwell, fun ε hε hne => Or.inr ⟨⟨_, List.mem_cons_self, hε⟩, Or.inr
      ⟨t, r, hε, Or.inl ⟨?_, hsock ε hε hne⟩⟩⟩, fun d hd hl => ?_, fun _ _ h => h⟩
    · rw [handler_goto, if_pos rfl]
    · rw [handler_goto]
      split_ifs
      · rfl
      · exact hl

/-- The state after a call that raises. -/
lemma contained_lost_iff (hs : s.DeltasInv) (hal : s.store.Aligned)
    (ht : (s.conns t).handler = .apply r) (hδ : δ ∈ r.deltas) (hm : s.store.Malformed δ.grads)
    (hraises : s.store.Raises (r.deltas.map Delta.grads)) :
    s.Contained r δ
      ({ s with store := (s.store.applyGradients (r.deltas.map Delta.grads)).1 }.quit t) ↔
      r.deltas = [δ] ∧ s.store.Rejects δ.grads ∧
        ∀ n ∈ s.store.weights.keys.takeWhile (s.store.accepts δ.grads),
          s.store.Unmoved δ.grads n := by
  constructor
  · intro hc
    have hsingle : r.deltas = [δ] := by
      refine List.eq_singleton_of_nodup_map (hs.pending_nodup t r ht) hδ ?_
      intro ε hε
      by_contra hne
      exact hs.not_kept ht hε _ (hc.others ε hε hne)
    have hrej : s.store.Rejects δ.grads := by
      rw [hsingle] at hraises
      exact (WeightStore.raises_single_iff hal).mp hraises
    refine ⟨hsingle, hrej, (WeightStore.applyGradients_single_eq_iff hal hrej).mp ?_⟩
    rcases hc.store with heq | hwell
    · simpa [hsingle] using heq
    · -- without the malformed delta there is nothing to average
      exfalso
      have hnil : s.store.wellFormed r.deltas = [] := by
        simp [WeightStore.wellFormed, hsingle, hm]
      obtain ⟨name, hmem, -⟩ := hrej
      obtain ⟨v, hv⟩ := (WeightStore.exists_applyGradients_iff hal).mp ⟨_, hnil ▸ hwell⟩ name hmem
      cases hv
  · rintro ⟨hsingle, hrej, hunmoved⟩
    obtain ⟨ε, hε, hconn⟩ := hs.pending_own t r ht
    rw [hsingle, List.mem_singleton] at hε
    subst hε
    refine ⟨Or.inl ?_, ?_, ?_, fun _ _ h => h⟩
    · have := (WeightStore.applyGradients_single_eq_iff hal hrej).mpr hunmoved
      simpa [hsingle] using this
    · intro ε' hε' hne
      rw [hsingle, List.mem_singleton] at hε'
      exact absurd (congrArg Delta.conn hε') hne
    · intro d hd hl
      rw [hconn] at hd
      simpa [hd] using hl

end System

open DistributedRL.System in
/-- In every reachable state, whichever thread applies a round with a malformed delta, the harm is
contained exactly in two cases. Either the delta is alone in its round, a parameter rejects it, and
those before the first such one are unmoved by it. Or every parameter gets the same velocity from
the round as from its well-formed deltas, and the round has taken the sockets of the others along. -/
theorem malformed_contained_iff {env : ServerEnv α} {st : WeightStore α} {timeout : ℚ}
    {s s' : System α} {t : ConnId} {r : Round α} {δ : Delta α} {now : ℚ} (hal : st.Aligned)
    (h : Reach (System.step env) (fun _ _ _ => True) (.init st timeout) s)
    (ht : (s.conns t).handler = .apply r) (hδ : δ ∈ r.deltas)
    (hm : s.store.Malformed δ.grads) (hstep : s.step env (.run t now) = some s') :
    s.Contained r δ s' ↔
      (r.deltas = [δ] ∧ s.store.Rejects δ.grads ∧
        ∀ n ∈ s.store.weights.keys.takeWhile (s.store.accepts δ.grads),
          s.store.Unmoved δ.grads n) ∨
      ((∀ n ∈ s.store.weights.keys, ∃ v,
          s.store.velocity (r.deltas.map Delta.grads) n = some v ∧
          s.store.velocity (s.store.wellFormed r.deltas) n = some v) ∧
        ∀ ε ∈ r.deltas, ε.conn ≠ δ.conn → ε.conn ∈ r.sockets.values) := by
  have hinv := deltasInv_of_reach h
  have hstore := aligned_of_reach hal h
  rw [step_apply _ _ ht, Option.some.injEq] at hstep
  rcases s.applyGradients_cases t r with ⟨st', hok, he⟩ | ⟨hraises, he⟩
  · have hvel := (WeightStore.exists_applyGradients_iff hstore).mp ⟨st', hok⟩
    have hsame : s.store.applyGradients (s.store.wellFormed r.deltas) = (st', .ok ()) ↔
        ∀ n ∈ s.store.weights.keys, ∃ v,
          s.store.velocity (r.deltas.map Delta.grads) n = some v ∧
          s.store.velocity (s.store.wellFormed r.deltas) n = some v := by
      rw [WeightStore.applyGradients_congr_iff hok]
      refine forall₂_congr fun n hn => ?_
      obtain ⟨v, hv⟩ := hvel n hn
      simp [hv]
    rw [← hstep, he, contained_applied_iff hinv (onRecord_of_reach h) ht hok, hsame]
    refine ⟨Or.inr, ?_⟩
    rintro (⟨-, hrej, -⟩ | hcontained)
    · -- the call would have raised
      obtain ⟨st₁, e, hraise⟩ :=
        WeightStore.applyGradients_of_rejects hstore (List.mem_map_of_mem hδ) hrej
      cases hok.symm.trans hraise
    · exact hcontained
  · rw [← hstep, he, contained_lost_iff hinv hstore ht hδ hm hraises]
    refine ⟨Or.inl, ?_⟩
    rintro (hcontained | ⟨hvel, -⟩)
    · exact hcontained
    · -- the call would have returned
      obtain ⟨st', hok⟩ := (WeightStore.exists_applyGradients_iff hstore).mpr fun n hn =>
        (hvel n hn).imp fun _ h => h.1
      obtain ⟨e, hraise⟩ := hraises
      rw [hok] at hraise
      cases hraise

/-! ### Runs -/

namespace Scenario

/-- A push without the parameter. -/
def pushNothing : Request ℚ := .pushGradients 0 ∅

/-- A push whose array for the parameter has no axis. -/
def pushScalar (x : ℚ) : Request ℚ :=
  .pushGradients 0 ((∅ : Weights ℚ).set "w" ⟨[], [x], rfl⟩)

/-- Worker `1` makes a malformed push, worker `0` a good one, which completes the round. -/
def malformedFirst (q : Request ℚ) : List (Action ℚ) :=
  joins 0 ++ joins 1 ++ request 1 1 q ++ [.run 1 0] ++ request 0 0 (push 1) ++ [.run 0 0]

/-- Worker `1` makes a malformed push while it is alone. Before its round is applied, worker `0`
joins and pushes, and waits for worker `1`. -/
def malformedAlone : List (Action ℚ) :=
  joins 1 ++ request 1 1 pushNothing ++ [.run 1 0] ++ joins 0 ++ request 0 0 (push 1) ++ [.run 0 0]

/-- Worker `0` makes a good push, and worker `1` one whose array is broadcast in the sum. -/
def malformedLast : List (Action ℚ) :=
  joins 0 ++ joins 1 ++ request 0 0 (push 2) ++ [.run 0 0] ++ request 1 1 (pushScalar 2) ++
    [.run 1 0]

/-- The thread of `c` is about to apply a round that passes the check. -/
def applies (c : ConnId) (check : Round ℚ → Bool) (s : System ℚ) : Bool :=
  match (s.conns c).handler with
  | .apply r => check r
  | _ => false

lemma exists_round_of_applies {c : ConnId} {check : Round ℚ → Bool} {s : System ℚ}
    (h : applies c check s = true) : ∃ r, (s.conns c).handler = .apply r ∧ check r = true := by
  simp only [applies] at h
  split at h
  · next r hr => exact ⟨r, hr, h⟩
  · cases h

/-- The malformed delta `δ` of worker `1` costs worker `0`, whose thread applies the round, its own
delta and its connection. -/
structure Harms (s : System ℚ) (r : Round ℚ) (δ : Delta ℚ) (s' : System ℚ) : Prop where
  handler : (s.conns 0).handler = .apply r
  mem : δ ∈ r.deltas
  conn : δ.conn = 1
  malformed : s.store.Malformed δ.grads
  step : s.step syncEnv (.run 0 0) = some s'
  harm : ¬ s.Contained r δ s'
  leaving : (s'.conns 0).handler.Leaving

lemma harms_of_run (script : List (Action ℚ)) (check : WeightStore ℚ → Payload ℚ → Bool)
    (h : (runChecked (System.step syncEnv) (fun _ _ _ => true) start script).any (fun s =>
      decide (applies 0 (fun r => r.deltas.map Delta.conn = [1, 0] ∧ ∀ δ ∈ r.deltas, δ.conn = 1 →
          s.store.Malformed δ.grads ∧ check s.store δ.grads) s ∧
        (s.step syncEnv (.run 0 0)).any fun s' => (s'.conns 0).handler.Leaving)) = true) :
    ∃ s r δ s', Reach (System.step syncEnv) (fun _ _ _ => True) start s ∧ Harms s r δ s' ∧
      check s.store δ.grads = true := by
  obtain ⟨s, hreach, happ, hleave⟩ := Reach.of_script (System.step syncEnv) (fun _ _ _ => True)
    start script (fun _ _ _ => true) (fun _ _ _ _ => trivial) _ h
  obtain ⟨r, ht, hr⟩ := exists_round_of_applies happ
  obtain ⟨hconns, hall⟩ := of_decide_eq_true hr
  obtain ⟨δ, ε, hl, hδ, hε⟩ := List.eq_pair_of_map_eq hconns
  have hδr : δ ∈ r.deltas := by simp [hl]
  have hεr : ε ∈ r.deltas := by simp [hl]
  obtain ⟨s', hstep, hleave⟩ := (Option.any_eq_true _ _).mp hleave
  obtain ⟨hm, hcheck⟩ := hall δ hδr hδ
  refine ⟨s, r, δ, s', hreach, ⟨ht, hδr, hδ, hm, hstep, fun hc => ?_, hleave⟩, hcheck⟩
  rw [System.step_apply syncEnv 0 ht, Option.some.injEq] at hstep
  subst hstep
  rcases s.applyGradients_cases 0 r with ⟨st, -, he⟩ | ⟨-, he⟩
  · -- a thread that leaves has not applied the round
    rw [he, System.handler_goto, if_pos rfl] at hleave
    cases hleave
  · rw [he] at hc
    refine (System.deltasInv_of_reach hreach).not_kept ht hεr _ (hc.others ε hεr ?_)
    rw [hδ, hε]
    decide

end Scenario

open Scenario

/-- A delta without the parameter does such harm, and so does one that the parameter does not reject,
but the sum over the round. -/
theorem malformed_harms_other :
    (∃ s r δ s', Reach (System.step syncEnv) (fun _ _ _ => True) start s ∧ Harms s r δ s' ∧
      s.store.accepts δ.grads "w" = false) ∧
    ∃ s r δ s', Reach (System.step syncEnv) (fun _ _ _ => True) start s ∧ Harms s r δ s' ∧
      s.store.accepts δ.grads "w" = true := by
  constructor
  · obtain ⟨s, r, δ, s', hreach, hharm, hacc⟩ := harms_of_run (malformedFirst pushNothing)
      (fun st g => !st.accepts g "w") (by decide +kernel)
    exact ⟨s, r, δ, s', hreach, hharm, Bool.eq_false_of_not_eq_true' hacc⟩
  · exact harms_of_run (malformedFirst (pushScalar 1)) (fun st g => st.accepts g "w")
      (by decide +kernel)

/-- Harm is contained: worker `0` keeps the delta that it has pushed in the meantime, or has its own
delta `2` of the round applied, of which the average with the scalar `2` is no other. -/
theorem malformed_contained_beside :
    (∃ s r δ s', Reach (System.step syncEnv) (fun _ _ _ => True) start s ∧
      (s.conns 1).handler = .apply r ∧ δ ∈ r.deltas ∧ s.store.Malformed δ.grads ∧
      s.step syncEnv (.run 1 0) = some s' ∧ s.agg.buffer.keys = [0] ∧ s.Contained r δ s') ∧
    ∃ s r δ s', Reach (System.step syncEnv) (fun _ _ _ => True) start s ∧
      (s.conns 1).handler = .apply r ∧ δ ∈ r.deltas ∧ s.store.Malformed δ.grads ∧
      s.step syncEnv (.run 1 0) = some s' ∧ r.deltas.map Delta.conn = [0, 1] ∧
      s.Contained r δ s' := by
  constructor
  · obtain ⟨s, hreach, happ, hkeys, hbuf⟩ := Reach.of_script (System.step syncEnv)
      (fun _ _ _ => True) start malformedAlone (fun _ _ _ => true) (fun _ _ _ _ => trivial)
      (fun s : System ℚ => applies 1 (fun r => r.deltas.map Delta.conn = [1] ∧
          ∀ δ ∈ r.deltas, s.store.Malformed δ.grads ∧ s.store.accepts δ.grads "w" = false) s ∧
        s.store.weights.keys = ["w"] ∧ s.agg.buffer.keys = [0])
      (by decide +kernel)
    obtain ⟨r, ht, hr⟩ := exists_round_of_applies happ
    obtain ⟨hconns, hall⟩ := of_decide_eq_true hr
    obtain ⟨δ, l, hl, -, hrest⟩ := List.map_eq_cons_iff.mp hconns
    obtain rfl := List.map_eq_nil_iff.mp hrest
    have hδ : δ ∈ r.deltas := by rw [hl]; exact List.mem_cons_self
    obtain ⟨hm, hacc⟩ := hall δ hδ
    have hstep := System.step_apply syncEnv 0 ht
    refine ⟨s, r, δ, _, hreach, ht, hδ, hm, hstep, hbuf, ?_⟩
    refine (malformed_contained_iff (WeightStore.aligned_init _ _ _) hreach ht hδ hm hstep).mpr
      (Or.inl ⟨hl, ⟨"w", by rw [hkeys]; exact List.mem_singleton_self _, hacc⟩, ?_⟩)
    simp [hkeys, hacc]
  · obtain ⟨s, hreach, happ, hkeys⟩ := Reach.of_script (System.step syncEnv)
      (fun _ _ _ => True) start malformedLast (fun _ _ _ => true) (fun _ _ _ _ => trivial)
      (fun s : System ℚ => applies 1 (fun r => r.deltas.map Delta.conn = [0, 1] ∧
          (∀ δ ∈ r.deltas, δ.conn = 1 → s.store.Malformed δ.grads) ∧
          (∀ δ ∈ r.deltas, δ.conn ∈ r.sockets.values) ∧
          (s.store.velocity (r.deltas.map Delta.grads) "w").isSome ∧
          s.store.velocity (s.store.wellFormed r.deltas) "w" =
            s.store.velocity (r.deltas.map Delta.grads) "w") s ∧
        s.store.weights.keys = ["w"])
      (by decide +kernel)
    obtain ⟨r, ht, hr⟩ := exists_round_of_applies happ
    obtain ⟨hconns, hall, hsock, hsome, hsame⟩ := of_decide_eq_true hr
    obtain ⟨ε, δ, hl, -, hδ⟩ := List.eq_pair_of_map_eq hconns
    have hδr : δ ∈ r.deltas := by simp [hl]
    have hm := hall δ hδr hδ
    have hstep := System.step_apply syncEnv 0 ht
    refine ⟨s, r, δ, _, hreach, ht, hδr, hm, hstep, hconns, ?_⟩
    refine (malformed_contained_iff (WeightStore.aligned_init _ _ _) hreach ht hδr hm hstep).mpr
      (Or.inr ⟨fun n hn => ?_, fun ε hε _ => hsock ε hε⟩)
    rw [hkeys, List.mem_singleton] at hn
    obtain ⟨v, hv⟩ := Option.isSome_iff_exists.mp hsome
    exact ⟨v, hn ▸ hv, hn ▸ hsame.trans hv⟩

end DistributedRL
