import DistributedRL.Server.Rules
import DistributedRL.Server.Scenario
import DistributedRL.Server.Submit
import DistributedRL.Server.Versions

/-!
# The norms in the metrics

`submit` keeps a norm beside every delta, and a round takes both along. The metric of a round is
emitted much later, from the dict that the round has taken; whatever has been pushed, has failed or
has gone since, it shows the norms of the deltas that have been averaged. Where `_grad_norm` has
raised on a delta, which is in the buffer by then, an earlier norm of its worker may be left.
-/

namespace DistributedRL

variable {α : Type*} [Scalar α]

/-- Every delta of `ws` that has a norm has it in `norms`, which has no others. -/
structure Normed (sqrt : α → α) (ws : Dict WorkerId (Delta α)) (norms : Dict WorkerId α) :
    Prop where
  norm : ∀ w δ x, ws.get? w = some δ → gradNorm sqrt δ.grads = .ok x → norms.get? w = some x
  keys : ∀ w ∈ norms.keys, w ∈ ws.keys

variable {sqrt : α → α} {ws : Dict WorkerId (Delta α)} {norms : Dict WorkerId α} {w : WorkerId}
  {δ : Delta α} {x : α}

lemma Normed.empty (sqrt : α → α) : Normed sqrt (∅ : Dict WorkerId (Delta α)) ∅ where
  norm _ _ _ h := by cases h
  keys _ h := by cases h

lemma Normed.set (h : Normed sqrt ws norms) (hx : gradNorm sqrt δ.grads = .ok x) :
    Normed sqrt (ws.set w δ) (norms.set w x) where
  norm v δ' y hδ hy := by
    rw [Dict.get?_set] at hδ ⊢
    split_ifs at hδ ⊢
    · cases hδ
      rw [hx] at hy
      cases hy
      rfl
    · exact h.norm v δ' y hδ hy
  keys v hv := by
    rw [Dict.mem_keys_set] at hv ⊢
    exact hv.imp_right (h.keys v)

/-- A delta without a norm may stand beside that of an earlier one. -/
lemma Normed.set_of_error (h : Normed sqrt ws norms) {e : PyError}
    (he : gradNorm sqrt δ.grads = .error e) : Normed sqrt (ws.set w δ) norms where
  norm v δ' y hδ hy := by
    rw [Dict.get?_set] at hδ
    split_ifs at hδ
    · cases hδ
      rw [he] at hy
      cases hy
    · exact h.norm v δ' y hδ hy
  keys v hv := Dict.mem_keys_set.mpr (Or.inr (h.keys v hv))

lemma Normed.erase (h : Normed sqrt ws norms) : Normed sqrt (ws.erase w) (norms.erase w) where
  norm v δ' y hδ hy := by
    rw [Dict.get?_erase] at hδ ⊢
    split_ifs at hδ ⊢
    exact h.norm v δ' y hδ hy
  keys v hv := by
    rw [Dict.mem_keys_erase] at hv ⊢
    exact ⟨h.keys v hv.1, hv.2⟩

/-! ### Runs -/

namespace System

variable {env : ServerEnv α} {s s' : System α} {a : Action α} {deltas : List (Delta α)}
  {st : WeightStore α} {timeout : ℚ}

/-- The number is the norm of a delta that the worker has pushed. -/
def HasNorm (env : ServerEnv α) (s : System α) (w : WorkerId) (x : α) : Prop :=
  ∃ δ ∈ s.history.accepted, (s.conns δ.conn).workerId = some w ∧
    gradNorm env.sqrt δ.grads = .ok x

/-- `norms` and the deltas of a round: under the id of each delta's connection stands the norm of the
delta. Only if `_grad_norm` has raised on the delta, nothing stands there, or the norm of another
delta that this worker has pushed. -/
def NormsOf (env : ServerEnv α) (s : System α) (x : Applied α) (norms : Dict WorkerId α) : Prop :=
  ∃ ws : Dict WorkerId (Delta α), x.deltas = ws.values ∧
    (∀ w δ, ws.get? w = some δ → (s.conns δ.conn).workerId = some w ∧
      ∀ y, gradNorm env.sqrt δ.grads = .ok y → norms.get? w = some y) ∧
    ∀ w y, norms.get? w = some y → ∃ δ, ws.get? w = some δ ∧
      (gradNorm env.sqrt δ.grads = .ok y ∨
        (∃ e, gradNorm env.sqrt δ.grads = .error e) ∧ s.HasNorm env w y)

/-- The norms are those of the deltas, each under the id that the connection of its delta has
announced, and otherwise of earlier deltas of the same workers. -/
def Tallied (env : ServerEnv α) (s : System α) (deltas : List (Delta α))
    (norms : Dict WorkerId α) : Prop :=
  ∃ ws : Dict WorkerId (Delta α), deltas = ws.values ∧ Normed env.sqrt ws norms ∧
    (∀ w δ, ws.get? w = some δ → (s.conns δ.conn).workerId = some w) ∧
    ∀ w x, norms.get? w = some x → s.HasNorm env w x

/-- Deltas that have been put into the buffer stay on record. -/
lemma accepted_mono (hr : Rule env s a s') {δ : Delta α} (h : δ ∈ s.history.accepted) :
    δ ∈ s'.history.accepted := by
  cases hr <;> first | exact h | exact List.mem_cons_of_mem _ h

lemma HasNorm.step (h : s.HasNorm env w x) (hr : Rule env s a s') : s'.HasNorm env w x := by
  obtain ⟨δ, hδ, hw, hx⟩ := h
  exact ⟨δ, accepted_mono hr hδ, hr.workerId hw, hx⟩

/-- Connections keep the ids that they have announced. -/
lemma Tallied.step (h : s.Tallied env deltas norms) (hr : Rule env s a s') :
    s'.Tallied env deltas norms := by
  obtain ⟨ws, hdeltas, hnormed, hnamed, hpushed⟩ := h
  exact ⟨ws, hdeltas, hnormed, fun w δ hδ => hr.workerId (hnamed w δ hδ),
    fun w x hx => (hpushed w x hx).step hr⟩

/-- Norms go along with their deltas from the buffer to the metrics. -/
structure NormInv (env : ServerEnv α) (s : System α) : Prop where
  buffer : Normed env.sqrt s.agg.buffer s.agg.norms
  named : ∀ w δ, s.agg.buffer.get? w = some δ → (s.conns δ.conn).workerId = some w
  pushed : ∀ w x, s.agg.norms.get? w = some x → s.HasNorm env w x
  pending : ∀ t r, (s.conns t).handler = .apply r → s.Tallied env r.deltas r.norms
  finishing : ∀ t r, (s.conns t).handler.finishing = some r → s.Tallied env r.deltas r.norms ∧
    ∃ x ∈ s.history.applied, x.deltas = r.deltas ∧
      ∀ k, (s.conns t).handler.stepRead = some k → x.after.globalStep ≤ k
  emitted : ∀ step norms status, .weightUpdate step norms status ∈ s.metrics →
    ∃ x ∈ s.history.applied, x.after.globalStep ≤ step ∧ s.Tallied env x.deltas norms
  applied : ∀ x ∈ s.history.applied, x.after.globalStep ≤ s.store.globalStep

lemma normInv_init (env : ServerEnv α) (st : WeightStore α) (timeout : ℚ) :
    (init st timeout).NormInv env where
  buffer := .empty env.sqrt
  named _ _ h := by cases h
  pushed _ _ h := by cases h
  pending _ _ h := by cases h
  finishing _ _ h := by cases h
  emitted _ _ _ h := by cases h
  applied _ h := by cases h

/-- The buffer and the norms after a step. -/
lemma NormInv.buffer_step (h : s.NormInv env) (hr : Rule env s a s') :
    Normed env.sqrt s'.agg.buffer s'.agg.norms := by
  cases hr
  case raised c now m w g e hh hw ht hg hn => exact h.buffer.set_of_error hn
  case buffered c now m w g norm hh hw ht hg hn hs => exact h.buffer.set hn
  case fired => exact .empty env.sqrt
  case unregister => exact h.buffer.erase
  all_goals exact h.buffer

/-- A norm after a step was there before, or is that of the delta at hand. -/
lemma norms_of (hr : Rule env s a s') {v : WorkerId} {y : α}
    (h : s'.agg.norms.get? v = some y) : s.agg.norms.get? v = some y ∨
      ∃ c g, (s.conns c).workerId = some v ∧ gradNorm env.sqrt g = .ok y ∧
        s.delta c g ∈ s'.history.accepted := by
  cases hr
  case buffered c now m w g norm hh hw ht hg hn hs =>
    rw [System.agg_goto, GradientAggregator.enter, Dict.get?_set] at h
    split_ifs at h with hv
    · cases h
      exact Or.inr ⟨c, g, hv ▸ hw, hn, List.mem_cons_self⟩
    · exact Or.inl h
  case fired => cases h
  case unregister c now w hh hw =>
    rw [System.agg_goto, GradientAggregator.unregister, Dict.get?_erase] at h
    split_ifs at h
    exact Or.inl h
  all_goals exact Or.inl h

/-- The round that a push completes. -/
lemma NormInv.tallied_round (h : s.NormInv env) (hr : Rule env s a s') {t : ConnId} {g : Payload α}
    (hw : (s.conns t).workerId = some w) (hn : gradNorm env.sqrt g = .ok x)
    (hacc : s.delta t g ∈ s'.history.accepted) :
    s'.Tallied env (s.agg.enter w (s.delta t g) x).round.deltas
      (s.agg.enter w (s.delta t g) x).round.norms := by
  refine ⟨(s.agg.enter w (s.delta t g) x).buffer, rfl, h.buffer.set hn, fun v δ hδ => ?_,
    fun v y hy => ?_⟩
  · rw [GradientAggregator.get?_buffer_enter] at hδ
    split_ifs at hδ with hv
    · rw [hv, ← Option.some.inj hδ]
      exact hr.workerId hw
    · exact hr.workerId (h.named v δ hδ)
  · have hy : (s.agg.norms.set w x).get? v = some y := hy
    rw [Dict.get?_set] at hy
    split_ifs at hy with hv
    · cases hy
      exact ⟨s.delta t g, hacc, hr.workerId (hv ▸ hw), hn⟩
    · exact (h.pushed v y hy).step hr

/-- A round to be applied was so before, or has been fired by the delta at hand. -/
lemma fired_of (hr : Rule env s a s') {t : ConnId} {r : Round α}
    (h : (s'.conns t).handler = .apply r) : (s.conns t).handler = .apply r ∨
      ∃ w g x, (s.conns t).workerId = some w ∧ gradNorm env.sqrt g = .ok x ∧
        s.delta t g ∈ s'.history.accepted ∧ r = (s.agg.enter w (s.delta t g) x).round := by
  rcases hr.apply_of h with h | ⟨now, m, w, g, x, rfl, hm, hw, ht, hg, hn, hs, rfl⟩
  · exact Or.inl h
  · refine Or.inr ⟨w, g, x, hw, hn, ?_, rfl⟩
    cases hr
    case fired m' w' g' x' ht' hg' hn' hm' hw' hs' =>
      rw [hm] at hm'
      cases hm'
      rw [hg] at hg'
      cases hg'
      exact List.mem_cons_self
    all_goals simp_all

/-- What has been emitted was emitted before, or is the metric of the round at hand. -/
lemma emitted_of (hr : Rule env s a s') {step : ℕ} {norms : Dict WorkerId α}
    {status : Dict WorkerId Liveness} (h : .weightUpdate step norms status ∈ s'.metrics) :
    .weightUpdate step norms status ∈ s.metrics ∨
      ∃ t r, (s.conns t).handler = .emit r step ∧ norms = r.norms := by
  cases hr
  case emit c now r k hh =>
    rcases List.mem_cons.mp h with he | hold
    · cases he
      exact Or.inr ⟨c, r, hh, rfl⟩
    · exact Or.inl hold
  case heartbeat c now m w hh hw =>
    rcases List.mem_cons.mp h with he | hold
    · cases he
    · exact Or.inl hold
  all_goals exact Or.inl h

lemma NormInv.step (h : s.NormInv env) (hr : Rule env s a s') : s'.NormInv env where
  buffer := h.buffer_step hr
  named w δ hδ := by
    rcases hr.entry_of hδ with hδ | ⟨c, g, hsub, rfl⟩
    · exact hr.workerId (h.named w δ hδ)
    · exact hr.workerId hsub.workerId
  pushed w x hx := by
    rcases norms_of hr hx with hx | ⟨c, g, hw, hn, hacc⟩
    · exact (h.pushed w x hx).step hr
    · exact ⟨s.delta c g, hacc, hr.workerId hw, hn⟩
  pending t r hh := by
    rcases fired_of hr hh with hh | ⟨w, g, x, hw, hn, hacc, rfl⟩
    · exact (h.pending t r hh).step hr
    · exact h.tallied_round hr hw hn hacc
  finishing t r hf := by
    rcases hr.finishing_of hf with hf | happ
    · obtain ⟨htally, x, hx, hdeltas, hstep⟩ := h.finishing t r hf
      refine ⟨htally.step hr, x, hr.applied_mono hx, hdeltas, fun k hk => ?_⟩
      rcases hr.stepRead_of hk with hold | ⟨now, r', -, -, rfl⟩
      · exact hstep k hold
      · exact h.applied x hx
    · refine ⟨(h.pending t r happ.handler).step hr, ⟨r.deltas, s.store, s'.store⟩, ?_, rfl, ?_⟩
      · rw [happ.history]
        exact List.mem_cons_self
      · intro k hk
        rw [happ.next] at hk
        cases hk
  emitted step norms status hm := by
    rcases emitted_of hr hm with hold | ⟨t, r, hh, rfl⟩
    · obtain ⟨x, hx, hstep, htally⟩ := h.emitted step norms status hold
      exact ⟨x, hr.applied_mono hx, hstep, htally.step hr⟩
    · obtain ⟨htally, x, hx, hdeltas, hstep⟩ := h.finishing t r (by rw [hh]; rfl)
      refine ⟨x, hr.applied_mono hx, hstep step (by rw [hh]; rfl), ?_⟩
      rw [hdeltas]
      exact htally.step hr
  applied x hx := by
    rcases hr.globalStep_cases with ⟨-, happ⟩ | ⟨t, r, happ⟩
    · exact (h.applied x (happ ▸ hx)).trans hr.globalStep_le
    · rw [happ.history] at hx
      rcases List.mem_cons.mp hx with rfl | hx
      · exact le_rfl
      · exact (h.applied x hx).trans hr.globalStep_le

lemma normInv_of_reach {ok : System α → Action α → System α → Prop}
    (h : Reach (System.step env) ok (.init st timeout) s) : s.NormInv env := by
  refine h.invariant (P := fun s => s.NormInv env) (normInv_init env st timeout) ?_
  exact fun ih hstep _ => ih.step (rule_of_step hstep)

/-- What a metric shows. -/
lemma NormInv.shown (h : s.NormInv env) {step : ℕ} {norms : Dict WorkerId α}
    {status : Dict WorkerId Liveness} (hm : .weightUpdate step norms status ∈ s.metrics) :
    ∃ x ∈ s.history.applied, x.after.globalStep ≤ step ∧ s.NormsOf env x norms := by
  obtain ⟨x, hx, hstep, ws, hdeltas, hnormed, hnamed, hpushed⟩ := h.emitted step norms status hm
  refine ⟨x, hx, hstep, ws, hdeltas, fun w δ hδ => ⟨hnamed w δ hδ, fun y hy =>
    hnormed.norm w δ y hδ hy⟩, fun w y hy => ?_⟩
  obtain ⟨δ, hδ⟩ := Dict.mem_keys_iff.mp (hnormed.keys w (Dict.mem_keys_iff.mpr ⟨y, hy⟩))
  refine ⟨δ, hδ, ?_⟩
  cases hg : gradNorm env.sqrt δ.grads with
  | ok z => exact Or.inl (by rw [Option.some.inj ((hnormed.norm w δ z hδ hg).symm.trans hy)])
  | error e => exact Or.inr ⟨⟨e, rfl⟩, hpushed w y hy⟩

end System

/-- Every metric of a round is about the deltas of a round that has been applied before the step that
it shows, with the norm of each. -/
theorem metrics_norms {env : ServerEnv α} {st : WeightStore α} {timeout : ℚ} {s : System α}
    (h : Reach (System.step env) (fun _ _ _ => True) (.init st timeout) s) {step : ℕ}
    {norms : Dict WorkerId α} {status : Dict WorkerId Liveness}
    (hm : .weightUpdate step norms status ∈ s.metrics) :
    ∃ x ∈ s.history.applied, x.after.globalStep ≤ step ∧ s.NormsOf env x norms :=
  (System.normInv_of_reach h).shown hm

namespace Scenario

/-- The delta `x` with one more entry, `None`. -/
def pushMixed (x : ℚ) : Message ℚ :=
  { (push x).message 1 with gradients := some (.mixed
      (((∅ : Dict String (Option (NDArray ℚ))).set "w" (some (.singleton x))).set "extra" none)
      (Dict.mem_values_iff.mpr ⟨"extra", by simp⟩)) }

/-- Worker `1` pushes `3`, and then `5` with one more entry, on which `_grad_norm` raises. Before
its thread cleans up, a push of worker `0` fires the round; worker `1` has left when the metric of
that round is emitted. -/
def emitsLeft : List (Action ℚ) :=
  connect 0 0 .pullWeights ++ [.run 0 0, .write 0 4] ++ connect 1 1 (push 3) ++ [.run 1 0] ++
    [.arrive 1 (.message (pushMixed 5)), .run 1 0, .run 1 0] ++ request 0 0 (push 2) ++
    [.run 0 0, .run 1 0, .run 1 0, .run 0 0, .run 0 0, .write 0 4, .write 0 4, .run 1 0, .run 0 0]

end Scenario

open Scenario

/-- The norms in a metric. -/
def MetricsEvent.roundNorms : MetricsEvent α → Option (Dict WorkerId α)
  | .weightUpdate _ norms _ => some norms
  | .heartbeat _ _ _ _ => none

/-- The metric shows the norm of the delta `2`, here without the root. The delta `5` of worker `1`
has been averaged with it; in its place stands the norm of `3`, which that worker pushed before. -/
theorem metrics_norms_left : ∃ s, Reach (System.step syncEnv) (fun _ _ _ => True) start s ∧
    ∃ step norms status, .weightUpdate step norms status ∈ s.metrics ∧
      norms.entries = [(1, 9), (0, 4)] ∧
      ∃ x ∈ s.history.applied, x.after.globalStep ≤ step ∧ s.NormsOf syncEnv x norms := by
  obtain ⟨s, hreach, hshown⟩ := Reach.of_script (System.step syncEnv) (fun _ _ _ => True) start
    emitsLeft (fun _ _ _ => true) (fun _ _ _ _ => trivial)
    (fun s : System ℚ => (s.metrics.filterMap MetricsEvent.roundNorms).map Dict.entries =
      [[(1, 9), (0, 4)]]) (by decide +kernel)
  obtain ⟨norms, hnorms, hentries⟩ := List.mem_map.mp (hshown ▸ List.mem_singleton_self _)
  obtain ⟨e, he, hnorms⟩ := List.mem_filterMap.mp hnorms
  cases e with
  | weightUpdate step norms' status =>
    obtain rfl := Option.some.inj hnorms
    exact ⟨s, hreach, step, norms', status, he, hentries, metrics_norms hreach he⟩
  | heartbeat w step reward extra => cases hnorms

end DistributedRL
