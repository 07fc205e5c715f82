import DistributedRL.Worker.Members
import DistributedRL.Worker.Script
import DistributedRL.Worker.Updates
import Mathlib.Data.Finset.Card

/-!
# Quorums

Every round takes the deltas of different workers, a quorum of them at least, whatever the workers
do and whoever is marked DEAD. If fewer workers than that ever announce themselves, no round is
applied and nothing is answered to a push.
-/

namespace DistributedRL

variable {α : Type*} [Scalar α] {env : ServerEnv α}

namespace System

variable {s s' : System α} {a : Action α} {deltas : List (Delta α)}

/-- The deltas are those of different workers, a quorum of them at least. -/
def Meets (env : ServerEnv α) (s : System α) (deltas : List (Delta α)) : Prop :=
  ∃ ws : List WorkerId, ws.Nodup ∧ GradientAggregator.minReady env.config ≤ ws.length ∧
    deltas.map (fun δ => (s.conns δ.conn).workerId) = ws.map some

/-- What is in the buffer is from the worker it is kept for, and the rounds meet the quorum. -/
structure QuorumInv (env : ServerEnv α) (s : System α) : Prop where
  named : ∀ w δ, s.agg.buffer.get? w = some δ → (s.conns δ.conn).workerId = some w
  pending : ∀ t r, (s.conns t).handler = .apply r → s.Meets env r.deltas
  applied : ∀ x ∈ s.history.applied, s.Meets env x.deltas

omit [Scalar α] in
lemma quorumInv_init (env : ServerEnv α) (st : WeightStore α) (timeout : ℚ) :
    (init st timeout).QuorumInv env where
  named _ _ h := by cases h
  pending _ _ h := by cases h
  applied _ h := by cases h

/-- Connections keep the ids that they have announced. -/
lemma Meets.step (h : s.Meets env deltas) (hr : Rule env s a s') : s'.Meets env deltas := by
  obtain ⟨ws, hnodup, hle, hmap⟩ := h
  refine ⟨ws, hnodup, hle, ?_⟩
  rw [← hmap]
  refine List.map_congr_left fun δ hδ => ?_
  have hmem : (s.conns δ.conn).workerId ∈ ws.map some :=
    hmap ▸ List.mem_map_of_mem (f := fun δ : Delta α => (s.conns δ.conn).workerId) hδ
  obtain ⟨w, -, hw⟩ := List.mem_map.mp hmem
  rw [← hw]
  exact hr.workerId hw.symm

omit [Scalar α] in
/-- A round that is due meets the quorum. -/
lemma QuorumInv.meets_round (h : s.QuorumInv env) {t : ConnId} {w : WorkerId} {g : Payload α}
    {norm : α} (hw : (s.conns t).workerId = some w)
    (happly : (s.agg.enter w (s.delta t g) norm).ShouldApply env.config s.hb) :
    s.Meets env (s.agg.enter w (s.delta t g) norm).round.deltas := by
  set agg := s.agg.enter w (s.delta t g) norm with hagg
  refine ⟨agg.buffer.keys, agg.buffer.nodup_keys, ?_, ?_⟩
  · rw [GradientAggregator.ShouldApply] at happly
    split_ifs at happly with hsync
    · exact hsync.trans (Int.natCast_nonneg _)
    · exact happly.trans (Int.ofNat_le.mpr (List.length_filter_le _ _))
  · show (agg.buffer.entries.map Prod.snd).map _ = (agg.buffer.entries.map Prod.fst).map some
    rw [List.map_map, List.map_map]
    refine List.map_congr_left fun p hp => ?_
    have hget : agg.buffer.get? p.1 = some p.2 := Dict.get?_eq_some_iff.mpr hp
    rw [hagg, GradientAggregator.get?_buffer_enter] at hget
    split_ifs at hget with hpw
    · show (s.conns p.2.conn).workerId = some p.1
      rw [hpw, ← Option.some.inj hget]
      exact hw
    · exact h.named p.1 p.2 hget

lemma QuorumInv.step (h : s.QuorumInv env) (hr : Rule env s a s') : s'.QuorumInv env where
  named w δ hδ := by
    rcases hr.entry_of hδ with hδ | ⟨c, g, hsub, rfl⟩
    · exact hr.workerId (h.named w δ hδ)
    · exact hr.workerId hsub.workerId
  pending t r hh := by
    rcases hr.apply_of hh with hh | ⟨now, m, w, g, norm, -, hm, hw, -, -, -, happly, rfl⟩
    · exact (h.pending t r hh).step hr
    · exact (h.meets_round hw happly).step hr
  applied x hx := by
    rcases hr.globalStep_cases with ⟨-, happ⟩ | ⟨t, r, happ⟩
    · exact (h.applied x (happ ▸ hx)).step hr
    · rw [happ.history] at hx
      rcases List.mem_cons.mp hx with rfl | hx
      · exact (h.pending t r happ.handler).step hr
      · exact (h.applied x hx).step hr

/-! ### Too few workers -/

/-- Every id that is announced is one of `W`. -/
def Announces (W : Finset WorkerId) : Action α → Prop
  | .arrive _ (.message m) => ∀ w ∈ m.workerId, w ∈ W
  | _ => True

/-- All ids are of `W`, those that have been announced and those that still will be. -/
structure NamesInv (W : Finset WorkerId) (s : System α) : Prop where
  inbox : ∀ d m, .message m ∈ (s.conns d).inbox → ∀ w ∈ m.workerId, w ∈ W
  workerId : ∀ d, ∀ w ∈ (s.conns d).workerId, w ∈ W

omit [Scalar α] in
lemma namesInv_init (W : Finset WorkerId) (st : WeightStore α) (timeout : ℚ) :
    (init st timeout).NamesInv W where
  inbox _ _ h := by cases h
  workerId _ _ h := by cases h

lemma NamesInv.step {W : Finset WorkerId} (h : s.NamesInv W) (hr : Rule env s a s')
    (ha : Announces W a) : s'.NamesInv W where
  inbox d m hm := by
    rcases hr.inbox_of hm with hm | rfl
    · exact h.inbox d m hm
    · exact ha
  workerId d w hw := by
    rcases hr.workerId_cases d with he | ⟨m, rest, v, hi, hv, hd, -⟩
    · exact h.workerId d w (he ▸ hw)
    · rw [hd] at hw
      cases hw
      exact h.inbox d m (hi ▸ List.mem_cons_self) w hv

omit [Scalar α] in
/-- There are no more workers in a round than have announced themselves. -/
lemma NamesInv.not_meets {W : Finset WorkerId} (h : s.NamesInv W)
    (hfew : (W.card : ℤ) < GradientAggregator.minReady env.config) : ¬ s.Meets env deltas := by
  rintro ⟨ws, hnodup, hle, hmap⟩
  have hsub : ws.toFinset ⊆ W := by
    intro w hw
    have hmem : some w ∈ ws.map some := List.mem_map_of_mem (List.mem_toFinset.mp hw)
    rw [← hmap] at hmem
    obtain ⟨δ, -, hδ⟩ := List.mem_map.mp hmem
    exact h.workerId δ.conn w hδ
  have hcard := Finset.card_le_card hsub
  rw [List.toFinset_card_of_nodup hnodup] at hcard
  omega

/-- No round has been completed. -/
structure StillInv (st : WeightStore α) (s : System α) : Prop where
  store : s.store = st
  applied : s.history.applied = []
  acked : s.history.acked = []
  outside : ∀ t, (s.conns t).handler.InRound = false

lemma StillInv.step {st : WeightStore α} (h : s.StillInv st) (hr : Rule env s a s')
    (hfires : ∀ t m w, (s.conns t).workerId = some w → ¬ s.Fires env t w m) :
    s'.StillInv st := by
  have hout : ∀ t, (s'.conns t).handler.InRound = false := by
    intro t
    refine Bool.eq_false_of_not_eq_true fun hin => ?_
    rcases hr.inRound_of hin with hold | ⟨now, m, w, -, -, hw, hf⟩
    · rw [h.outside t] at hold
      cases hold
    · exact hfires t m w hw hf
  cases hr
  case applied c now r st' hh hok => simpa [hh, Handler.InRound] using h.outside c
  case applyRaised c now r st' e hh hok => simpa [hh, Handler.InRound] using h.outside c
  case ackEnd c r step d todo rest hh hd => simpa [hh, Handler.InRound] using h.outside c
  all_goals exact ⟨h.store, h.applied, h.acked, hout⟩

end System

variable {s : System α} {st : WeightStore α} {timeout : ℚ}

/-- In every run whatsoever, each round that has been applied is of different workers, and of as
many as the quorum asks for. If fewer than that ever announce themselves, the store stays as it
is. -/
theorem rounds_meet_quorum {W : Finset WorkerId}
    (h : Reach (System.step env) (fun _ a _ => System.Announces W a) (.init st timeout) s) :
    (∀ x ∈ s.history.applied, s.Meets env x.deltas) ∧
      ((W.card : ℤ) < GradientAggregator.minReady env.config →
        s.store = st ∧ s.history.applied = [] ∧ s.history.acked = []) := by
  have hquorum : ∀ {s}, Reach (System.step env) (fun _ a _ => System.Announces W a)
      (.init st timeout) s → s.QuorumInv env ∧ s.NamesInv W := fun hr =>
    hr.invariant (P := fun s => s.QuorumInv env ∧ s.NamesInv W)
      ⟨System.quorumInv_init env st timeout, System.namesInv_init W st timeout⟩
      fun hi hstep ha =>
        ⟨hi.1.step (System.rule_of_step hstep), hi.2.step (System.rule_of_step hstep) ha⟩
  refine ⟨(hquorum h).1.applied, fun hfew => ?_⟩
  have hstill : s.StillInv st := by
    refine h.invariant_reach (P := fun s => s.StillInv st) ⟨rfl, rfl, rfl, fun _ => rfl⟩ ?_
    intro s a s' hr hi hstep _
    obtain ⟨hq, hn⟩ := hquorum hr
    refine hi.step (System.rule_of_step hstep) fun t m w hw hf => ?_
    obtain ⟨-, g, norm, -, -, happly⟩ := hf
    exact hn.not_meets hfew (hq.meets_round hw happly)
  exact ⟨hstill.store, hstill.applied, hstill.acked⟩

/-! ### Two runs -/

namespace Scenario

/-- A check that implies `Announces`. -/
def announces (W : Finset WorkerId) : Action ℚ → Bool
  | .arrive _ (.message m) => m.workerId.all fun w => decide (w ∈ W)
  | _ => true

lemma announces_sound {W : Finset WorkerId} {a : Action ℚ} (h : announces W a = true) :
    System.Announces W a := by
  cases a with
  | arrive c x =>
    cases x with
    | message m =>
      intro w hw
      have hall : m.workerId.all (fun w => decide (w ∈ W)) = true := h
      rw [Option.mem_def.mp hw] at hall
      exact of_decide_eq_true hall
    | unreadable => trivial
  | _ => trivial

/-- Worker `c` connects with a push of `x`. -/
def pushesFirst (c : ConnId) (x : ℚ) : List (Action ℚ) := connect c c (push x) ++ [.run c 0]

end Scenario

open Scenario

/-- A quorum of two is met by two workers, and never by one. -/
theorem rounds_meet_quorum_two :
    (∃ s, Reach (System.step (wireEnv 2)) (fun _ a _ => System.Announces {0, 1} a) start s ∧
      s.history.applied.length = 1 ∧ ∀ x ∈ s.history.applied, s.Meets (wireEnv 2) x.deltas) ∧
    ∃ s, Reach (System.step (wireEnv 2)) (fun _ a _ => System.Announces {0} a) start s ∧
      s.agg.buffer.keys = [0] ∧ s.history.acked = [] := by
  constructor
  · obtain ⟨s, hreach, hlen⟩ := Reach.of_script (System.step (wireEnv 2))
      (fun _ a _ => System.Announces {0, 1} a) start
      (pushesFirst 0 1 ++ pushesFirst 1 3 ++ [.run 1 0]) (fun _ a _ => announces {0, 1} a)
      (fun _ _ _ h => announces_sound h)
      (fun s : System ℚ => s.history.applied.length = 1) (by decide +kernel)
    exact ⟨s, hreach, hlen, (rounds_meet_quorum hreach).1⟩
  · obtain ⟨s, hreach, hkeys⟩ := Reach.of_script (System.step (wireEnv 2))
      (fun _ a _ => System.Announces {0} a) start (pushesFirst 0 1) (fun _ a _ => announces {0} a)
      (fun _ _ _ h => announces_sound h)
      (fun s : System ℚ => s.agg.buffer.keys = [0]) (by decide +kernel)
    exact ⟨s, hreach, hkeys, ((rounds_meet_quorum hreach).2 (by decide)).2.2⟩

end DistributedRL
