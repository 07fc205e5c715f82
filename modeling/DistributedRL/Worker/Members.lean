import DistributedRL.Server.Average
import DistributedRL.Worker.Fresh
import Mathlib.Data.Finset.Defs

/-!
# A fixed group of workers

Steady runs of workers that are all registered before one of them pushes. Every round is then one
of the whole group, one thread at a time is busy with a round, and no pull is served between a round
and its application.
-/

namespace DistributedRL

variable {α : Type*}

/-- The thread has completed a round, and has ACKs of it left to send. -/
def Handler.InRound : Handler α → Bool
  | .apply _ | .getStep _ | .acks .. => true
  | _ => false

section

variable [Scalar α]

/-- Every member is registered. -/
def Cluster.Gathered (members : Finset ConnId) (s : Cluster α) : Prop :=
  ∀ d ∈ members, d ∈ s.sys.agg.sockets.values

/-- The condition on one step: only members connect, they are all registered when one of them
pushes, and whoever pushes has pulled, and pushes the difference to its own model. -/
def Cluster.Trains (members : Finset ConnId) (s : Cluster α) : ClusterAction α → Prop
  | .connect c => c ∈ members
  | .request c (.pushGradients _ g) => s.Gathered members ∧
    ∃ w model, (s.clients c).base = some w ∧ SameShapes model w ∧ weightDelta w model = .ok g
  | _ => True

end

/-! ### How a thread comes to be in a round -/

section Rules

variable [Scalar α] {env : ServerEnv α} {s s' : System α} {a : Action α} {t d : ConnId}
  {r : Round α}

omit [Scalar α] in
lemma Handler.inRound_iff {h : Handler α} :
    h.InRound ↔ (∃ r, h = .apply r) ∨ ∃ r, h.acking = some r := by
  cases h <;> simp [InRound, acking]

omit [Scalar α] in
lemma Handler.inRound_of_owed {h : Handler α} (hd : d ∈ h.owed) : h.InRound := by
  cases h <;> first | rfl | cases hd

/-- A thread is in a round if it was before, or has just completed one. -/
lemma Rule.inRound_of (hr : Rule env s a s') (h : (s'.conns t).handler.InRound) :
    (s.conns t).handler.InRound ∨ ∃ now m w, a = .run t now ∧ (s.conns t).handler = .dispatch m ∧
      (s.conns t).workerId = some w ∧ s.Fires env t w m := by
  rcases Handler.inRound_iff.mp h with ⟨r, hh⟩ | ⟨r, hh⟩
  · rcases hr.apply_of hh with hold | ⟨now, m, w, g, norm, rfl, hm, hw, ht, hg, hn, hf, -⟩
    · exact Or.inl (by rw [hold]; rfl)
    · exact Or.inr ⟨now, m, w, rfl, hm, hw, ht, g, norm, hg, hn, hf⟩
  · rcases hr.acking_of hh with ⟨hold, -⟩ | happ
    · exact Or.inl (Handler.inRound_iff.mpr (Or.inr ⟨r, hold⟩))
    · exact Or.inl (by rw [happ.handler]; rfl)

/-- A send raises where the peer has hung up, or to a connection that is owed an ACK and closed. -/
lemma Rule.reset_of (hr : Rule env s a s') (h : (s'.conns d).reset = true) :
    (s.conns d).reset = true ∨ (s.conns d).eof = true ∨
      ∃ t, d ∈ (s.conns t).handler.owed ∧ s.Broken d := by
  cases hr
  case replyFail c resp rest hh he =>
    by_cases hdc : d = c
    · exact Or.inr (Or.inl (hdc ▸ he))
    · exact Or.inl (by simpa [hdc] using h)
  case ackFail c r step e todo rest hh hb =>
    by_cases hde : d = e
    · exact Or.inr (Or.inr ⟨c, by simp [hh, Handler.owed, hde], hde ▸ hb⟩)
    · exact Or.inl (by simpa [hde] using h)
  case scan => exact Or.inl h
  all_goals
    left
    simp only [System.heartbeat, System.reset_goto, System.reset_send, System.conns_setConn] at h
    first
      | exact h
      | split_ifs at h with hd <;> simp_all

end Rules

/-! ### The invariant -/

namespace Cluster

variable [Scalar α] {env : ServerEnv α} {ids : ConnId → WorkerId} {s s' : Cluster α}
  {a : ClusterAction α} {members : Finset ConnId} {c d t u : ConnId}

/-- The invariant of the group. -/
structure GroupInv (members : Finset ConnId) (s : Cluster α) : Prop where
  present : ∀ d, (s.clients d).phase ≠ .away → d ∈ members
  pushed : ∀ d step g, (s.clients d).phase = .waiting (.pushGradients step g) →
    s.Gathered members ∧
      ∃ w model, (s.clients d).base = some w ∧ SameShapes model w ∧ weightDelta w model = .ok g
  full : ∀ t r, (s.sys.conns t).handler = .apply r → ∀ d ∈ members, d ∈ r.sockets.values
  begun : s.sys.history.applied ≠ [] → s.Gathered members
  single : ∀ t u, (s.sys.conns t).handler.InRound → (s.sys.conns u).handler.InRound → t = u
  reset : ∀ d, (s.sys.conns d).reset = false

lemma groupInv_init (members : Finset ConnId) (st : WeightStore α) (timeout : ℚ) :
    (init st timeout).GroupInv members where
  present _ h := absurd rfl h
  pushed _ _ _ h := by cases h
  full _ _ h := by cases h
  begun h := absurd rfl h
  single _ _ h := by cases h
  reset _ := rfl

/-- A worker is connected if it was before, or has just connected. -/
lemma present_of (hstep : s.step env ids a = some s') (h : (s'.clients d).phase ≠ .away) :
    (s.clients d).phase ≠ .away ∨ a = .connect d := by
  cases rule_of_step hstep with
  | @connect c sys hp hs =>
    by_cases hdc : d = c
    · exact Or.inr (by rw [hdc])
    · exact Or.inl (by simpa [hdc] using h)
  | @request c q sys hp hl hs =>
    by_cases hdc : d = c
    · exact Or.inl (by rw [hdc, hp]; simp)
    · exact Or.inl (by simpa [hdc] using h)
  | @receive c q payload rest hp hl hf =>
    by_cases hdc : d = c
    · exact Or.inl (by rw [hdc, hp]; simp)
    · exact Or.inl (by simpa [hdc] using h)
  | @leave c sys hp hs =>
    by_cases hdc : d = c
    · exact Or.inl (by rwa [hdc])
    · exact Or.inl (by simpa [hdc] using h)
  | server hi hs => exact Or.inl h

/-- A registered worker is there: a send to it does not raise. -/
lemma Sound.not_broken (hs : s.Sound env ids) (hsteady : s.sys.SteadyInv)
    (hd : d ∈ s.sys.agg.sockets.values) : ¬ s.sys.Broken d := by
  obtain ⟨w, hw⟩ := Dict.mem_values_iff.mp hd
  have hrun := hsteady.running d w (hs.sends.own w d hw)
  rintro (heof | hdone)
  · rw [hsteady.eof d] at heof
    cases heof
  · cases hh : (s.sys.conns d).handler <;> simp_all [Handler.Shut]

/-- A thread in a round is that of a registered worker. -/
lemma Sound.registered_of_inRound (hs : s.Sound env ids) (hsteady : s.sys.SteadyInv)
    (h : (s.sys.conns t).handler.InRound) : t ∈ s.sys.agg.sockets.values := by
  refine hs.registered_of_held hsteady ?_ ?_ <;>
    cases hh : (s.sys.conns t).handler <;> simp_all [Handler.InRound, Handler.Nameless,
      Handler.Seated]

/-- While a thread is in a round, no other one completes a covered round. -/
lemma Sound.not_inRound_of_fires (hs : s.Sound env ids) (hids : Function.Injective ids)
    (hsteady : s.sys.SteadyInv) {now : ℚ} {m : Message α} {v : WorkerId}
    (hk : s.sys.Covers env (.run t now)) (hh : (s.sys.conns t).handler = .dispatch m)
    (hv : (s.sys.conns t).workerId = some v) (hf : s.sys.Fires env t v m) (u : ConnId) :
    (s.sys.conns u).handler.InRound = false := by
  by_contra hne
  have hu := Bool.eq_true_of_not_eq_false hne
  by_cases hut : u = t
  · rw [hut, hh] at hu
    cases hu
  · simp only [System.Covers, hh, hv] at hk
    obtain ⟨δ, hδ⟩ := hs.entry_of_registered hv (hk hf) hids
      (hs.registered_of_inRound hsteady hu) hut
    obtain ⟨-, -, -, hpark, -⟩ := (hs.stage u).of_entry hδ
    have hpark' : (s.sys.conns u).handler.Parked := hpark
    cases hh : (s.sys.conns u).handler <;> simp_all [Handler.InRound, Handler.Parked]

/-- Whoever has a delta in a round is registered. -/
lemma Tracked.registered_of_owed (htr : s.Tracked env ids) (hg : s.GroupInv members)
    (hd : d ∈ (s.sys.conns t).handler.owed) : d ∈ s.sys.agg.sockets.values := by
  have hpush : ∃ δ, (s.clients d).Pushing d δ := by
    rcases Handler.inRound_iff.mp (Handler.inRound_of_owed hd) with ⟨r, hh⟩ | ⟨r, hh⟩
    · obtain ⟨δ, hδ, rfl⟩ := htr.pushes.complete t r hh d (by rw [hh] at hd; exact hd)
      exact ⟨δ, (htr.pushes.pending t r hh δ hδ).2⟩
    · obtain ⟨δ, -, hp⟩ := htr.pushes.owed t r hh d hd
      exact ⟨δ, hp⟩
  obtain ⟨δ, -, step, g, hp, -⟩ := hpush
  exact (hg.pushed d step g hp).1 d (hg.present d (by rw [hp]; simp))

lemma GroupInv.step (h : s.GroupInv members) (htr : s.Tracked env ids)
    (hsteady : s.sys.SteadyInv) (hids : Function.Injective ids) (hk : s.Covers env a)
    (hstep : s.step env ids a = some s') (htrain : s.Trains members a) : s'.GroupInv members := by
  have hgather : s.Gathered members → s'.Gathered members := fun hg d hd =>
    registered_step hids htr.sound hsteady hstep (hg d hd)
  -- the thread that completes a round is that of a worker that pushes
  have hfires : ∀ {t now m v}, (s.sys.conns t).handler = .dispatch m →
      (s.sys.conns t).workerId = some v → m.type = .pushGradients → ∀ {g}, m.gradients = some g →
      a = .server (.run t now) → s.Gathered members := by
    intro t now m v hm hv ht g hg _
    obtain ⟨-, -, step, g, hp, -⟩ := htr.sound.pushing_of_submits (b := .run t now)
      ⟨⟨now, rfl⟩, ⟨m, hm, ht, hg⟩, hv⟩
    exact (h.pushed t step g hp).1
  refine {
    present := ?present
    pushed := ?pushed
    full := ?full
    begun := ?begun
    single := ?single
    reset := ?reset }
  case present =>
    intro d hd
    rcases present_of hstep hd with hold | rfl
    · exact h.present d hold
    · exact htrain
  case pushed =>
    intro d step g hp
    rcases waiting_of hstep hp with ⟨hold, l, hl⟩ | ⟨-, rfl, hcall⟩
    · obtain ⟨hg, hw⟩ := h.pushed d step g hold
      exact ⟨hgather hg, by rw [hl]; exact hw⟩
    · exact ⟨hgather htrain.1, by rw [hcall]; exact htrain.2⟩
  case full =>
    intro t r hh
    rcases rule_of_sys hstep hk with he | ⟨b, hr, -, hcl⟩
    · exact h.full t r (he ▸ hh)
    · rcases hr.apply_of hh with hold | ⟨now, m, v, g, norm, rfl, hm, hv, ht, hg, -, -, rfl⟩
      · exact h.full t r hold
      · exact hfires hm hv ht hg (hcl rfl).1
  case begun =>
    intro hne
    rcases rule_of_sys hstep hk with he | ⟨b, hr, -, -⟩
    · exact hgather (h.begun (he ▸ hne))
    · rcases hr.applied_of with he | ⟨t, r, happ⟩
      · exact hgather (h.begun (he ▸ hne))
      · obtain ⟨δ, hδ, -⟩ := htr.deltas.pending_own t r happ.handler
        obtain ⟨-, -, step, g, hp, -⟩ := htr.pushes.pending t r happ.handler δ hδ
        exact hgather (h.pushed _ step g hp).1
  case single =>
    intro t u ht hu
    rcases rule_of_sys hstep hk with he | ⟨b, hr, hkb, -⟩
    · exact h.single t u (he ▸ ht) (he ▸ hu)
    · rcases hr.inRound_of ht with ht | ⟨now, m, v, rfl, hm, hv, hf⟩
      · rcases hr.inRound_of hu with hu | ⟨now, m, v, rfl, hm, hv, hf⟩
        · exact h.single t u ht hu
        · rw [htr.sound.not_inRound_of_fires hids hsteady hkb hm hv hf t] at ht
          cases ht
      · rcases hr.inRound_of hu with hu | ⟨now', m', v', ha, -⟩
        · rw [htr.sound.not_inRound_of_fires hids hsteady hkb hm hv hf u] at hu
          cases hu
        · cases ha
          rfl
  case reset =>
    intro d
    rcases rule_of_sys hstep hk with he | ⟨b, hr, -, -⟩
    · rw [he]; exact h.reset d
    · refine Bool.eq_false_iff.mpr ?_
      intro hd
      rcases hr.reset_of hd with hold | heof | ⟨t, ho, hb⟩
      · rw [h.reset d] at hold
        cases hold
      · rw [hsteady.eof d] at heof
        cases heof
      · exact htr.sound.not_broken hsteady (htr.registered_of_owed h ho) hb

/-- In a group, no pull is served while a round is about to be applied. -/
lemma GroupInv.pullsApart (h : s.GroupInv members) (hs : s.Sound env ids) (a : ClusterAction α) :
    s.PullsApart a := by
  cases a with
  | server b =>
    cases b with
    | run c now =>
      intro m hm _ t r hh
      obtain ⟨q, hq, -, -, -, -, -, ht⟩ := (hs.stage c).of_held (m := m)
        (by simp only [System.view, hm]; rfl)
      have hmem : c ∈ members := h.present c fun he => by
        have he' : (s.sys.view (s.clients c) (ids c) c).phase = .away := he
        rw [hq] at he'
        cases he'
      refine Handler.talk_of_owed ?_ (ht t)
      rw [hh]
      exact h.full t r hh c hmem
    | _ => trivial
  | _ => trivial

lemma Trains.pushesTrained (h : s.Trains members a) : s.PushesTrained a := by
  cases a with
  | request c q =>
    cases q with
    | pushGradients step g =>
      obtain ⟨-, w, model, hw, -, hd⟩ := h
      exact ⟨w, model, hw, hd⟩
    | _ => trivial
  | _ => trivial

/-- The invariants of the runs of a group. -/
lemma group_of_reach {ok : Cluster α → ClusterAction α → Cluster α → Prop} {st : WeightStore α}
    {timeout : ℚ} (hids : Function.Injective ids) (hp : env.pickle.Lawful)
    (hsync : GradientAggregator.minReady env.config ≤ 0)
    (h : Reach (Cluster.step env ids) ok (.init st timeout) s)
    (hok : ∀ {s a s'}, ok s a s' → s.Steady a s' ∧ s.Trains members a) :
    s.Synchronous env ids ∧ s.GroupInv members := by
  have hgroup : ∀ {s}, Reach (Cluster.step env ids) ok (.init st timeout) s →
      s.Sound env ids ∧ s.GroupInv members := by
    intro s h
    refine h.invariant_reach (P := fun s => s.Sound env ids ∧ s.GroupInv members)
      ⟨sound_init env ids st timeout, groupInv_init members st timeout⟩ ?_
    rintro s a s' hr ⟨hs, hg⟩ hstep hk
    obtain ⟨htr, hsteady⟩ := steady_of_reach hids hp hsync hr fun hk => (hok hk).1
    have hcov := covers_of_sync hsync hsteady a
    exact ⟨hs.step hids hp hstep hcov,
      hg.step htr hsteady hids hcov hstep (hok hk).2⟩
  have hrun : Reach (Cluster.step env ids)
      (fun s a s' => s.Steady a s' ∧ s.PushesTrained a ∧ s.PullsApart a) (.init st timeout) s := by
    refine h.mono_of hgroup ?_
    intro t a t' hs _ hk
    exact ⟨(hok hk).1, (hok hk).2.pushesTrained, hs.2.pullsApart hs.1 _⟩
  exact ⟨synchronous_of_reach hids hp hsync hrun id, (hgroup h).2⟩

end Cluster

end DistributedRL
