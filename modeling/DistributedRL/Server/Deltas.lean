import DistributedRL.Data.Transition
import DistributedRL.Server.Rules

/-!
# Where a delta is

A delta enters the buffer, is taken out with a round, and is applied. Whatever the clients do, it
is never in two of these places, so no delta is averaged into the weights twice.
-/

namespace DistributedRL

variable {α : Type*}

/-- The thread holds a message whose push has not been submitted. -/
def Handler.Holding : Handler α → Bool
  | .register _ | .registerSocket _ | .dispatch _ => true
  | _ => false

namespace System

/-- The delta identified by `i` is in the buffer. -/
def Buffered (s : System α) (i : ConnId × ℕ) : Prop :=
  ∃ w δ, s.agg.buffer.get? w = some δ ∧ δ.id = i

/-- It is in a round that the thread of `t` is about to apply. -/
def Pending (s : System α) (t : ConnId) (i : ConnId × ℕ) : Prop :=
  ∃ r, (s.conns t).handler = .apply r ∧ i ∈ r.deltas.map Delta.id

/-- The deltas averaged so far, once for each `apply_gradients` call that averaged them. -/
def averaged (s : System α) : List (ConnId × ℕ) :=
  s.history.applied.flatMap fun x => x.deltas.map Delta.id

/-- The message that `i` refers to has been read, and is not the one the thread holds. -/
def Spent (s : System α) (i : ConnId × ℕ) : Prop :=
  i.2 ≤ (s.conns i.1).received ∧
    ((s.conns i.1).handler.Holding → i.2 < (s.conns i.1).received)

/-- Every delta is in one place, and there once. -/
structure DeltasInv (s : System α) : Prop where
  buffered_spent : ∀ i, s.Buffered i → s.Spent i
  pending_spent : ∀ t i, s.Pending t i → s.Spent i
  averaged_spent : ∀ i ∈ s.averaged, s.Spent i
  key : ∀ w δ, s.agg.buffer.get? w = some δ → (s.conns δ.conn).workerId = some w
  buffered_pending : ∀ t i, s.Buffered i → ¬ s.Pending t i
  buffered_averaged : ∀ i, s.Buffered i → i ∉ s.averaged
  pending_pending : ∀ t u i, s.Pending t i → s.Pending u i → t = u
  pending_averaged : ∀ t i, s.Pending t i → i ∉ s.averaged
  pending_nodup : ∀ t r, (s.conns t).handler = .apply r → (r.deltas.map Delta.conn).Nodup
  pending_own : ∀ t r, (s.conns t).handler = .apply r → ∃ δ ∈ r.deltas, δ.conn = t
  averaged_nodup : s.averaged.Nodup

lemma deltasInv_init (st : WeightStore α) (timeout : ℚ) : (init st timeout).DeltasInv where
  buffered_spent := by rintro i ⟨w, δ, h, -⟩; cases h
  pending_spent := by rintro t i ⟨r, h, -⟩; cases h
  averaged_spent := by rintro i h; cases h
  key := by rintro w δ h; cases h
  buffered_pending := by rintro t i ⟨w, δ, h, -⟩; cases h
  buffered_averaged := by rintro i ⟨w, δ, h, -⟩; cases h
  pending_pending := by rintro t u i ⟨r, h, -⟩; cases h
  pending_averaged := by rintro t i ⟨r, h, -⟩; cases h
  pending_nodup := by rintro t r h; cases h
  pending_own := by rintro t r h; cases h
  averaged_nodup := List.nodup_nil

variable {s s' : System α}

/-- Steps that put no delta anywhere new. -/
lemma DeltasInv.frame (hs : s.DeltasInv) (hspent : ∀ i, s.Spent i → s'.Spent i)
    (hw : ∀ d w, (s.conns d).workerId = some w → (s'.conns d).workerId = some w)
    (hbuf : ∀ w δ, s'.agg.buffer.get? w = some δ → s.agg.buffer.get? w = some δ)
    (hpend : ∀ t r, (s'.conns t).handler = .apply r → (s.conns t).handler = .apply r)
    (happ : s'.history.applied = s.history.applied) : s'.DeltasInv := by
  have hb : ∀ i, s'.Buffered i → s.Buffered i := by
    rintro i ⟨w, δ, h, hi⟩
    exact ⟨w, δ, hbuf w δ h, hi⟩
  have hp : ∀ t i, s'.Pending t i → s.Pending t i := by
    rintro t i ⟨r, h, hi⟩
    exact ⟨r, hpend t r h, hi⟩
  have ha : s'.averaged = s.averaged := by rw [averaged, averaged, happ]
  refine ⟨fun i h => hspent i (hs.buffered_spent i (hb i h)),
    fun t i h => hspent i (hs.pending_spent t i (hp t i h)),
    fun i h => hspent i (hs.averaged_spent i (ha ▸ h)),
    fun w δ h => hw _ w (hs.key w δ (hbuf w δ h)),
    fun t i h h' => hs.buffered_pending t i (hb i h) (hp t i h'),
    fun i h h' => hs.buffered_averaged i (hb i h) (ha ▸ h'),
    fun t u i h h' => hs.pending_pending t u i (hp t i h) (hp u i h'),
    fun t i h h' => hs.pending_averaged t i (hp t i h) (ha ▸ h'),
    fun t r h => hs.pending_nodup t r (hpend t r h),
    fun t r h => hs.pending_own t r (hpend t r h), ?_⟩
  rw [ha]
  exact hs.averaged_nodup

/-- The message that a thread is about to submit is not spent. -/
lemma not_spent_delta {c : ConnId} {m : Message α} (h : (s.conns c).handler = .dispatch m)
    (g : Payload α) : ¬ s.Spent (s.delta c g).id := by
  rintro ⟨-, hlt⟩
  exact lt_irrefl _ (hlt (by simp [h, delta, Delta.id, Handler.Holding]))

/-- The delta that a thread is about to submit is new. -/
lemma DeltasInv.fresh (hs : s.DeltasInv) {c : ConnId} {m : Message α}
    (h : (s.conns c).handler = .dispatch m) (g : Payload α) :
    ¬ s.Buffered (s.delta c g).id ∧ (∀ t, ¬ s.Pending t (s.delta c g).id) ∧
      (s.delta c g).id ∉ s.averaged := by
  have hnot := not_spent_delta h g
  exact ⟨fun hb => hnot (hs.buffered_spent _ hb), fun t hp => hnot (hs.pending_spent t _ hp),
    fun ha => hnot (hs.averaged_spent _ ha)⟩

/-- A push that is put into the buffer and stays there. -/
lemma DeltasInv.accept (hs : s.DeltasInv) {c : ConnId} {m : Message α} {w : WorkerId}
    {g : Payload α} (h : (s.conns c).handler = .dispatch m)
    (hspent : ∀ i, s.Spent i → s'.Spent i) (hnew : s'.Spent (s.delta c g).id)
    (hw : ∀ d v, (s.conns d).workerId = some v → (s'.conns d).workerId = some v)
    (hcw : (s.conns c).workerId = some w)
    (hbuf : s'.agg.buffer = s.agg.buffer.set w (s.delta c g))
    (hpend : ∀ t r, (s'.conns t).handler = .apply r → (s.conns t).handler = .apply r)
    (happ : s'.history.applied = s.history.applied) : s'.DeltasInv := by
  obtain ⟨-, hfp, hfa⟩ := hs.fresh h g
  have hb : ∀ i, s'.Buffered i → i = (s.delta c g).id ∨ s.Buffered i := by
    rintro i ⟨v, δ, hv, rfl⟩
    rw [hbuf, Dict.get?_set] at hv
    split_ifs at hv
    · cases hv; exact Or.inl rfl
    · exact Or.inr ⟨v, δ, hv, rfl⟩
  have hp : ∀ t i, s'.Pending t i → s.Pending t i := by
    rintro t i ⟨r, h, hi⟩
    exact ⟨r, hpend t r h, hi⟩
  have ha : s'.averaged = s.averaged := by rw [averaged, averaged, happ]
  refine ⟨?_, fun t i hi => hspent i (hs.pending_spent t i (hp t i hi)),
    fun i hi => hspent i (hs.averaged_spent i (ha ▸ hi)), ?_, ?_,
    ?_, fun t u i hi hi' => hs.pending_pending t u i (hp t i hi) (hp u i hi'),
    fun t i hi hi' => hs.pending_averaged t i (hp t i hi) (ha ▸ hi'),
    fun t r hr => hs.pending_nodup t r (hpend t r hr),
    fun t r hr => hs.pending_own t r (hpend t r hr), ?_⟩
  · intro i hi
    rcases hb i hi with rfl | hi
    · exact hnew
    · exact hspent i (hs.buffered_spent i hi)
  · intro v δ hv
    rw [hbuf, Dict.get?_set] at hv
    split_ifs at hv with hvw
    · cases hv; exact hvw ▸ hw c w hcw
    · exact hw _ v (hs.key v δ hv)
  · intro t i hi hi'
    rcases hb i hi with rfl | hi
    · exact hfp t (hp t _ hi')
    · exact hs.buffered_pending t i hi (hp t i hi')
  · intro i hi hi'
    rw [ha] at hi'
    rcases hb i hi with rfl | hi
    · exact hfa hi'
    · exact hs.buffered_averaged i hi hi'
  · rw [ha]
    exact hs.averaged_nodup

end System

/-! ### Steps -/

variable [Scalar α] {env : ServerEnv α} {s s' : System α} {a : Action α}

omit [Scalar α] in
@[simp] lemma System.holding_exit (s : System α) (c : ConnId) : (s.exit c).Holding = false := by
  rcases s.exit_cases c with h | h <;> rw [h] <;> rfl

omit [Scalar α] in
@[simp] lemma System.holding_replying (s : System α) (c : ConnId) (resp : Response α) :
    (s.replying env c resp).Holding = false := by
  rcases s.replying_cases c env resp with ⟨_, -, h⟩ | h <;> rw [h]
  · rfl
  · exact s.holding_exit c

omit [Scalar α] in
@[simp] lemma System.holding_acking (s : System α) (c : ConnId) (r : Round α) (step : ℕ)
    (todo : List ConnId) : (s.acking env c r step todo).Holding = false := by
  rcases s.acking_cases c env r step todo with ⟨-, h⟩ | ⟨-, _, -, h⟩ | h <;> rw [h]
  · rfl
  · rfl
  · exact s.holding_exit c

/-- A thread that holds no message reads one, or none; one that holds a message keeps it. -/
lemma Rule.received (hr : Rule env s a s') (d : ConnId) :
    ((s'.conns d).received = (s.conns d).received ∧
      ((s'.conns d).handler.Holding → (s.conns d).handler.Holding)) ∨
      (¬ (s.conns d).handler.Holding ∧
        (s'.conns d).received = (s.conns d).received + 1) := by
  cases hr
  case scan => exact Or.inl ⟨rfl, id⟩
  case arrive c x h he => exact Or.inl (by by_cases hd : d = c <;> simp [hd])
  case hangup c h => exact Or.inl (by by_cases hd : d = c <;> simp [hd])
  case unreadable c now rest h hi =>
    by_cases hd : d = c
    · exact Or.inr (by simp [hd, h, Handler.Holding])
    · exact Or.inl (by simp [hd])
  case anonymous c now m rest h hi hw hm =>
    by_cases hd : d = c
    · exact Or.inr (by simp [hd, h, Handler.Holding])
    · exact Or.inl (by simp [hd])
  case identify c now m rest w h hi hw hm =>
    by_cases hd : d = c
    · exact Or.inr (by simp [hd, h, Handler.Holding])
    · exact Or.inl (by simp [hd])
  case next c now m rest w h hi hw =>
    by_cases hd : d = c
    · exact Or.inr (by simp [hd, h, Handler.Holding])
    · exact Or.inl (by simp [hd])
  case checkpoint c now step h =>
    refine Or.inl ⟨by simp, ?_⟩
    by_cases hd : d = c
    · simp only [System.handler_goto, hd, if_true]
      split_ifs <;> simp [Handler.Holding]
    · simp [hd]
  all_goals
    refine Or.inl ⟨by simp [System.heartbeat], ?_⟩
    simp only [System.handler_goto, System.handler_send, System.handler_reset,
      System.heartbeat]
    split_ifs with hd
    · first
        | simp only [System.holding_exit, System.holding_replying, System.holding_acking,
            Bool.false_eq_true, false_implies]
        | simp_all [Handler.Holding]
    · exact id

lemma Rule.spent (hr : Rule env s a s') {i : ConnId × ℕ} (hi : s.Spent i) : s'.Spent i := by
  obtain ⟨hle, hlt⟩ := hi
  rcases hr.received i.1 with ⟨hrec, hhold⟩ | ⟨hhold, hrec⟩
  · refine ⟨by rw [hrec]; exact hle, ?_⟩
    intro h
    rw [hrec]
    exact hlt (hhold h)
  · rw [System.Spent, hrec]
    exact ⟨hle.trans (Nat.le_succ _), fun _ => Nat.lt_succ_of_le hle⟩

/-- The only way to be about to apply a round is to have fired it. -/
lemma Rule.apply_of (hr : Rule env s a s') {t : ConnId} {r : Round α}
    (h : (s'.conns t).handler = .apply r) :
    (s.conns t).handler = .apply r ∨ ∃ now m w g norm, a = .run t now ∧
      (s.conns t).handler = .dispatch m ∧ (s.conns t).workerId = some w ∧
      m.type = .pushGradients ∧ m.gradients = some g ∧ gradNorm env.sqrt g = .ok norm ∧
      (s.agg.enter w (s.delta t g) norm).ShouldApply env.config s.hb ∧
      r = (s.agg.enter w (s.delta t g) norm).round := by
  cases hr
  case fired c now m w g norm hh hw ht hg hn hs =>
    by_cases htc : t = c
    · subst htc
      refine Or.inr ⟨now, m, w, g, norm, rfl, hh, hw, ht, hg, hn, hs, ?_⟩
      simpa using h.symm
    · exact Or.inl (by simpa [htc] using h)
  case scan => exact Or.inl h
  case checkpoint c now step hh =>
    simp only [System.handler_goto] at h
    split_ifs at h
    exact Or.inl h
  all_goals
    simp only [System.handler_goto, System.conns_setConn, System.handler_send,
      System.heartbeat] at h
    split_ifs at h with ht
    all_goals simp_all

omit [Scalar α] in
lemma System.spent_delta {c : ConnId} {g : Payload α}
    (hrec : (s'.conns c).received = (s.conns c).received)
    (hh : (s'.conns c).handler.Holding = false) : s'.Spent (s.delta c g).id := by
  refine ⟨hrec.symm.le, ?_⟩
  intro h
  have hh' : (s'.conns (s.delta c g).id.1).handler.Holding = false := hh
  rw [hh'] at h
  cases h

omit [Scalar α] in
/-- A round has the new delta and those of the other workers in the buffer. -/
lemma GradientAggregator.mem_round_enter {agg : GradientAggregator α} {w : WorkerId}
    {δ new : Delta α} {norm : α} (h : δ ∈ (agg.enter w new norm).round.deltas) :
    δ = new ∨ ∃ v, agg.buffer.get? v = some δ := by
  obtain ⟨v, hv⟩ := Dict.mem_values_iff.mp h
  rw [get?_buffer_enter] at hv
  split_ifs at hv with hvw
  · cases hv
    exact Or.inl rfl
  · exact Or.inr ⟨v, hv⟩

omit [Scalar α] in
/-- The deltas of a round come from different connections, since every entry of the buffer is keyed
by the worker of its connection. -/
lemma System.DeltasInv.nodup_round (hs : s.DeltasInv) {c : ConnId} {w : WorkerId} (g : Payload α)
    (norm : α) (hcw : (s.conns c).workerId = some w) :
    ((s.agg.enter w (s.delta c g) norm).round.deltas.map Delta.conn).Nodup := by
  have hkey : ∀ p ∈ (s.agg.enter w (s.delta c g) norm).buffer.entries,
      (s.conns p.2.conn).workerId = some p.1 := by
    rintro ⟨v, δ⟩ hp
    have hv := Dict.get?_eq_some_iff.mpr hp
    rw [GradientAggregator.get?_buffer_enter] at hv
    split_ifs at hv with hvw
    · cases hv
      exact hvw ▸ hcw
    · exact hs.key v δ hv
  have hnodup := (s.agg.enter w (s.delta c g) norm).buffer.nodup
  simp only [GradientAggregator.deltas_round, Dict.values, List.map_map]
  refine List.Nodup.of_map (fun d => (s.conns d).workerId) ?_
  rw [List.map_map]
  have hmap : ((s.agg.enter w (s.delta c g) norm).buffer.entries.map
      ((fun d => (s.conns d).workerId) ∘ (Delta.conn ∘ Prod.snd))) =
      ((s.agg.enter w (s.delta c g) norm).buffer.entries.map Prod.fst).map some := by
    rw [List.map_map]
    exact List.map_congr_left hkey
  rw [hmap]
  exact hnodup.map (Option.some_injective _)

omit [Scalar α] in
/-- A round that fires moves the whole buffer to the thread that fired it. -/
lemma System.DeltasInv.fire (hs : s.DeltasInv) {c : ConnId} {m : Message α} {w : WorkerId}
    (g : Payload α) (norm : α) (h : (s.conns c).handler = .dispatch m)
    (hcw : (s.conns c).workerId = some w)
    (hspent : ∀ i, s.Spent i → s'.Spent i) (hnew : s'.Spent (s.delta c g).id)
    (hbuf : s'.agg.buffer = ∅)
    (hpend : ∀ t r, (s'.conns t).handler = .apply r → t ≠ c → (s.conns t).handler = .apply r)
    (hc : ∀ r, (s'.conns c).handler = .apply r → r = (s.agg.enter w (s.delta c g) norm).round)
    (happ : s'.history.applied = s.history.applied) : s'.DeltasInv := by
  obtain ⟨hfb, hfp, hfa⟩ := hs.fresh h g
  have ha : s'.averaged = s.averaged := by rw [averaged, averaged, happ]
  have hnb : ∀ i, ¬ s'.Buffered i := by
    rintro i ⟨v, δ, hv, -⟩
    rw [hbuf] at hv
    cases hv
  -- the round of `c` is the buffer with the new delta; the other rounds are as before
  have hpc : ∀ i, s'.Pending c i → i = (s.delta c g).id ∨ s.Buffered i := by
    rintro i ⟨r, hr, hi⟩
    rw [hc r hr] at hi
    obtain ⟨δ, hδ, rfl⟩ := List.mem_map.mp hi
    rcases GradientAggregator.mem_round_enter hδ with rfl | ⟨v, hv⟩
    · exact Or.inl rfl
    · exact Or.inr ⟨v, δ, hv, rfl⟩
  have hpo : ∀ t i, t ≠ c → s'.Pending t i → s.Pending t i := by
    rintro t i htc ⟨r, hr, hi⟩
    exact ⟨r, hpend t r hr htc, hi⟩
  -- what is pending with another thread was neither buffered nor new
  have hsep : ∀ t i, t ≠ c → s'.Pending c i → ¬ s'.Pending t i := by
    intro t i htc hi hi'
    rcases hpc i hi with rfl | hb
    · exact hfp t (hpo t _ htc hi')
    · exact hs.buffered_pending t i hb (hpo t i htc hi')
  refine {
    buffered_spent := fun i hi => absurd hi (hnb i)
    pending_spent := ?pending_spent
    averaged_spent := fun i hi => hspent i (hs.averaged_spent i (ha ▸ hi))
    key := ?key
    buffered_pending := fun t i hi => absurd hi (hnb i)
    buffered_averaged := fun i hi => absurd hi (hnb i)
    pending_pending := ?pending_pending
    pending_averaged := ?pending_averaged
    pending_nodup := ?pending_nodup
    pending_own := ?pending_own
    averaged_nodup := ?averaged_nodup }
  case pending_spent =>
    intro t i hi
    by_cases htc : t = c
    · subst htc
      rcases hpc i hi with rfl | hb
      · exact hnew
      · exact hspent i (hs.buffered_spent i hb)
    · exact hspent i (hs.pending_spent t i (hpo t i htc hi))
  case key =>
    intro v δ hv
    rw [hbuf] at hv
    cases hv
  case pending_pending =>
    intro t u i hi hi'
    by_cases htc : t = c
    · subst htc
      by_contra hne
      exact hsep u i (Ne.symm hne) hi hi'
    · by_cases huc : u = c
      · subst huc
        exact absurd hi (hsep t i htc hi')
      · exact hs.pending_pending t u i (hpo t i htc hi) (hpo u i huc hi')
  case pending_averaged =>
    intro t i hi hi'
    rw [ha] at hi'
    by_cases htc : t = c
    · subst htc
      rcases hpc i hi with rfl | hb
      · exact hfa hi'
      · exact hs.buffered_averaged i hb hi'
    · exact hs.pending_averaged t i (hpo t i htc hi) hi'
  case pending_nodup =>
    intro t r hr
    by_cases htc : t = c
    · subst htc
      rw [hc r hr]
      exact hs.nodup_round g norm hcw
    · exact hs.pending_nodup t r (hpend t r hr htc)
  case pending_own =>
    intro t r hr
    by_cases htc : t = c
    · subst htc
      rw [hc r hr]
      refine ⟨s.delta t g, Dict.mem_values_iff.mpr ⟨w, ?_⟩, rfl⟩
      simp
    · exact hs.pending_own t r (hpend t r hr htc)
  case averaged_nodup =>
    rw [ha]
    exact hs.averaged_nodup

omit [Scalar α] in
/-- A round that has been applied moves from its thread to the past. -/
lemma System.DeltasInv.apply (hs : s.DeltasInv) {c : ConnId} {r : Round α}
    {before after : WeightStore α} (h : (s.conns c).handler = .apply r)
    (hspent : ∀ i, s.Spent i → s'.Spent i)
    (hw : ∀ d w, (s.conns d).workerId = some w → (s'.conns d).workerId = some w)
    (hbuf : s'.agg.buffer = s.agg.buffer)
    (hpend : ∀ t r, (s'.conns t).handler = .apply r → t ≠ c ∧ (s.conns t).handler = .apply r)
    (happ : s'.history.applied = ⟨r.deltas, before, after⟩ :: s.history.applied) :
    s'.DeltasInv := by
  have ha : s'.averaged = r.deltas.map Delta.id ++ s.averaged := by
    rw [averaged, averaged, happ, List.flatMap_cons]
  have hb : ∀ i, s'.Buffered i → s.Buffered i := by
    rintro i ⟨v, δ, hv, hi⟩
    exact ⟨v, δ, hbuf ▸ hv, hi⟩
  have hp : ∀ t i, s'.Pending t i → t ≠ c ∧ s.Pending t i := by
    rintro t i ⟨r', hr', hi⟩
    exact ⟨(hpend t r' hr').1, r', (hpend t r' hr').2, hi⟩
  have hmem : ∀ i, i ∈ s'.averaged → s.Pending c i ∨ i ∈ s.averaged := by
    intro i hi
    rw [ha] at hi
    exact (List.mem_append.mp hi).imp_left fun hi => ⟨r, h, hi⟩
  refine ⟨fun i hi => hspent i (hs.buffered_spent i (hb i hi)),
    fun t i hi => hspent i (hs.pending_spent t i (hp t i hi).2), ?_,
    fun v δ hv => hw _ v (hs.key v δ (hbuf ▸ hv)),
    fun t i hi hi' => hs.buffered_pending t i (hb i hi) (hp t i hi').2, ?_,
    fun t u i hi hi' => hs.pending_pending t u i (hp t i hi).2 (hp u i hi').2,
    ?_, fun t r hr => hs.pending_nodup t r (hpend t r hr).2,
    fun t r hr => hs.pending_own t r (hpend t r hr).2, ?_⟩
  · intro i hi
    rcases hmem i hi with hi | hi
    · exact hspent i (hs.pending_spent c i hi)
    · exact hspent i (hs.averaged_spent i hi)
  · intro i hi hi'
    rcases hmem i hi' with hi' | hi'
    · exact hs.buffered_pending c i (hb i hi) hi'
    · exact hs.buffered_averaged i (hb i hi) hi'
  · intro t i hi hi'
    obtain ⟨htc, hi⟩ := hp t i hi
    rcases hmem i hi' with hi' | hi'
    · exact htc (hs.pending_pending t c i hi hi')
    · exact hs.pending_averaged t i hi hi'
  · rw [ha]
    refine List.nodup_append.mpr ⟨?_, hs.averaged_nodup, ?_⟩
    · refine List.Nodup.of_map Prod.fst ?_
      rw [List.map_map]
      exact hs.pending_nodup c r h
    · rintro i hi j hj rfl
      exact hs.pending_averaged c i ⟨r, h, hi⟩ hj

lemma Rule.deltasInv (hr : Rule env s a s') (hs : s.DeltasInv) : s'.DeltasInv := by
  have hspent := fun i => hr.spent (i := i)
  have hw := fun d w => hr.workerId (d := d) (w := w)
  have hpend := fun t r => hr.apply_of (t := t) (r := r)
  cases hr
  case raised c now m w g e h hcw ht hg hn =>
    refine hs.accept (g := g) h hspent (System.spent_delta (by simp) (by simp)) hw hcw rfl
      ?_ rfl
    intro t r hr
    rcases hpend t r hr with h' | ⟨_, m', _, g', norm, _, hm, -, -, hg', hn', -⟩
    · exact h'
    · simp_all
  case buffered c now m w g norm h hcw ht hg hn hsub =>
    refine hs.accept (g := g) h hspent
      (System.spent_delta (by simp) (by simp [Handler.Holding])) hw hcw rfl ?_ rfl
    intro t r hr
    rcases hpend t r hr with h' | ⟨_, m', _, g', norm, ha, hm, hw', -, hg', hn', hs', -⟩
    · exact h'
    · cases ha
      simp_all
  case fired c now m w g norm h hcw ht hg hn hsub =>
    refine hs.fire g norm h hcw hspent
      (System.spent_delta (by simp) (by simp [Handler.Holding])) rfl
      ?_ ?_ rfl
    · intro t r hr htc
      simpa [htc] using hr
    · intro r hr
      simpa using hr.symm
  case applied c now r st h hok =>
    refine hs.apply h hspent hw rfl ?_ rfl
    intro t r' hr
    by_cases htc : t = c
    · simp [htc] at hr
    · exact ⟨htc, by simpa [htc] using hr⟩
  case unregister c now w h hcw =>
    refine hs.frame hspent hw ?_ ?_ rfl
    · intro v δ hv
      simp only [System.agg_goto, GradientAggregator.get?_buffer_unregister] at hv
      split_ifs at hv
      exact hv
    · intro t r hr
      rcases hpend t r hr with h' | ⟨_, m', _, g', norm, ha, hm, -⟩
      · exact h'
      · cases ha
        simp_all
  all_goals
    refine hs.frame hspent hw (fun _ _ hv => hv) ?_ rfl
    intro t r hr
    rcases hpend t r hr with h' | ⟨_, m', _, g', norm, ha, hm, hw', ht', hg', hn', hs', -⟩
    · exact h'
    · cases ha <;> simp_all

/-- In every run, whatever the clients send, every delta is in one place. -/
lemma System.deltasInv_of_reach {ok : System α → Action α → System α → Prop} {st : WeightStore α}
    {timeout : ℚ} (h : Reach (System.step env) ok (.init st timeout) s) : s.DeltasInv :=
  h.invariant (P := DeltasInv) (deltasInv_init st timeout) fun hs hstep _ =>
    (rule_of_step hstep).deltasInv hs

end DistributedRL
