import DistributedRL.Server.ApplyGradients

/-!
# Half-applied updates

The loop of `apply_gradients` commits a parameter before it looks at the deltas of the next one,
so a call that raises leaves the parameters before the failing one updated, under the old step
number. It leaves the store alone exactly when those updates happen to change nothing.
-/

namespace DistributedRL

variable {α : Type*} [Scalar α]

namespace WeightStore

/-! ### The turn for one parameter -/

/-- `self.momentum * self.momentum_buffers[name] + avg_grad`, `none` where it raises. -/
def velocity (st : WeightStore α) (grads : List (Payload α)) (name : String) :
    Option (NDArray α) :=
  (averageGrad grads name).toOption.bind fun avgGrad =>
    (st.momentumBuffers.get? name).bind fun b =>
      (b.map (st.momentum * ·)).binop (· + ·) avgGrad

/-- `self.weights[name] - current_lr * v`, `none` where it raises. -/
def moved (st : WeightStore α) (name : String) (v : NDArray α) : Option (NDArray α) :=
  (st.weights.get? name).bind fun w => w.binop (· - ·) (v.map (st.baseLr * ·))

/-- The turn for the parameter raises. -/
def Fails (st : WeightStore α) (grads : List (Payload α)) (name : String) : Prop :=
  (st.velocity grads name).bind (st.moved name) = none

/-- The turn for the parameter, as far as it gets, assigns the arrays that are there already. -/
def Still (st : WeightStore α) (grads : List (Payload α)) (name : String) : Prop :=
  ∀ v, st.velocity grads name = some v → st.momentumBuffers.get? name = some v ∧
    ∀ w, st.moved name v = some w → st.weights.get? name = some w

/-- The call raises. -/
def Raises (st : WeightStore α) (grads : List (Payload α)) : Prop :=
  ∃ e, (st.applyGradients grads).2 = .error e

/-- The parameter is the first one whose turn raises, and `before` are those updated by then. -/
def StopsAt (st : WeightStore α) (grads : List (Payload α)) (before : List String)
    (name : String) : Prop :=
  (∃ rest, st.weights.keys = before ++ name :: rest) ∧ (∀ n ∈ before, ¬ st.Fails grads n) ∧
    st.Fails grads name

variable {st st' : WeightStore α} {grads : List (Payload α)} {name : String} {names : List String}

lemma exists_stopsAt (h : ∃ n ∈ st.weights.keys, st.Fails grads n) :
    ∃ before name, st.StopsAt grads before name := by
  classical
  obtain ⟨n, hn, hfail⟩ := h
  have hsome : (st.weights.keys.find? fun n => st.Fails grads n).isSome :=
    List.find?_isSome.mpr ⟨n, hn, decide_eq_true hfail⟩
  obtain ⟨name, hname⟩ := Option.isSome_iff_exists.mp hsome
  obtain ⟨hfail, before, rest, hkeys, hok⟩ := List.find?_eq_some_iff_append.mp hname
  exact ⟨before, name, ⟨rest, hkeys⟩, fun n hn => by simpa using hok n hn, by simpa using hfail⟩

lemma applyParam_cases (st : WeightStore α) (grads : List (Payload α)) (name : String) :
    (st.velocity grads name = none ∧ ∃ e, applyParam grads name st = (st, .error e)) ∨
      ∃ v, st.velocity grads name = some v ∧
        ((st.moved name v = none ∧ ∃ e, applyParam grads name st =
          ({ st with momentumBuffers := st.momentumBuffers.set name v }, .error e)) ∨
          ∃ w, st.moved name v = some w ∧
            applyParam grads name st = (st.assign name v w, .ok ())) := by
  simp only [applyParam, velocity]
  cases averageGrad grads name with
  | error e => exact Or.inl ⟨rfl, e, rfl⟩
  | ok avg =>
    cases hb : st.momentumBuffers.get? name with
    | none => exact Or.inl ⟨rfl, _, rfl⟩
    | some b =>
      simp only [Except.toOption, Option.bind_some]
      cases hv : (b.map (st.momentum * ·)).binop (· + ·) avg with
      | none => exact Or.inl ⟨rfl, _, rfl⟩
      | some v =>
        refine Or.inr ⟨v, rfl, ?_⟩
        simp only [moved]
        cases hw : st.weights.get? name with
        | none => exact Or.inl ⟨rfl, _, rfl⟩
        | some w =>
          simp only [Option.bind_some]
          cases w.binop (· - ·) (v.map (st.baseLr * ·)) with
          | none => exact Or.inl ⟨rfl, _, rfl⟩
          | some w' => exact Or.inr ⟨w', rfl, rfl⟩

/-- What a turn does depends on its own parameter alone. -/
lemma SameExcept.velocity (h : SameExcept names st st') (hn : name ∉ names) :
    st'.velocity grads name = st.velocity grads name := by
  simp only [WeightStore.velocity, h.buffers name hn, h.momentum]

lemma SameExcept.moved (h : SameExcept names st st') (hn : name ∉ names) :
    st'.moved name = st.moved name := by
  funext v
  simp only [WeightStore.moved, h.weights name hn, h.baseLr]

lemma SameExcept.fails_iff (h : SameExcept names st st') (hn : name ∉ names) :
    st'.Fails grads name ↔ st.Fails grads name := by
  simp only [Fails, h.velocity hn, h.moved hn]

omit [Scalar α] in
lemma assign_eq_self_iff {v w : NDArray α} : st.assign name v w = st ↔
    st.momentumBuffers.get? name = some v ∧ st.weights.get? name = some w := by
  constructor
  · intro h
    have hv : (st.assign name v w).momentumBuffers.get? name = some v := by simp [assign]
    have hw : (st.assign name v w).weights.get? name = some w := by simp [assign]
    rw [h] at hv hw
    exact ⟨hv, hw⟩
  · rintro ⟨hv, hw⟩
    exact assign_eq_self hv hw

omit [Scalar α] in
lemma set_buffer_eq_self_iff {v : NDArray α} :
    { st with momentumBuffers := st.momentumBuffers.set name v } = st ↔
      st.momentumBuffers.get? name = some v := by
  constructor
  · intro h
    have hv : (st.momentumBuffers.set name v).get? name = some v := by simp
    have hbuf := congrArg momentumBuffers h
    rwa [show st.momentumBuffers.set name v = st.momentumBuffers from hbuf] at hv
  · intro hv
    rw [Dict.set_eq_self hv]

/-! ### The loop -/

lemma applyParams_of_not_fails (hsub : ∀ n ∈ names, n ∈ st.weights.keys) (hn : names.Nodup)
    (h : ∀ n ∈ names, ¬ st.Fails grads n) : (applyParams grads names st).2 = .ok () := by
  induction names generalizing st with
  | nil => rfl
  | cons first names ih =>
    obtain ⟨hfirst, hn⟩ := List.nodup_cons.mp hn
    have hmem := hsub first List.mem_cons_self
    have hok := h first List.mem_cons_self
    obtain ⟨hv, -⟩ | ⟨v, hv, ⟨hw, -⟩ | ⟨w, -, he⟩⟩ := applyParam_cases st grads first
    · exact absurd (by rw [Fails, hv, Option.bind_none]) hok
    · exact absurd (by rw [Fails, hv, Option.bind_some, hw]) hok
    · have hsame : SameExcept [first] st (st.assign first v w) := sameExcept_assign hmem
      simp only [applyParams, he]
      refine ih ?_ hn ?_
      · intro n hmem
        rw [hsame.keys]
        exact hsub n (List.mem_cons_of_mem _ hmem)
      · intro n hmem
        rw [hsame.fails_iff (by rintro h; exact hfirst (List.mem_singleton.mp h ▸ hmem))]
        exact h n (List.mem_cons_of_mem _ hmem)

/-- A loop that gets through has assigned to each parameter what its turn computes from the store
before the call. -/
lemma applyParams_get? (hsub : ∀ n ∈ names, n ∈ st.weights.keys) (hn : names.Nodup)
    (h : applyParams grads names st = (st', .ok ())) (hname : name ∈ names) :
    ∃ v w, st.velocity grads name = some v ∧ st.moved name v = some w ∧
      st'.momentumBuffers.get? name = some v ∧ st'.weights.get? name = some w := by
  induction names generalizing st with
  | nil => cases hname
  | cons first names ih =>
    obtain ⟨hfirst, hn⟩ := List.nodup_cons.mp hn
    have hmem := hsub first List.mem_cons_self
    obtain ⟨-, e, he⟩ | ⟨v, hv, ⟨-, e, he⟩ | ⟨w, hw, he⟩⟩ := applyParam_cases st grads first
    · simp [applyParams, he] at h
    · simp [applyParams, he] at h
    · simp only [applyParams, he] at h
      have hsame : SameExcept [first] st (st.assign first v w) := sameExcept_assign hmem
      have hkeys : ∀ n ∈ names, n ∈ (st.assign first v w).weights.keys := by
        intro n hn
        rw [hsame.keys]
        exact hsub n (List.mem_cons_of_mem _ hn)
      rcases List.mem_cons.mp hname with rfl | hname
      · -- the later turns leave the first parameter alone
        have hrest := sameExcept_applyParams grads hkeys
        rw [h] at hrest
        refine ⟨v, w, hv, hw, ?_, ?_⟩
        · rw [hrest.buffers name hfirst]
          simp [assign]
        · rw [hrest.weights name hfirst]
          simp [assign]
      · have hne : name ∉ [first] := by
          intro hmem
          exact hfirst (List.mem_singleton.mp hmem ▸ hname)
        obtain ⟨v', w', hv', hw', hget⟩ := ih hkeys hn h hname
        rw [hsame.velocity hne] at hv'
        rw [hsame.moved hne] at hw'
        exact ⟨v', w', hv', hw', hget⟩

/-- Two rounds with the same velocities do the same. -/
lemma applyParams_congr {grads' : List (Payload α)} (hsub : ∀ n ∈ names, n ∈ st.weights.keys)
    (hn : names.Nodup) (hv : ∀ n ∈ names, st.velocity grads' n = st.velocity grads n)
    (h : applyParams grads names st = (st', .ok ())) :
    applyParams grads' names st = (st', .ok ()) := by
  induction names generalizing st with
  | nil => exact h
  | cons first names ih =>
    obtain ⟨hfirst, hn⟩ := List.nodup_cons.mp hn
    have hmem := hsub first List.mem_cons_self
    obtain ⟨-, e, he⟩ | ⟨v, hvel, ⟨-, e, he⟩ | ⟨w, hw, he⟩⟩ := applyParam_cases st grads first
    · simp [applyParams, he] at h
    · simp [applyParams, he] at h
    · have hvel' := (hv first List.mem_cons_self).trans hvel
      obtain ⟨hnone, -⟩ | ⟨v', hv', ⟨hw', -⟩ | ⟨w', hw', he'⟩⟩ := applyParam_cases st grads' first
      · cases hnone.symm.trans hvel'
      · cases hvel'.symm.trans hv'
        cases hw'.symm.trans hw
      · cases hvel'.symm.trans hv'
        cases hw.symm.trans hw'
        have hsame : SameExcept [first] st (st.assign first v w) := sameExcept_assign hmem
        simp only [applyParams, he, he'] at h ⊢
        refine ih ?_ hn ?_ h
        · intro n hmem
          rw [hsame.keys]
          exact hsub n (List.mem_cons_of_mem _ hmem)
        · intro n hmem
          have hne : n ∉ [first] := fun h => hfirst (List.mem_singleton.mp h ▸ hmem)
          rw [hsame.velocity hne, hsame.velocity hne]
          exact hv n (List.mem_cons_of_mem _ hmem)

/-- The turn that raises leaves the store alone just if it is still. -/
lemma applyParam_of_fails (h : st.Fails grads name) :
    ∃ e, (applyParam grads name st).2 = .error e ∧
      ((applyParam grads name st).1 = st ↔ st.Still grads name) := by
  obtain ⟨hv, e, he⟩ | ⟨v, hv, ⟨hw, e, he⟩ | ⟨w, hw, -⟩⟩ := applyParam_cases st grads name
  · refine ⟨e, by rw [he], ?_⟩
    rw [he]
    exact iff_of_true rfl fun v hv' => by rw [hv] at hv'; cases hv'
  · refine ⟨e, by rw [he], ?_⟩
    rw [he, set_buffer_eq_self_iff]
    constructor
    · intro hb v' hv'
      rw [hv] at hv'
      cases hv'
      exact ⟨hb, fun w hw' => by rw [hw] at hw'; cases hw'⟩
    · intro hs
      exact (hs v hv).1
  · rw [Fails, hv, Option.bind_some, hw] at h
    cases h

/-- The loop stops at the first parameter whose turn raises, and has left the store alone just if
no turn up to it made a difference. The induction is on the parameters before it. -/
lemma applyParams_stops {before rest : List String}
    (hsub : ∀ n ∈ before ++ name :: rest, n ∈ st.weights.keys)
    (hn : (before ++ name :: rest).Nodup) (hok : ∀ n ∈ before, ¬ st.Fails grads n)
    (hfail : st.Fails grads name) :
    ∃ e, (applyParams grads (before ++ name :: rest) st).2 = .error e ∧
      ((applyParams grads (before ++ name :: rest) st).1 = st ↔
        ∀ n ∈ before ++ [name], st.Still grads n) := by
  induction before generalizing st with
  | nil =>
    obtain ⟨e, he, hiff⟩ := applyParam_of_fails hfail
    simp only [List.nil_append, applyParams, List.mem_singleton, forall_eq]
    split
    · next h => rw [h] at he; cases he
    · next st' e' h =>
      rw [h] at hiff
      exact ⟨e', rfl, hiff⟩
  | cons first before ih =>
    obtain ⟨hfirst, hn⟩ := List.nodup_cons.mp hn
    have hmem := hsub first List.mem_cons_self
    have hne : ∀ n ∈ before ++ name :: rest, n ∉ [first] := by
      intro n hmem h
      exact hfirst (List.mem_singleton.mp h ▸ hmem)
    obtain ⟨hv, -⟩ | ⟨v, hv, ⟨hw, -⟩ | ⟨w, hw, he⟩⟩ := applyParam_cases st grads first
    · exact absurd (by rw [Fails, hv, Option.bind_none]) (hok first List.mem_cons_self)
    · exact absurd (by rw [Fails, hv, Option.bind_some, hw]) (hok first List.mem_cons_self)
    · have hstill : st.Still grads first ↔ st.assign first v w = st := by
        rw [assign_eq_self_iff, Still]
        simp only [hv, Option.some.injEq, forall_eq', hw]
      have hsame : SameExcept [first] st (st.assign first v w) := sameExcept_assign hmem
      have hkeys : ∀ n ∈ before ++ name :: rest, n ∈ (st.assign first v w).weights.keys := by
        intro n hmem
        rw [hsame.keys]
        exact hsub n (List.mem_cons_of_mem _ hmem)
      have hok' : ∀ n ∈ before, ¬ (st.assign first v w).Fails grads n := by
        intro n hmem
        rw [hsame.fails_iff (hne n (List.mem_append_left _ hmem))]
        exact hok n (List.mem_cons_of_mem _ hmem)
      have hfail' : (st.assign first v w).Fails grads name := by
        rw [hsame.fails_iff (hne name (by simp))]
        exact hfail
      obtain ⟨e, herr, hiff⟩ := ih hkeys hn hok' hfail'
      simp only [List.cons_append, applyParams, he, List.forall_mem_cons, hstill]
      refine ⟨e, herr, ?_⟩
      by_cases hfix : st.assign first v w = st
      · rw [hfix] at hiff ⊢
        rw [hiff]
        exact ⟨fun h => ⟨rfl, h⟩, fun h => h.2⟩
      · -- the first parameter has moved, and no later turn touches it again
        refine iff_of_false (fun heq => hfix ?_) fun h => hfix h.1
        have hrest := sameExcept_applyParams grads hkeys
        have hb := hrest.buffers first hfirst
        have hw := hrest.weights first hfirst
        rw [heq] at hb hw
        rw [assign_eq_self_iff, hb, hw]
        simp [assign]

lemma applyGradients_ok_iff : st.applyGradients grads = (st', .ok ()) ↔
    ∃ st₁, applyParams grads st.weights.keys st = (st₁, .ok ()) ∧
      st' = { st₁ with globalStep := st₁.globalStep + 1 } := by
  simp only [applyGradients]
  split
  · next st₁ _ he => simp [he, eq_comm]
  · next st₁ e he => simp [he]

/-- A call raises where the turn of some parameter does. -/
lemma raises_iff : st.Raises grads ↔ ∃ n ∈ st.weights.keys, st.Fails grads n := by
  have hcall : st.Raises grads ↔ ∃ e, (applyParams grads st.weights.keys st).2 = .error e := by
    simp only [Raises, applyGradients]
    split <;> simp [*]
  rw [hcall]
  constructor
  · rintro ⟨e, herr⟩
    by_contra hnone
    rw [applyParams_of_not_fails (fun n hn => hn) st.weights.nodup_keys
      fun n hn hfail => hnone ⟨n, hn, hfail⟩] at herr
    cases herr
  · intro hsome
    obtain ⟨before, name, ⟨rest, hkeys⟩, hok, hfail⟩ := exists_stopsAt hsome
    have hmem : ∀ n ∈ before ++ name :: rest, n ∈ st.weights.keys := fun n hn => hkeys ▸ hn
    obtain ⟨e, herr, -⟩ := applyParams_stops hmem (hkeys ▸ st.weights.nodup_keys) hok hfail
    exact ⟨e, hkeys ▸ herr⟩

end WeightStore

/-! ### All or nothing -/

open WeightStore in
/-- A call that raises leaves the store as it was exactly when, at the parameter it stops at and at
all before it, what the turn assigned was there already. -/
theorem all_or_nothing_iff (st : WeightStore α) (grads : List (Payload α)) :
    (st.Raises grads → (st.applyGradients grads).1 = st) ↔
      ∀ before name, st.StopsAt grads before name →
        ∀ n ∈ before ++ [name], st.Still grads n := by
  have hcall : st.Raises grads →
      (st.applyGradients grads).1 = (applyParams grads st.weights.keys st).1 := by
    simp only [Raises, applyGradients]
    split
    · next he => rintro ⟨e, h⟩; cases h
    · next he => exact fun _ => by rw [he]
  constructor
  · rintro h before name ⟨⟨rest, hkeys⟩, hok, hfail⟩
    have hmem : ∀ n ∈ before ++ name :: rest, n ∈ st.weights.keys := fun n hn => hkeys ▸ hn
    obtain ⟨e, -, hiff⟩ := applyParams_stops hmem (hkeys ▸ st.weights.nodup_keys) hok hfail
    have hraises := raises_iff.mpr ⟨name, hmem name (by simp), hfail⟩
    rw [← hkeys] at hiff
    exact hiff.mp ((hcall hraises).symm.trans (h hraises))
  · intro h hraises
    obtain ⟨before, name, ⟨rest, hkeys⟩, hok, hfail⟩ := exists_stopsAt (raises_iff.mp hraises)
    have hmem : ∀ n ∈ before ++ name :: rest, n ∈ st.weights.keys := fun n hn => hkeys ▸ hn
    obtain ⟨e, -, hiff⟩ := applyParams_stops hmem (hkeys ▸ st.weights.nodup_keys) hok hfail
    rw [hcall hraises, hkeys, hiff]
    exact h before name ⟨⟨rest, hkeys⟩, hok, hfail⟩

/-- A store of two parameters. -/
private def twoParams : WeightStore ℚ :=
  .init ((Dict.empty.set "a" (.singleton 0)).set "b" (.singleton 0)) 1 0

/-- A delta that lacks the second one moves the first, under the old step number. -/
theorem half_applied : ∃ (st : WeightStore ℚ) (grads : List (Payload ℚ)), st.Raises grads ∧
    (st.applyGradients grads).1 ≠ st ∧
    (st.applyGradients grads).1.globalStep = st.globalStep := by
  refine ⟨twoParams, [.dict (Dict.empty.set "a" (.singleton 1))], ⟨.keyError, ?_⟩, ?_, ?_⟩
  · decide +kernel
  · intro h
    have hw := congrArg (fun st => st.weights.get? "a") h
    revert hw
    decide +kernel
  · decide +kernel

end DistributedRL
