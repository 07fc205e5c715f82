import DistributedRL.Data.Mean
import DistributedRL.Data.Momentum
import DistributedRL.Server.References
import DistributedRL.Worker.LocalUpdate

/-!
# The update over many rounds

Started afresh, `apply_gradients` is gradient descent with momentum on the averages of the rounds,
in every element of every parameter. The order of the deltas within a round does not matter, and
the deltas are left as they were.
-/

namespace DistributedRL

namespace WeightStore

/-! ### One call -/

section

variable {α : Type*} [Scalar α] {st st' : WeightStore α} {grads : List (Payload α)} {name : String}
  {names : List String}

lemma keys_buffers_applyParam (grads : List (Payload α)) (name : String) (st : WeightStore α) :
    (applyParam grads name st).1.momentumBuffers.keys = st.momentumBuffers.keys := by
  simp only [applyParam]
  split
  · rfl
  split
  · rfl
  · next buf hbuf =>
    have hmem : name ∈ st.momentumBuffers.keys := Dict.mem_keys_iff.mpr ⟨buf, hbuf⟩
    split
    · rfl
    split
    · exact Dict.keys_set_of_mem _ hmem
    split
    · exact Dict.keys_set_of_mem _ hmem
    · exact Dict.keys_set_of_mem _ hmem

lemma keys_buffers_applyParams (grads : List (Payload α)) (names : List String)
    (st : WeightStore α) :
    (applyParams grads names st).1.momentumBuffers.keys = st.momentumBuffers.keys := by
  induction names generalizing st with
  | nil => rfl
  | cons name names ih =>
    have hkeys := keys_buffers_applyParam grads name st
    simp only [applyParams]
    split
    · next st' _ he =>
      rw [he] at hkeys
      rw [ih, hkeys]
    · next st' e he =>
      rw [he] at hkeys
      exact hkeys

lemma applyGradients_updated (h : st.Aligned) (hok : st.applyGradients grads = (st', .ok ())) :
    (∀ name, UpdatedBoth grads st st' name) ∧
      st'.momentumBuffers.keys = st.momentumBuffers.keys := by
  simp only [applyGradients] at hok
  split at hok
  · next st₁ _ he =>
    have hkeys := keys_buffers_applyParams grads st.weights.keys st
    rw [he] at hkeys
    cases hok
    refine ⟨?_, hkeys⟩
    intro name w hw
    exact applyParams_updated h st.weights.nodup_keys (fun _ hn => hn) he name
      (Dict.mem_keys_iff.mpr ⟨w, hw⟩) w hw
  · cases hok

lemma applyRounds_concat {rounds : List (List (Payload α))} {st'' : WeightStore α}
    (h : st.applyRounds rounds = (st', .ok ())) (h' : st'.applyGradients grads = (st'', .ok ())) :
    st.applyRounds (rounds ++ [grads]) = (st'', .ok ()) := by
  induction rounds generalizing st with
  | nil =>
    cases h
    simp only [List.nil_append, applyRounds, h']
  | cons first rounds ih =>
    simp only [applyRounds] at h
    simp only [List.cons_append, applyRounds]
    split at h
    · exact ih h
    · cases h

end

end WeightStore

/-! ### Elements -/

variable {𝕂 : Type*} [Field 𝕂]

/-- The mean of the deltas of a round, at one position of one parameter. -/
def meanItem (grads : List (Payload 𝕂)) (name : String) (i : ℕ) : 𝕂 :=
  (grads.map (Payload.item · name i)).sum / grads.length

lemma meanItem_perm {grads grads' : List (Payload 𝕂)} (h : grads.Perm grads') (name : String)
    (i : ℕ) : meanItem grads name i = meanItem grads' name i := by
  rw [meanItem, meanItem, (h.map _).sum_eq, h.length_eq]

namespace WeightStore

variable {initial : Weights 𝕂} {lr m : 𝕂} {st st' : WeightStore 𝕂} {grads : List (Payload 𝕂)}
  {name : String} {a : NDArray 𝕂}

/-- What `k` rounds leave as it was at the start. -/
structure RoundInv (initial : Weights 𝕂) (lr m : 𝕂) (k : ℕ) (st : WeightStore 𝕂) : Prop where
  aligned : st.Aligned
  shapes : SameShapes st.weights initial
  keys : st.weights.keys = initial.keys
  bufferKeys : st.momentumBuffers.keys = initial.keys
  baseLr : st.baseLr = lr
  momentum : st.momentum = m
  globalStep : st.globalStep = k

/-- A round is one step of gradient descent with momentum, in every element. -/
structure Descends (m lr : 𝕂) (grads : List (Payload 𝕂)) (name : String) (i : ℕ)
    (st st' : WeightStore 𝕂) : Prop where
  velocity : st'.momentumBuffers.item name i =
    m * st.momentumBuffers.item name i + meanItem grads name i
  position : st'.weights.item name i =
    st.weights.item name i - lr * st'.momentumBuffers.item name i

lemma roundInv_init (initial : Weights 𝕂) (lr m : 𝕂) :
    RoundInv initial lr m 0 (.init initial lr m) :=
  ⟨aligned_init initial lr m, .refl _, rfl, Dict.keys_mapValues _ _, rfl, rfl, rfl⟩

lemma RoundInv.next {k : ℕ} (h : RoundInv initial lr m k st) (hne : grads ≠ [])
    (hg : ∀ g ∈ grads, WellShaped initial g) :
    ∃ st', st.applyGradients grads = (st', .ok ()) ∧ RoundInv initial lr m (k + 1) st' ∧
      ∀ name a, initial.get? name = some a → ∀ i, Descends m lr grads name i st st' := by
  have hgst : ∀ g ∈ grads, WellShaped st.weights g :=
    fun g hmem => (hg g hmem).of_sameShapes h.shapes.symm
  obtain ⟨st', hok, hshapes, hstep, -⟩ := applyGradients_wellShaped h.aligned hne hgst
  obtain ⟨hal, hkeys, hlr, hmom⟩ := applyGradients_spec grads h.aligned
  obtain ⟨hupd, hbkeys⟩ := applyGradients_updated h.aligned hok
  rw [hok] at hal hkeys hlr hmom
  refine ⟨st', hok, ⟨hal, hshapes.trans h.shapes, hkeys.trans h.keys, hbkeys.trans h.bufferKeys,
    hlr.trans h.baseLr, hmom.trans h.momentum, by rw [hstep, h.globalStep]⟩, ?_⟩
  intro name a ha i
  obtain ⟨w, hw, hwa⟩ := h.shapes.get? ha
  obtain ⟨b, avg, v, w', hb, hbs, havg, hu, hv, hw'⟩ := hupd name w hw
  have hgs : ∀ g ∈ grads, ∃ c, g.getItem name = .ok c ∧ c.shape = w.shape :=
    fun g hmem => hgst g hmem name w hw
  have hmean := averageGrad_item hgs havg i
  obtain ⟨avg', havg', havgs⟩ := averageGrad_ok hne hgs
  rw [havg] at havg'
  cases havg'
  obtain ⟨hvi, hwi⟩ := update_items hbs havgs hu i
  constructor
  · rw [Dict.item_of_get? hv, Dict.item_of_get? hb, hvi, h.momentum, hmean, meanItem]
  · rw [Dict.item_of_get? hw', Dict.item_of_get? hw, Dict.item_of_get? hv, hwi, h.baseLr]

/-! ### The rounds -/

variable {rounds rounds' : List (List (Payload 𝕂))}

/-- The store after the first `k` rounds. -/
def storeAfter (initial : Weights 𝕂) (lr m : 𝕂) (rounds : List (List (Payload 𝕂))) (k : ℕ) :
    WeightStore 𝕂 :=
  ((init initial lr m).applyRounds (rounds.take k)).1

/-- Rounds that are not empty, of deltas with the names and shapes of the weights. -/
def Rounds (initial : Weights 𝕂) (rounds : List (List (Payload 𝕂))) : Prop :=
  ∀ grads ∈ rounds, grads ≠ [] ∧ ∀ g ∈ grads, WellShaped initial g

variable (lr m) in
/-- By induction on the number of rounds. -/
lemma storeAfter_spec (hr : Rounds initial rounds) :
    ∀ k ≤ rounds.length,
      (init initial lr m).applyRounds (rounds.take k) = (storeAfter initial lr m rounds k, .ok ()) ∧
        RoundInv initial lr m k (storeAfter initial lr m rounds k) := by
  intro k
  induction k with
  | zero =>
    intro _
    exact ⟨rfl, roundInv_init initial lr m⟩
  | succ k ih =>
    intro hk
    obtain ⟨hok, hinv⟩ := ih (Nat.le_of_succ_le hk)
    have hmem : rounds[k] ∈ rounds := List.getElem_mem hk
    obtain ⟨st', hcall, hinv', -⟩ := hinv.next (hr _ hmem).1 (hr _ hmem).2
    have hrun : (init initial lr m).applyRounds (rounds.take (k + 1)) = (st', .ok ()) := by
      rw [List.take_succ_eq_append_getElem hk]
      exact applyRounds_concat hok hcall
    have hafter : storeAfter initial lr m rounds (k + 1) = st' := by rw [storeAfter, hrun]
    rw [hafter]
    exact ⟨hrun, hinv'⟩

lemma storeAfter_succ (hr : Rounds initial rounds) {k : ℕ} (hk : k < rounds.length)
    (ha : initial.get? name = some a) (i : ℕ) :
    Descends m lr (rounds.getD k []) name i (storeAfter initial lr m rounds k)
      (storeAfter initial lr m rounds (k + 1)) := by
  obtain ⟨hok, hinv⟩ := storeAfter_spec lr m hr k hk.le
  have hmem : rounds[k] ∈ rounds := List.getElem_mem hk
  obtain ⟨st', hcall, -, hdesc⟩ := hinv.next (hr _ hmem).1 (hr _ hmem).2
  have hafter : storeAfter initial lr m rounds (k + 1) = st' := by
    rw [storeAfter, List.take_succ_eq_append_getElem hk, applyRounds_concat hok hcall]
  rw [hafter, List.getD_eq_getElem _ _ hk]
  exact hdesc name a ha i

/-- The velocity after the rounds, at one position of one parameter. -/
def velocityItem (m : 𝕂) (rounds : List (List (Payload 𝕂))) (name : String) (i : ℕ) : 𝕂 :=
  ∑ k ∈ Finset.range rounds.length,
    m ^ (rounds.length - 1 - k) * meanItem (rounds.getD k []) name i

/-- The sum of the velocities after each of the rounds. -/
def displacementItem (m : 𝕂) (rounds : List (List (Payload 𝕂))) (name : String) (i : ℕ) : 𝕂 :=
  ∑ j ∈ Finset.range rounds.length, ∑ k ∈ Finset.range (j + 1),
    m ^ (j - k) * meanItem (rounds.getD k []) name i

/-- The store after the rounds, in closed form. -/
structure ClosedForm (initial : Weights 𝕂) (lr m : 𝕂) (rounds : List (List (Payload 𝕂)))
    (st : WeightStore 𝕂) : Prop where
  globalStep : st.globalStep = rounds.length
  baseLr : st.baseLr = lr
  momentum : st.momentum = m
  keys : st.weights.keys = initial.keys
  bufferKeys : st.momentumBuffers.keys = initial.keys
  params : ∀ name a, initial.get? name = some a → ∃ v w,
    st.momentumBuffers.get? name = some v ∧ st.weights.get? name = some w ∧
    v.shape = a.shape ∧ w.shape = a.shape ∧ ∀ i < a.shape.prod,
      v.item i = velocityItem m rounds name i ∧
      w.item i = a.item i - lr * displacementItem m rounds name i

variable (lr m) in
/-- In each element, the recurrence is solved. -/
lemma closedForm_storeAfter (hr : Rounds initial rounds) :
    ClosedForm initial lr m rounds (storeAfter initial lr m rounds rounds.length) := by
  obtain ⟨-, hinv⟩ := storeAfter_spec lr m hr rounds.length le_rfl
  refine ⟨hinv.globalStep, hinv.baseLr, hinv.momentum, hinv.keys, hinv.bufferKeys, ?_⟩
  intro name a ha
  obtain ⟨w, hw, hws⟩ := hinv.shapes.get? ha
  obtain ⟨v, hv, hvs⟩ := hinv.aligned.exists_buffer hw
  refine ⟨v, w, hv, hw, hvs.trans hws, hws, ?_⟩
  intro i _
  set s := storeAfter initial lr m rounds
  have hstart : (s 0).momentumBuffers.item name i = 0 := by
    have hbuf : (s 0).momentumBuffers.get? name = some (a.map (· * 0)) := by
      rw [show s 0 = init initial lr m from rfl, init, Dict.get?_mapValues, ha, Option.map_some]
    have hitem : (a.map (· * 0)).item i = a.item i * 0 :=
      NDArray.item_map a (f := (· * 0)) (zero_mul 0) i
    rw [Dict.item_of_get? hbuf, hitem, mul_zero]
  have hweight : (s 0).weights.item name i = a.item i := Dict.item_of_get? ha i
  have hvel : ∀ k < rounds.length, (s (k + 1)).momentumBuffers.item name i =
      m * (s k).momentumBuffers.item name i + meanItem (rounds.getD k []) name i :=
    fun k hk => (storeAfter_succ hr hk ha i).velocity
  have hpos : ∀ k < rounds.length, (s (k + 1)).weights.item name i =
      (s k).weights.item name i - lr * (s (k + 1)).momentumBuffers.item name i :=
    fun k hk => (storeAfter_succ hr hk ha i).position
  constructor
  · rw [← Dict.item_of_get? hv]
    exact velocity_eq (v := fun k => (s k).momentumBuffers.item name i)
      (g := fun k => meanItem (rounds.getD k []) name i) hstart hvel rounds.length le_rfl
  · rw [← Dict.item_of_get? hw, ← hweight]
    exact position_eq (v := fun k => (s k).momentumBuffers.item name i)
      (w := fun k => (s k).weights.item name i)
      (g := fun k => meanItem (rounds.getD k []) name i) hstart hvel hpos rounds.length le_rfl

lemma meanItem_getD_perm (h : List.Forall₂ List.Perm rounds rounds') (name : String) (k i : ℕ) :
    meanItem (rounds.getD k []) name i = meanItem (rounds'.getD k []) name i := by
  induction h generalizing k with
  | nil => rfl
  | cons hperm _ ih =>
    cases k with
    | zero => exact meanItem_perm hperm name i
    | succ k => exact ih k

/-- The closed form does not depend on the order of the deltas within a round. -/
lemma ClosedForm.perm (h : List.Forall₂ List.Perm rounds rounds')
    (hst : ClosedForm initial lr m rounds st) : ClosedForm initial lr m rounds' st := by
  have hlen := h.length_eq
  have hmean := meanItem_getD_perm h
  refine ⟨hst.globalStep.trans hlen, hst.baseLr, hst.momentum, hst.keys, hst.bufferKeys, ?_⟩
  intro name a ha
  obtain ⟨v, w, hv, hw, hvs, hws, hitems⟩ := hst.params name a ha
  refine ⟨v, w, hv, hw, hvs, hws, ?_⟩
  intro i hi
  obtain ⟨hvi, hwi⟩ := hitems i hi
  simp only [velocityItem, displacementItem, hmean, hlen] at hvi hwi ⊢
  exact ⟨hvi, hwi⟩

/-- The closed form determines the store. -/
lemma ClosedForm.unique (h : ClosedForm initial lr m rounds st)
    (h' : ClosedForm initial lr m rounds st') : st = st' := by
  have hget : ∀ name, st.weights.get? name = st'.weights.get? name ∧
      st.momentumBuffers.get? name = st'.momentumBuffers.get? name := by
    intro name
    cases ha : initial.get? name with
    | none =>
      have hnone : ∀ {d : Weights 𝕂}, d.keys = initial.keys → d.get? name = none := by
        intro d hd
        rw [Dict.get?_eq_none_iff, hd]
        exact Dict.get?_eq_none_iff.mp ha
      exact ⟨(hnone h.keys).trans (hnone h'.keys).symm,
        (hnone h.bufferKeys).trans (hnone h'.bufferKeys).symm⟩
    | some a =>
      obtain ⟨v, w, hv, hw, hvs, hws, hitems⟩ := h.params name a ha
      obtain ⟨v', w', hv', hw', hvs', hws', hitems'⟩ := h'.params name a ha
      have hvv : v = v' := NDArray.ext_item (hvs.trans hvs'.symm) fun i hi =>
        (hitems i (hvs ▸ hi)).1.trans (hitems' i (hvs ▸ hi)).1.symm
      have hww : w = w' := NDArray.ext_item (hws.trans hws'.symm) fun i hi =>
        (hitems i (hws ▸ hi)).2.trans (hitems' i (hws ▸ hi)).2.symm
      exact ⟨by rw [hw, hw', hww], by rw [hv, hv', hvv]⟩
  obtain ⟨w, b, lr', m', k⟩ := st
  obtain ⟨w', b', lr'', m'', k'⟩ := st'
  have hw : w = w' := Dict.ext_get? (h.keys.trans h'.keys.symm) fun name => (hget name).1
  have hb : b = b' :=
    Dict.ext_get? (h.bufferKeys.trans h'.bufferKeys.symm) fun name => (hget name).2
  have hlr : lr' = lr'' := h.baseLr.trans h'.baseLr.symm
  have hm : m' = m'' := h.momentum.trans h'.momentum.symm
  have hk : k = k' := h.globalStep.trans h'.globalStep.symm
  rw [hw, hb, hlr, hm, hk]

end WeightStore

/-! ### On references -/

/-- The weights and every delta are allocated, no round is empty, and the deltas have the names and
shapes of the weights. -/
structure Given (h : Heap 𝕂) (initial : Refs) (rounds : List (List RefPayload)) : Prop where
  weights : h.Holds initial
  deltas : ∀ grads ∈ rounds, grads ≠ [] ∧ ∀ g ∈ grads, g.HeldBy h ∧
    WellShaped (h.load initial) (g.value h)

/-- A store is created from `initial`, and `apply_gradients` is called on one round after the
other. -/
def RefStore.train (initial : Refs) (lr momentum : 𝕂) (rounds : List (List RefPayload))
    (h : Heap 𝕂) : RefStore 𝕂 × Heap 𝕂 × Except PyError Unit :=
  let (st, h) := init initial lr momentum h
  applyRounds rounds st h

section

variable {h h' h'' : Heap 𝕂} {initial : Refs} {rounds rounds' : List (List RefPayload)}
  {lr m : 𝕂} {st st' : RefStore 𝕂}

omit [Field 𝕂] in
lemma Refines.of_ok {o : RefStore 𝕂 × Heap 𝕂 × Except PyError Unit} {p : WeightStore 𝕂}
    (hr : Refines h o (p, .ok ())) :
    ∃ st h', o = (st, h', .ok ()) ∧ h <+: h' ∧ st.value h' = p := by
  obtain ⟨st, h', res⟩ := o
  obtain ⟨hvalue, hres⟩ := Prod.mk.inj hr.value
  have hres : Except.ok () = res := hres
  exact ⟨st, h', by rw [hres], hr.grows, hvalue.symm⟩

omit [Field 𝕂] in
lemma Given.perm (hg : Given h initial rounds) (hp : List.Forall₂ List.Perm rounds rounds') :
    Given h initial rounds' := by
  refine ⟨hg.weights, ?_⟩
  have hdeltas := hg.deltas
  clear hg
  induction hp with
  | nil => exact hdeltas
  | cons hperm _ ih =>
    obtain ⟨hfirst, hrest⟩ := List.forall_mem_cons.mp hdeltas
    refine List.forall_mem_cons.mpr ⟨⟨?_, ?_⟩, ih hrest⟩
    · intro hnil
      rw [hnil] at hperm
      exact hfirst.1 hperm.eq_nil
    · intro g hmem
      exact hfirst.2 g (hperm.mem_iff.mpr hmem)

/-- The values of the store follow the closed form, and everything allocated before is still
there. -/
lemma RefStore.train_spec (hg : Given h initial rounds) (lr m : 𝕂) :
    ∃ st h', train initial lr m rounds h = (st, h', .ok ()) ∧ h <+: h' ∧
      WeightStore.ClosedForm (h.load initial) lr m (rounds.map (List.map (·.value h)))
        (st.value h') := by
  obtain ⟨hp, hheld, hvalue⟩ := init_spec hg.weights lr m
  have hheldg : ∀ grads ∈ rounds, ∀ g ∈ grads, g.HeldBy (init initial lr m h).2 :=
    fun grads hgrads g hmem => ((hg.deltas grads hgrads).2 g hmem).1.of_grows hp
  have hrun := refines_applyRounds hheld hheldg
  have hvalues : rounds.map (List.map (·.value (init initial lr m h).2)) =
      rounds.map (List.map (·.value h)) :=
    List.map_congr_left fun grads hgrads =>
      RefPayload.values_of_grows (fun g hmem => ((hg.deltas grads hgrads).2 g hmem).1) hp
  have hrounds : WeightStore.Rounds (h.load initial) (rounds.map (List.map (·.value h))) := by
    intro grads hmem
    obtain ⟨grads, hgrads, rfl⟩ := List.mem_map.mp hmem
    obtain ⟨hne, hall⟩ := hg.deltas grads hgrads
    refine ⟨by simpa using hne, ?_⟩
    intro g hmem
    obtain ⟨g, hg, rfl⟩ := List.mem_map.mp hmem
    exact (hall g hg).2
  obtain ⟨hok, -⟩ := WeightStore.storeAfter_spec lr m hrounds _ le_rfl
  rw [List.take_length] at hok
  have hclosed := WeightStore.closedForm_storeAfter lr m hrounds
  rw [hvalue, hvalues, hok] at hrun
  obtain ⟨st, h', ho, hp', hst⟩ := hrun.of_ok
  exact ⟨st, h', ho, hp.trans hp', hst ▸ hclosed⟩

/-- After any rounds the velocity is the discounted sum of the averages of the rounds, and the
weights have moved by the velocities. The arrays that were there before are unmodified, and the
order of the deltas within a round makes no difference. -/
theorem train_closedForm (hg : Given h initial rounds) (lr m : 𝕂) :
    ∃ st h', RefStore.train initial lr m rounds h = (st, h', .ok ()) ∧ h <+: h' ∧
      WeightStore.ClosedForm (h.load initial) lr m (rounds.map (List.map (·.value h)))
        (st.value h') ∧
      ∀ rounds', List.Forall₂ List.Perm rounds rounds' → ∃ st' h'',
        RefStore.train initial lr m rounds' h = (st', h'', .ok ()) ∧
          st'.value h'' = st.value h' := by
  obtain ⟨st, h', hrun, hp, hclosed⟩ := RefStore.train_spec hg lr m
  refine ⟨st, h', hrun, hp, hclosed, ?_⟩
  intro rounds' hperm
  obtain ⟨st', h'', hrun', -, hclosed'⟩ := RefStore.train_spec (hg.perm hperm) lr m
  refine ⟨st', h'', hrun', hclosed'.unique (hclosed.perm ?_)⟩
  have hvalues : List.Forall₂ (fun grads grads' => (grads.map (RefPayload.value h)).Perm
      (grads'.map (RefPayload.value h))) rounds rounds' :=
    hperm.imp fun _ _ hgrads => hgrads.map _
  exact List.forall₂_map_left_iff.mpr (List.forall₂_map_right_iff.mpr hvalues)

end

namespace Scenario

/-- A parameter and two deltas. -/
def threeArrays : Heap ℚ := [.singleton 1, .singleton 2, .singleton 4]

/-- The named set of the one parameter. -/
def oneRef (r : Ref) : Refs := Dict.empty.set "w" r

/-- The first array is pushed again in the second round. -/
def twoRounds : List (List RefPayload) :=
  [[.dict (oneRef 1), .dict (oneRef 2)], [.dict (oneRef 1)]]

lemma get?_oneRef {name : String} {r r' : Ref} (h : (oneRef r).get? name = some r') :
    name = "w" ∧ r' = r := by
  rw [oneRef, Dict.get?_set] at h
  split_ifs at h with hn
  · exact ⟨hn, (Option.some.inj h).symm⟩
  · cases h

lemma holds_oneRef {r : Ref} (hr : r < 3) : threeArrays.Holds (oneRef r) := by
  intro name r' h
  rw [(get?_oneRef h).2]
  exact hr

lemma wellShaped_oneRef {r : Ref} (hr : r < 3) :
    WellShaped (threeArrays.load (oneRef 0)) ((RefPayload.dict (oneRef r)).value threeArrays) := by
  intro name a ha
  rw [Heap.get?_load, Option.map_eq_some_iff] at ha
  obtain ⟨r', hr', rfl⟩ := ha
  obtain ⟨rfl, rfl⟩ := get?_oneRef hr'
  have hshape : ∀ r < 3, (threeArrays.read r).shape = (threeArrays.read 0).shape := by decide
  exact ⟨threeArrays.read r, rfl, hshape r hr⟩

lemma given_twoRounds : Given threeArrays (oneRef 0) twoRounds := by
  refine ⟨holds_oneRef (by decide), ?_⟩
  have hdelta : ∀ r < 3, (RefPayload.dict (oneRef r)).HeldBy threeArrays ∧
      WellShaped (threeArrays.load (oneRef 0)) ((RefPayload.dict (oneRef r)).value threeArrays) :=
    fun r hr => ⟨holds_oneRef hr, wellShaped_oneRef hr⟩
  simp only [twoRounds, List.forall_mem_cons, List.not_mem_nil, false_imp_iff, implies_true,
    and_true, ne_eq, reduceCtorEq, not_false_eq_true, true_and]
  exact ⟨⟨hdelta 1 (by decide), hdelta 2 (by decide)⟩, hdelta 1 (by decide)⟩

end Scenario

open Scenario

/-- The velocity is `3`, then `1 / 2 * 3 + 2`, and the deltas are still there. -/
theorem train_closedForm_twoRounds : ∃ st h',
    RefStore.train (oneRef 0) (1 / 2) (1 / 2) twoRounds threeArrays = (st, h', .ok ()) ∧
      threeArrays <+: h' ∧ (st.value h').momentumBuffers.item "w" 0 = 7 / 2 ∧
        (st.value h').weights.item "w" 0 = -9 / 4 := by
  obtain ⟨st, h', hrun, hp, hclosed, -⟩ := train_closedForm given_twoRounds (1 / 2) (1 / 2)
  obtain ⟨v, w, hv, hw, -, -, hitems⟩ := hclosed.params "w" (.singleton 1) rfl
  obtain ⟨hvi, hwi⟩ := hitems 0 (by decide)
  refine ⟨st, h', hrun, hp, ?_, ?_⟩
  · rw [Dict.item_of_get? hv, hvi]
    decide +kernel
  · rw [Dict.item_of_get? hw, hwi]
    decide +kernel

end DistributedRL
