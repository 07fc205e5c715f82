import DistributedRL.Worker.Healthy
import DistributedRL.Worker.RoundTrip
import DistributedRL.Worker.Training

/-!
# Training does not get stuck

In a healthy run of a group of workers in synchronous mode, something can always go on until every
worker has finished its loop: no two threads wait for each other, no worker waits for an answer that
does not come, and no round waits for a push that nobody makes. When nothing can go on any more, the
store has gone as many steps as the training is long.
-/

namespace DistributedRL

variable {α 𝕂 : Type*}

/-- The action is a scan of the monitor. -/
def ClusterAction.Idle : ClusterAction α → Bool
  | .server (.scan _) => true
  | _ => false

/-! ### What a thread can do -/

section

variable [Scalar α] {env : ServerEnv α} {s s' : System α} {b : Action α}

/-- Only a thread that has left its loop, or a scan, takes a worker out of the ALIVE set. -/
lemma Rule.alive_of (hr : Rule env s b s') (hscan : ∀ now, b ≠ .scan now)
    (hq : ∀ t, (s.conns t).handler.Quit = false) {w : WorkerId} (hw : w ∈ s.hb.aliveWorkers) :
    w ∈ s'.hb.aliveWorkers := by
  cases hr
  case scan now => exact absurd rfl (hscan now)
  case markDead c now v hh hv =>
    have hqc := hq c
    rw [hh] at hqc
    cases hqc
  case register c now m v hh hv => exact HeartbeatMonitor.alive_register.mpr (Or.inr hw)
  case beat c now m v hh hv ht => exact HeartbeatMonitor.alive_register.mpr (Or.inr hw)
  all_goals exact hw

/-- A thread that takes a step does not wait for a message. -/
lemma Rule.not_waiting (hr : Rule env s b s') (hi : b.Internal = true) {c : ConnId}
    (hc : b.conn = some c) : (s.conns c).handler ≠ .absent ∧
      ((s.conns c).handler = .recv → (s.conns c).inbox ≠ [] ∨ (s.conns c).eof = true) := by
  cases hr <;> cases hc
  case accept | arrive | hangup => cases hi
  all_goals simp_all

omit [Scalar α] in
lemma ClusterAction.conn_of_not_idle (h : (ClusterAction.server b).Idle = false) :
    ∃ c, b.conn = some c := by
  cases b <;> first | exact ⟨_, rfl⟩ | cases h

end

namespace Cluster

variable [Scalar α] {env : ServerEnv α} {ids : ConnId → WorkerId} {s s' : Cluster α}
  {members : Finset ConnId} {d t : ConnId}

/-- A worker that is away has no thread. -/
lemma Sane.absent_of_away (h : s.Sane env ids members) (hp : (s.clients d).phase = .away) :
    (s.sys.conns d).handler = .absent := by
  have hst := h.sync.tracked.sound.stage d
  cases hst <;> simp_all [System.view]

/-- A thread that has not been started has no messages. -/
lemma Sane.inbox_of_absent (h : s.Sane env ids members)
    (hh : (s.sys.conns d).handler = .absent) : (s.sys.conns d).inbox = [] := by
  have hst := h.sync.tracked.sound.stage d
  cases hst <;> simp_all [System.view, Handler.Free, Handler.Parked, Handler.held]

/-- A thread that does not wait for a message can take a step. -/
lemma Sane.exists_step (h : s.Sane env ids members) (ha : ∀ h', (s.sys.conns t).handler = h' →
      h' ≠ .absent ∧ (h' = .recv → (s.sys.conns t).inbox ≠ [])) :
    (∃ sys, s.sys.step env (.run t 0) = some sys) ∨
      ∃ n sys, s.sys.step env (.write t n) = some sys := by
  obtain ⟨hne, hrecv⟩ := ha _ rfl
  have hquit := h.healthy.running t
  have hname : (s.sys.conns t).handler.Nameless = false →
      ∃ w, (s.sys.conns t).workerId = some w := fun hn => by
    cases hw : (s.sys.conns t).workerId with
    | none => rw [h.sync.steady.nameless t hw] at hn; cases hn
    | some w => exact ⟨w, rfl⟩
  have hwritable : ∀ e, ¬ s.sys.Broken e → s.sys.Writable e := fun e hb =>
    ⟨h.group.reset e, fun hdone => hb (Or.inr hdone)⟩
  cases hh : (s.sys.conns t).handler <;> rw [hh] at hne hrecv hquit hname
  case absent => exact absurd rfl hne
  case recv =>
    obtain ⟨x, rest, hx⟩ := List.exists_cons_of_ne_nil (hrecv rfl)
    obtain ⟨q, -, rfl, -⟩ := (h.sync.tracked.sound.stage t).of_inbox (x := x) hx
    left
    cases hw : (s.sys.conns t).workerId with
    | some w => simp [System.step, System.advance, hh, System.receive, hx, hw]
    | none => cases q <;> simp [System.step, System.advance, hh, System.receive, hx, hw,
        Request.message]
  case reply resp rest =>
    have hdone : s.sys.Writable t := ⟨h.group.reset t, by rw [hh]; simp⟩
    exact Or.inr ⟨rest.length, by simp [System.step, System.write, hh, hdone]⟩
  case acks r step todo rest =>
    obtain ⟨e, todo, rfl⟩ := List.exists_cons_of_ne_nil (h.healthy.owing t r step todo rest hh)
    have he := hwritable e (h.sync.tracked.sound.not_broken h.sync.steady
      (h.sync.tracked.registered_of_owed h.group (t := t) (by simp [hh, Handler.owed])))
    exact Or.inr ⟨rest.length, by simp [System.step, System.write, hh, he]⟩
  case markDead | unregister | close | done => cases hquit
  case apply | getStep | emit | checkpoint | checkpointAssign | checkpointSave =>
    exact Or.inl (by simp [System.step, System.advance, hh])
  all_goals
    obtain ⟨w, hw⟩ := hname rfl
    exact Or.inl (by simp [System.step, System.advance, hh, hw])

/-- While nothing but a scan can go on, every thread waits for a message. -/
lemma Sane.exists_healthy_step (h : s.Sane env ids members) (hfits : s.sys.FramesFit env)
    (ha : ∀ h', (s.sys.conns t).handler = h' →
      h' ≠ .absent ∧ (h' = .recv → (s.sys.conns t).inbox ≠ [])) :
    ∃ a s', a.Idle = false ∧ s.step env ids a = some s' ∧ s.Healthy env members a s' ∧
      ∃ b, a = .server b := by
  have hgo : ∀ {b : Action α} {sys : System α}, s.sys.step env b = some sys →
      b.Internal = true → (∀ now, b ≠ .scan now) → s.sys.SaveSucceeds b →
      s.step env ids (.server b) = some { s with sys := sys } ∧
        s.Healthy env members (.server b) { s with sys := sys } := by
    intro b sys hb hint hscan hsave
    refine ⟨by simp [Cluster.step, hint, hb], ⟨fun c => by simp, fun w hw => ?_⟩, trivial, hsave,
      hfits⟩
    exact (System.rule_of_step hb).alive_of hscan h.healthy.running hw
  rcases h.exists_step ha with ⟨sys, hsys⟩ | ⟨n, sys, hsys⟩
  · obtain ⟨hstep, hk⟩ := hgo hsys rfl (fun _ => by simp) trivial
    exact ⟨_, _, rfl, hstep, hk, _, rfl⟩
  · obtain ⟨hstep, hk⟩ := hgo hsys rfl (fun _ => by simp) trivial
    exact ⟨_, _, rfl, hstep, hk, _, rfl⟩

end Cluster

/-! ### Progress -/

namespace Training

open Cluster

variable [Scalar α] [Field 𝕂] [LinearOrder 𝕂] {config : LrConfig 𝕂} {cosPi : 𝕂 → 𝕂}
  {env : ServerEnv α} {ids : ConnId → WorkerId} {s s' : Training α 𝕂} {a : ClusterAction α}
  {members : Finset ConnId} {st : WeightStore α} {timeout : ℚ} {d : ConnId}

/-- The step condition of a healthy training run. -/
def Healthy (env : ServerEnv α) (members : Finset ConnId) (s : Training α 𝕂)
    (a : ClusterAction α) (s' : Training α 𝕂) : Prop :=
  s.cluster.Healthy env members a s'.cluster

/-- Something other than a scan can happen without anything raising. -/
def CanGo (config : LrConfig 𝕂) (cosPi : 𝕂 → 𝕂) (env : ServerEnv α) (ids : ConnId → WorkerId)
    (members : Finset ConnId) (s : Training α 𝕂) : Prop :=
  ∃ a s', a.Idle = false ∧ s.step config cosPi env ids a = some s' ∧ s.Healthy env members a s'

/-- Every worker has finished its loop and had all its pushes acknowledged, the server waits for
messages with nothing in its buffer, and the store has gone one step for each iteration. -/
structure Complete (config : LrConfig 𝕂) (members : Finset ConnId) (st : WeightStore α)
    (s : Training α 𝕂) : Prop where
  finished : ∀ d ∈ members, (s.mains d).Finished config ∧ (s.cluster.clients d).phase = .idle
  acked : ∀ d ∈ members, ((s.cluster.clients d).acks.length : ℤ) = config.maxSteps
  waiting : ∀ t, (s.cluster.sys.conns t).inbox = [] ∧ ((s.cluster.sys.conns t).handler = .absent ∨
    (s.cluster.sys.conns t).handler = .recv)
  buffer : s.cluster.sys.agg.buffer.keys = []
  globalStep : members.Nonempty →
    (s.cluster.sys.store.globalStep : ℤ) = st.globalStep + config.maxSteps

/-- A worker that has not connected has not started its loop, and one at the top of its loop has
weights to train on. -/
structure HoldInv (s : Training α 𝕂) : Prop where
  away : ∀ d, (s.cluster.clients d).phase = .away → (s.mains d).stage = .start
  top : ∀ d, (s.cluster.clients d).phase = .idle → (s.mains d).stage = .top →
    (s.cluster.clients d).base ≠ none

omit [Scalar α] [Field 𝕂] [LinearOrder 𝕂] in
lemma holdInv_init : (init 𝕂 st timeout).HoldInv where
  away _ _ := rfl
  top _ h := by cases h

lemma HoldInv.step (h : s.HoldInv) (hs : s.cluster.Sound env ids) (hp : env.pickle.Lawful)
    (hstep : s.step config cosPi env ids a = some s') : s'.HoldInv := by
  obtain ⟨hlets, k, hk, rfl⟩ := of_step hstep
  cases rule_of_step hk with
  | @connect c sys hph hsys =>
    constructor <;> intro d
    · by_cases hdc : d = c
      · simp [hdc]
      · simpa [moves, hdc] using h.away d
    · by_cases hdc : d = c
      · subst hdc
        simp [moves, h.away d hph]
      · simpa [moves, hdc] using h.top d
  | @request c q sys hph hl hsys =>
    constructor <;> intro d
    · by_cases hdc : d = c
      · simp [hdc, Client.call]
      · simpa [moves, hdc, Function.update_of_ne hdc] using h.away d
    · by_cases hdc : d = c
      · simp [hdc, Client.call]
      · simpa [moves, hdc, Function.update_of_ne hdc] using h.top d
  | @receive c q payload rest hph hl hf =>
    obtain ⟨m, hm, -, -, hdec⟩ := hs.decode_of_split hp hph hf
    have hidle := Client.phase_finish (s.cluster.clients c) hm
    constructor <;> intro d
    · by_cases hdc : d = c
      · simp [hdc, hdec, hidle]
      · simpa [moves, hdc, Function.update_of_ne hdc, hph, hdec, hidle] using h.away d
    · by_cases hdc : d = c
      · subst hdc
        simp only [moves, clients_setClient, if_true, hph, hdec, hidle, Function.update_self]
        cases q <;> cases m <;> first | exact hm.elim | simp [Client.finish, Main.resume]
      · simpa [moves, hdc, Function.update_of_ne hdc, hph, hdec, hidle] using h.top d
  | @leave c sys hph hsys =>
    constructor <;> intro d
    · by_cases hdc : d = c
      · subst hdc
        simpa [moves] using h.away d
      · simpa [moves, hdc] using h.away d
    · by_cases hdc : d = c
      · subst hdc
        simpa [moves] using h.top d
      · simpa [moves, hdc] using h.top d
  | server hi hsys => exact ⟨h.away, h.top⟩

/-- The invariants of healthy training runs. -/
structure SaneInv (config : LrConfig 𝕂) (cosPi : 𝕂 → 𝕂) (env : ServerEnv α)
    (ids : ConnId → WorkerId) (members : Finset ConnId) (st : WeightStore α)
    (s : Training α 𝕂) : Prop where
  sane : s.cluster.Sane env ids members
  run : s.RunInv config cosPi members st
  hold : s.HoldInv

/-- A healthy training run is a healthy run of its cluster. -/
lemma reach_cluster (h : Reach (step config cosPi env ids) (Healthy env members)
    (.init 𝕂 st timeout) s) :
    Reach (Cluster.step env ids) (fun s a s' => s.Healthy env members a s') (.init st timeout)
      s.cluster := by
  refine h.map Training.cluster fun {s a s'} hstep hk => ?_
  obtain ⟨-, k, hk', rfl⟩ := of_step hstep
  exact Or.inr ⟨a, hk', hk⟩

lemma saneInv_of_reach (hids : Function.Injective ids) (hp : env.pickle.Lawful)
    (hsync : GradientAggregator.minReady env.config ≤ 0) (hmax : 0 ≤ config.maxSteps)
    (hst : st.Aligned)
    (h : Reach (step config cosPi env ids) (Healthy env members) (.init 𝕂 st timeout) s) :
    s.SaneInv config cosPi env ids members st := by
  have hcluster : ∀ {s}, Reach (step config cosPi env ids) (Healthy env members)
      (.init 𝕂 st timeout) s → s.cluster.Sane env ids members := fun hr =>
    sane_of_reach hids hp hsync hst (reach_cluster hr)
  have hrun : Reach (step config cosPi env ids) (Together members) (.init 𝕂 st timeout) s :=
    h.mono fun hk => ⟨hk.steady, hk.trains⟩
  refine ⟨hcluster h, runInv_of_reach hids hp hsync hmax hrun,
    h.invariant_reach holdInv_init fun hr hi hstep _ => ?_⟩
  exact hi.step (hcluster hr).sync.tracked.sound hp hstep

/-! ### Who can go on -/

lemma canGo_of {k : Cluster α} (hidle : a.Idle = false) (hlets : s.Lets config a)
    (hstep : s.cluster.step env ids a = some k) (hk : s.cluster.Healthy env members a k) :
    s.CanGo config cosPi env ids members :=
  ⟨a, ⟨k, s.moves config cosPi k a⟩, hidle, by rw [step, if_pos hlets, hstep]; rfl, hk⟩

section Stuck

variable (h : s.SaneInv config cosPi env ids members st) (hfits : s.cluster.sys.FramesFit env)
  (hstuck : ¬ s.CanGo config cosPi env ids members)

include h hfits hstuck

/-- Every thread waits for a message. -/
lemma SaneInv.waits (t : ConnId) : (s.cluster.sys.conns t).inbox = [] ∧
    ((s.cluster.sys.conns t).handler = .absent ∨ (s.cluster.sys.conns t).handler = .recv) := by
  have hor : (s.cluster.sys.conns t).handler = .absent ∨
      (s.cluster.sys.conns t).handler = .recv ∧ (s.cluster.sys.conns t).inbox = [] := by
    by_contra hne
    push Not at hne
    obtain ⟨a, k, hidle, hstep, hk, b, rfl⟩ := h.sane.exists_healthy_step (t := t) hfits
      fun h' hh => ⟨fun he => hne.1 (hh.trans he), fun he => hne.2 (hh.trans he)⟩
    exact hstuck (canGo_of hidle trivial hstep hk)
  rcases hor with hh | ⟨hh, hx⟩
  · exact ⟨h.sane.inbox_of_absent hh, Or.inl hh⟩
  · exact ⟨hx, Or.inr hh⟩

/-- Nobody has anything in hand for a worker. -/
lemma SaneInv.silent (t d : ConnId) : (s.cluster.sys.conns t).handler.held = none ∧
    (s.cluster.sys.conns t).handler.talk t d = none := by
  rcases (h.waits hfits hstuck t).2 with hh | hh <;> rw [hh] <;> exact ⟨rfl, rfl⟩

/-- Every member is connected. -/
lemma SaneInv.connected (hd : d ∈ members) : (s.cluster.clients d).phase ≠ .away := by
  intro hp
  have habs := h.sane.absent_of_away hp
  have hstep : s.cluster.step env ids (.connect d) =
      some ({ s.cluster with sys := s.cluster.sys.goto d .recv }.setClient d
        { s.cluster.clients d with phase := .idle }) := by
    simp only [Cluster.step, hp, System.step, habs]
    rfl
  exact hstuck (canGo_of (a := .connect d) rfl trivial hstep
    ⟨⟨fun c => by simp, fun w hw => hw⟩, hd, trivial, hfits⟩)

/-- A worker that waits has its delta in the buffer. -/
lemma SaneInv.buffered {q : Request α} (hq : (s.cluster.clients d).phase = .waiting q) :
    ∃ δ, s.cluster.sys.agg.buffer.get? (ids d) = some δ := by
  rcases h.sane.healthy.pending d q hq with hi | hi | hi | ⟨t, hi⟩ | hi
  · exact absurd (h.waits hfits hstuck d).1 hi
  · exact absurd (h.silent hfits hstuck d d).1 hi
  · exact Option.ne_none_iff_exists'.mp hi
  · exact absurd (h.silent hfits hstuck t d).2 hi
  · obtain ⟨⟨payload, rest⟩, hsplit⟩ := Option.ne_none_iff_exists'.mp hi
    have hstep : s.cluster.step env ids (.receive d) = some (s.cluster.setClient d
        { decode env (s.cluster.clients d) q payload with
          consumed := (s.cluster.clients d).consumed +
            ((s.cluster.unread d).length - rest.length) }) := by
      simp only [Cluster.step, Cluster.receive, hq, h.sane.healthy.stays d, hsplit]
    exact absurd (canGo_of (a := .receive d) rfl trivial hstep
      ⟨⟨fun c => by simp, fun w hw => hw⟩, trivial, trivial, hfits⟩) hstuck

/-- A worker between two calls can make each of the calls that its loop lets it make. -/
lemma SaneInv.no_call (hp : (s.cluster.clients d).phase = .idle) {q : Request α}
    (hq : (s.mains d).Calls config q) (ht : s.cluster.Trains members (.request d q)) : False := by
  have hsound := h.sane.sync.tracked.sound
  have hne : (s.cluster.sys.conns d).handler ≠ .absent := by
    intro habs
    have hfree := ((hsound.stage d).of_idle hp).1
    rw [show (s.cluster.sys.view (s.cluster.clients d) (ids d) d).handler = .absent from habs]
      at hfree
    cases hfree
  obtain ⟨sys, hsys⟩ : ∃ sys, s.cluster.sys.step env
      (.arrive d (.message (q.message (ids d)))) = some sys := by
    simp only [System.step, h.sane.sync.steady.eof d]
    cases hh : (s.cluster.sys.conns d).handler with
    | absent => exact absurd hh hne
    | _ => exact ⟨_, rfl⟩
  have hstep : s.cluster.step env ids (.request d q) =
      some ({ s.cluster with sys := sys }.setClient d ((s.cluster.clients d).call q)) := by
    simp only [Cluster.step, hp, h.sane.healthy.stays d, hsys]
    rfl
  have hhb : sys.hb = s.cluster.sys.hb := ((System.rule_of_step hsys).outside rfl).2.1
  refine hstuck (canGo_of (a := .request d q) rfl hq hstep
    ⟨⟨fun c => by simp, fun w hw => ?_⟩, ht, trivial, hfits⟩)
  rw [Cluster.sys_setClient, hhb]
  exact hw

/-- A worker between two calls is at the top of its loop, and registered. -/
lemma SaneInv.top (hp : (s.cluster.clients d).phase = .idle) : (s.mains d).stage = .top ∧
    ∃ w, (s.cluster.clients d).base = some w ∧ d ∈ s.cluster.sys.agg.sockets.values := by
  have htop : (s.mains d).stage = .top := by
    by_contra hne
    exact h.no_call hfits hstuck hp (q := .pullWeights) hne trivial
  obtain ⟨w, hw⟩ := Option.ne_none_iff_exists'.mp (h.hold.top d hp htop)
  refine ⟨htop, w, hw, ?_⟩
  by_contra hne
  rw [(h.sane.sync.join.joined d hne).2] at hw
  cases hw

/-- Every member is registered. -/
lemma SaneInv.gathered (hids : Function.Injective ids) : s.cluster.Gathered members := by
  intro d hd
  have haway := h.connected hfits hstuck hd
  have hfail := h.sane.sync.tracked.sound.not_failed d
  cases hp : (s.cluster.clients d).phase with
  | away => exact absurd hp haway
  | failed => rw [hp] at hfail; cases hfail
  | idle =>
    obtain ⟨-, -, -, hmem⟩ := h.top hfits hstuck hp
    exact hmem
  | waiting q =>
    obtain ⟨δ, hδ⟩ := h.buffered hfits hstuck hp
    exact h.sane.sync.tracked.sound.registered_of_entry hids hδ

/-- A worker between two calls has finished. -/
lemma SaneInv.finished (hids : Function.Injective ids)
    (hp : (s.cluster.clients d).phase = .idle) : (s.mains d).Finished config := by
  obtain ⟨htop, w, hw, -⟩ := h.top hfits hstuck hp
  refine ⟨htop, ?_⟩
  by_contra hlt
  obtain ⟨g, hg, -⟩ := weightDelta_ok (show SameShapes w w from fun _ => rfl)
  exact h.no_call hfits hstuck hp (q := .pushGradients (s.mains d).globalStep g)
    ⟨htop, not_le.mp hlt, rfl⟩
    ⟨h.gathered hfits hstuck hids, w, w, hw, SameShapes.refl w, hg⟩

/-- Nobody waits for the ACK of a round: the round would be complete. -/
lemma SaneInv.idle (hids : Function.Injective ids) (hd : d ∈ members) :
    (s.cluster.clients d).phase = .idle := by
  have hsound := h.sane.sync.tracked.sound
  have hphase : ∀ e ∈ members, (s.cluster.clients e).phase = .idle ∨
      ∃ q δ, (s.cluster.clients e).phase = .waiting q ∧
        s.cluster.sys.agg.buffer.get? (ids e) = some δ := by
    intro e he
    have haway := h.connected hfits hstuck he
    have hfail := hsound.not_failed e
    cases hp : (s.cluster.clients e).phase with
    | away => exact absurd hp haway
    | failed => rw [hp] at hfail; cases hfail
    | idle => exact Or.inl rfl
    | waiting q =>
      obtain ⟨δ, hδ⟩ := h.buffered hfits hstuck hp
      exact Or.inr ⟨q, δ, rfl, hδ⟩
  refine (hphase d hd).resolve_right ?_
  rintro ⟨q, δ, hq, hδ⟩
  -- the round waits for a member that has finished, so that there have been enough rounds
  obtain ⟨e, he, hfin⟩ : ∃ e ∈ members, (s.mains e).Finished config := by
    rcases h.sane.healthy.barrier with ⟨t, ht⟩ | hempty | ⟨w, hreg, -, hnot⟩
    · rcases (h.waits hfits hstuck t).2 with hh | hh <;> rw [hh] at ht <;> cases ht
    · have hmem := Dict.mem_keys_iff.mpr ⟨δ, hδ⟩
      rw [hempty] at hmem
      cases hmem
    · obtain ⟨e, he⟩ := Dict.mem_keys_iff.mp hreg
      obtain rfl := hsound.key he
      have hmem : e ∈ members := h.sane.group.present e (h.sane.healthy.seats _ e he)
      rcases hphase e hmem with hp | ⟨q', δ', -, hδ'⟩
      · exact ⟨e, hmem, h.finished hfits hstuck hids hp⟩
      · exact absurd (Dict.mem_keys_iff.mpr ⟨δ', hδ'⟩) hnot
  have hrounds := h.run.rounds_of_finished he hfin
  -- and the one that waits has made one push too many
  obtain ⟨hid, step, g, hpush, -⟩ := h.sane.sync.tracked.pushes.entry d δ hδ
  have hahead : ¬ s.cluster.Ahead d := by
    rintro ⟨-, hmem⟩
    exact h.sane.sync.tracked.deltas.buffered_averaged _ ⟨ids d, δ, hδ, hid⟩ hmem
  have hcount := h.run.counts.rounds d hd
  rw [Cluster.rounds, if_neg hahead] at hcount
  have hbound := (h.run.loops d).bound
  have hpushes : (s.cluster.clients d).pushes = (s.cluster.clients d).acks.length + 1 := by
    rw [Client.pushes, hpush]
    rfl
  rw [hpushes] at hbound
  rw [hcount] at hrounds
  push_cast at hrounds hbound
  omega

/-- There have been as many rounds as iterations. -/
lemma SaneInv.rounds (hids : Function.Injective ids) (hmax : 0 ≤ config.maxSteps)
    (hd : d ∈ members) : (s.cluster.sys.history.applied.length : ℤ) = config.maxSteps :=
  le_antisymm (h.run.rounds_le hmax) (h.run.rounds_of_finished hd
    (h.finished hfits hstuck hids (h.idle hfits hstuck hids hd)))

lemma SaneInv.complete (hids : Function.Injective ids) (hmax : 0 ≤ config.maxSteps) :
    s.Complete config members st where
  finished d hd :=
    ⟨h.finished hfits hstuck hids (h.idle hfits hstuck hids hd), h.idle hfits hstuck hids hd⟩
  acked d hd := by
    have hidle := h.idle hfits hstuck hids hd
    rw [← h.rounds hfits hstuck hids hmax hd, h.run.counts.rounds d hd,
      Cluster.rounds_of_not_pushing (by rw [hidle]; rfl)]
  waiting := h.waits hfits hstuck
  buffer := by
    refine List.eq_nil_iff_forall_not_mem.mpr fun w hw => ?_
    have hsound := h.sane.sync.tracked.sound
    obtain ⟨e, he⟩ := Dict.mem_keys_iff.mp (hsound.entries w hw)
    obtain rfl := hsound.key he
    have hidle := h.idle hfits hstuck hids
      (h.sane.group.present e (h.sane.healthy.seats _ e he))
    obtain ⟨δ, hδ⟩ := Dict.mem_keys_iff.mp hw
    obtain ⟨-, -, -, hnone, -⟩ := (hsound.stage e).of_idle hidle
    exact absurd (hδ.symm.trans hnone) (by simp)
  globalStep hne := by
    obtain ⟨d, hd⟩ := hne
    rw [h.run.counts.globalStep, ← h.rounds hfits hstuck hids hmax hd]
    push_cast
    rfl

end Stuck

/-- When training is complete, nothing but a scan can happen. -/
lemma SaneInv.not_canGo (h : s.SaneInv config cosPi env ids members st)
    (hc : s.Complete config members st) : ¬ s.CanGo config cosPi env ids members := by
  rintro ⟨a, s', hidle, hstep, hk⟩
  obtain ⟨hlets, k, hk', rfl⟩ := of_step hstep
  have hmember : ∀ {c}, (s.cluster.clients c).phase ≠ .away → (s.mains c).Finished config ∧
      (s.cluster.clients c).phase = .idle := fun {c} hp =>
    hc.finished c (h.sane.group.present c hp)
  cases rule_of_step hk' with
  | connect hp hs =>
    have hidle' := (hc.finished _ hk.trains).2
    rw [hp] at hidle'
    cases hidle'
  | @request c q sys hp hl hs =>
    obtain ⟨⟨htop, hge⟩, -⟩ := hmember (c := c) (by rw [hp]; simp)
    cases q with
    | pullWeights => exact hlets htop
    | pushGradients step g => exact absurd hlets.2.1 (not_lt.mpr hge)
    | heartbeat reward extra =>
      have hpushed : (s.mains c).stage = .pushed := hlets
      rw [htop] at hpushed
      cases hpushed
  | @receive c q payload rest hp hl hf =>
    have hidle' := (hmember (c := c) (by rw [hp]; simp)).2
    rw [hp] at hidle'
    cases hidle'
  | leave hp hs => exact hk.steady.1 _ rfl
  | @server b sys hi hs =>
    obtain ⟨c, hconn⟩ := ClusterAction.conn_of_not_idle hidle
    obtain ⟨hne, hrecv⟩ := (System.rule_of_step hs).not_waiting hi hconn
    obtain ⟨hinbox, hh | hh⟩ := hc.waiting c
    · exact hne hh
    · rcases hrecv hh with hne' | heof
      · exact hne' hinbox
      · rw [h.sane.sync.steady.eof c] at heof
        cases heof

end Training

/-! ### A run -/

namespace Scenario

/-- What the server may have to send next can be framed. -/
def framesFit (env : ServerEnv ℚ) (s : System ℚ) : Bool :=
  [.weightsResponse s.store.weights, .ack s.store.globalStep, .heartbeatAck].all
    fun resp => (frame env.pickle resp).toOption.isSome

lemma framesFit_sound {env : ServerEnv ℚ} {s : System ℚ} (h : framesFit env s = true) :
    s.FramesFit env := by
  have hframe : ∀ {resp : Response ℚ}, (frame env.pickle resp).toOption.isSome = true →
      ∃ bytes, frame env.pickle resp = .ok bytes := fun {resp} h => by
    cases hb : frame env.pickle resp with
    | ok bytes => exact ⟨bytes, rfl⟩
    | error e => rw [hb] at h; cases h
  simp only [framesFit, List.all_cons, List.all_nil, Bool.and_true, Bool.and_eq_true_iff] at h
  exact ⟨hframe h.1, hframe h.2.1, hframe h.2.2⟩

/-- A check that implies `Healthy`. -/
def healthyCluster (env : ServerEnv ℚ) (members : Finset ConnId) (s : Cluster ℚ)
    (a : ClusterAction ℚ) (s' : Cluster ℚ) : Bool :=
  steady s a s' && trains members s a &&
    (match a with | .server (.fail _) => false | _ => true) && framesFit env s.sys

lemma healthyCluster_sound {env : ServerEnv ℚ} {members : Finset ConnId} {s s' : Cluster ℚ}
    {a : ClusterAction ℚ} (h : healthyCluster env members s a s' = true) :
    s.Healthy env members a s' := by
  simp only [healthyCluster, Bool.and_eq_true_iff] at h
  obtain ⟨⟨⟨hsteady, htrains⟩, hsave⟩, hfits⟩ := h
  refine ⟨steady_sound hsteady, trains_sound htrains, ?_, framesFit_sound hfits⟩
  cases a with
  | server b =>
    cases b with
    | fail c => cases hsave
    | _ => trivial
  | _ => trivial

/-- A check that implies `Healthy` in a run of the first `n` workers. -/
def healthy (env : ServerEnv ℚ) (members : Finset ConnId) (n : ℕ) (s : Training ℚ ℚ)
    (a : ClusterAction ℚ) (s' : Training ℚ ℚ) : Bool :=
  healthyCluster env members s.cluster a s'.cluster && (a.onServer ownId).all fun b => b.below n

lemma healthy_sound {env : ServerEnv ℚ} {members : Finset ConnId} {n : ℕ} {s s' : Training ℚ ℚ}
    {a : ClusterAction ℚ} (h : healthy env members n s a s' = true) :
    s.Healthy env members a s' ∧ ((a.onServer ownId).all fun b => b.below n) = true := by
  obtain ⟨hhealthy, hbelow⟩ := Bool.and_eq_true_iff.mp h
  exact ⟨healthyCluster_sound hhealthy, hbelow⟩

/-- Training for two steps has not begun. -/
def untrained : Training ℚ ℚ := .init ℚ (oneParam 0 0) 30

lemma oneParam_aligned (w : ℚ) (step : ℕ) : (oneParam w step).Aligned := by
  intro name
  simp only [oneParam, Dict.get?_set]
  split_ifs <;> rfl

end Scenario

open Scenario

end DistributedRL
