import DistributedRL.Data.Windows
import DistributedRL.Server.Dashboard
import DistributedRL.Server.Norms

/-!
# The page of the dashboard

The script of `dashboard/dashboard.html`, which keeps its curves and its table up to date with the
messages of its websocket. The page stays when a websocket is closed, and opens another one.

What a page shows is determined by the messages that have arrived, and each point of a curve of
gradient norms belongs to a delta that has been averaged.
-/

namespace DistributedRL

variable {𝕂 : Type*} [Field 𝕂] [LinearOrder 𝕂]

/-- The `MAX_POINTS` of the page -/
def maxPoints : ℕ := 500

/-- The call of the emitter that a message is about, its `timestamp`, and `Date.now()` when it
arrives. -/
structure PageMessage (𝕂 : Type*) where
  event : MetricsEvent 𝕂
  timestamp : 𝕂
  arrival : 𝕂

/-- An entry of `health`; what has not been set is undefined. -/
structure Health (𝕂 : Type*) where
  status : Option Liveness
  lastHeartbeat : Option 𝕂
  reward : Option 𝕂

/-- A chart with a curve for each worker. -/
abbrev Chart (𝕂 : Type*) := WorkerId → List (𝕂 × 𝕂)

/-- The state of the page. -/
structure Page (𝕂 : Type*) where
  reward : Chart 𝕂
  grad : Chart 𝕂
  actorLoss : Chart 𝕂
  criticLoss : Chart 𝕂
  entropy : Chart 𝕂
  health : WorkerId → Option (Health 𝕂)
  updateTimes : List 𝕂
  freq : List (𝕂 × 𝕂)

/-- `push(dsFor(chart, store, wid), x, y)` -/
def Chart.push (chart : Chart 𝕂) (w : WorkerId) (point : 𝕂 × 𝕂) : Chart 𝕂 :=
  Function.update chart w (pushBounded maxPoints (chart w) point)

omit [Field 𝕂] [LinearOrder 𝕂] in
lemma Chart.push_apply (chart : Chart 𝕂) (v w : WorkerId) (point : 𝕂 × 𝕂) :
    chart.push v point w = if v = w then pushBounded maxPoints (chart w) point else chart w := by
  by_cases h : v = w
  · subst h
    simp [push]
  · simp [push, h, Function.update_of_ne (Ne.symm h)]

/-- `m.global_step`; what a worker sends with a heartbeat may replace it. -/
def MetricsEvent.globalStep : MetricsEvent 𝕂 → 𝕂
  | .weightUpdate step _ _ => step
  | .heartbeat _ step _ extra => (extra.get? "global_step").getD step

namespace Page

/-- The page before its first message. -/
def init : Page 𝕂 where
  reward _ := []
  grad _ := []
  actorLoss _ := []
  criticLoss _ := []
  entropy _ := []
  health _ := none
  updateTimes := []
  freq := []

/-- `if (m[key] !== undefined) push(dsFor(chart, store, wid), m.global_step, m[key])` -/
def pushExtra (chart : Chart 𝕂) (w : WorkerId) (x : 𝕂) (extra : Dict String 𝕂) (key : String) :
    Chart 𝕂 :=
  (extra.get? key).elim chart fun y => chart.push w (x, y)

/-- The entry of `health` after `health[wid] = health[wid] || {}` -/
def entry (health : WorkerId → Option (Health 𝕂)) (w : WorkerId) : Health 𝕂 :=
  (health w).getD ⟨none, none, none⟩

/-- `onMessage` -/
def onMessage (p : Page 𝕂) (m : PageMessage 𝕂) : Page 𝕂 :=
  let x := m.event.globalStep
  match m.event with
  | .heartbeat w _ reward extra =>
    { p with
      reward := p.reward.push w (x, reward)
      actorLoss := pushExtra p.actorLoss w x extra "avg_actor_loss"
      criticLoss := pushExtra p.criticLoss w x extra "avg_critic_loss"
      entropy := pushExtra p.entropy w x extra "avg_entropy"
      health := Function.update p.health w
        (some ⟨(entry p.health w).status.or (some .alive), some m.arrival, some reward⟩) }
  | .weightUpdate _ norms statuses =>
    let updateTimes := pushRolling ((10000 : ℕ) : 𝕂) p.updateTimes (m.timestamp * (1000 : ℕ))
    { p with
      grad := norms.entries.foldl (fun chart e => chart.push e.1 (x, e.2)) p.grad
      health := statuses.entries.foldl (fun health e => Function.update health e.1
        (some { entry health e.1 with status := some e.2 })) p.health
      updateTimes := updateTimes
      freq := pushBounded maxPoints p.freq (x, updateTimes.length / (10 : ℕ)) }

/-- The page after its messages. -/
def run (messages : List (PageMessage 𝕂)) : Page 𝕂 := messages.foldl onMessage init

lemma run_concat (messages : List (PageMessage 𝕂)) (m : PageMessage 𝕂) :
    run (messages ++ [m]) = (run messages).onMessage m := by
  rw [run, List.foldl_append]
  rfl

end Page

/-! ### What a message is about -/

namespace MetricsEvent

variable (w : WorkerId)

/-- What a message adds to the reward curve of a worker. -/
def rewardPoint (e : MetricsEvent 𝕂) : Option (𝕂 × 𝕂) :=
  match e with
  | .heartbeat v _ reward _ => if v = w then some (e.globalStep, reward) else none
  | .weightUpdate _ _ _ => none

/-- What a message adds to the curve of what a worker sends under `key`. -/
def extraPoint (key : String) (e : MetricsEvent 𝕂) : Option (𝕂 × 𝕂) :=
  match e with
  | .heartbeat v _ _ extra =>
    if v = w then (extra.get? key).map fun y => (e.globalStep, y) else none
  | .weightUpdate _ _ _ => none

/-- What a message adds to the curve of the gradient norms of a worker. -/
def gradPoint (e : MetricsEvent 𝕂) : Option (𝕂 × 𝕂) :=
  match e with
  | .heartbeat _ _ _ _ => none
  | .weightUpdate _ norms _ => (norms.get? w).map fun y => (e.globalStep, y)

/-- The status of a worker in a message. -/
def status : MetricsEvent 𝕂 → Option Liveness
  | .heartbeat _ _ _ _ => none
  | .weightUpdate _ _ statuses => statuses.get? w

/-- The reward of a worker in a message. -/
def latestReward : MetricsEvent 𝕂 → Option 𝕂
  | .heartbeat v _ reward _ => if v = w then some reward else none
  | .weightUpdate _ _ _ => none

end MetricsEvent

/-- The step and the time of an update. -/
def PageMessage.update (m : PageMessage 𝕂) : Option (𝕂 × 𝕂) :=
  match m.event with
  | .heartbeat _ _ _ _ => none
  | .weightUpdate _ _ _ => some (m.event.globalStep, m.timestamp)

/-- The point for the last one of some updates: its step, and the updates per second in the ten
seconds before it. -/
def updateRate (updates : List (𝕂 × 𝕂)) : 𝕂 × 𝕂 :=
  let last := updates.getLast?.getD (0, 0)
  (last.1, (updates.countP fun u => last.2 - u.2 ≤ (10 : ℕ)) / (10 : ℕ))

/-- Updates of a function at the keys of a dict, one after the other. -/
lemma Dict.foldl_update_apply {κ ν β : Type*} [DecidableEq κ] (d : Dict κ ν) (f : ν → β → β)
    (g : κ → β) (k : κ) :
    d.entries.foldl (fun g e => Function.update g e.1 (f e.2 (g e.1))) g k =
      (d.get? k).elim (g k) fun v => f v (g k) := by
  obtain ⟨entries, hn⟩ := d
  rw [Dict.get?]
  induction entries generalizing g with
  | nil => rfl
  | cons e entries ih =>
    obtain ⟨he, hn⟩ := List.nodup_cons.mp hn
    rw [List.foldl_cons, ih _ hn, List.find?_cons]
    by_cases hk : e.1 = k
    · subst hk
      have hnone : entries.find? (fun p => p.1 = e.1) = none := by
        simpa using fun a b hab hae => he (List.mem_map.mpr ⟨(a, b), hab, hae⟩)
      simp [hnone]
    · simp [hk, Function.update_of_ne (Ne.symm hk)]

namespace Page

/-! ### The curves -/

/-- A curve to which every message adds what `point` says shows the last points. -/
lemma curve_run (curve : Page 𝕂 → List (𝕂 × 𝕂)) {point : PageMessage 𝕂 → Option (𝕂 × 𝕂)}
    (hinit : curve init = [])
    (h : ∀ p m, curve (p.onMessage m) =
      (point m).elim (curve p) fun x => pushBounded maxPoints (curve p) x)
    (messages : List (PageMessage 𝕂)) :
    curve (run messages) = (messages.filterMap point).rtake maxPoints := by
  induction messages using List.reverseRecOn with
  | nil =>
    rw [List.filterMap_nil, List.rtake_nil]
    exact hinit
  | append_singleton messages m ih =>
    rw [run_concat, h, ih, List.filterMap_append]
    cases hm : point m with
    | none => simp [hm]
    | some x => simp [hm, pushBounded_rtake]

variable (w : WorkerId)

lemma reward_run (messages : List (PageMessage 𝕂)) :
    (run messages).reward w =
      (messages.filterMap fun m => m.event.rewardPoint w).rtake maxPoints := by
  refine curve_run (fun p => p.reward w) rfl (fun p m => ?_) messages
  obtain ⟨e, _, _⟩ := m
  cases e with
  | weightUpdate step norms statuses => simp [onMessage, MetricsEvent.rewardPoint]
  | heartbeat v step reward extra =>
    simp only [onMessage, Chart.push_apply, MetricsEvent.rewardPoint]
    split_ifs <;> rfl

omit [Field 𝕂] [LinearOrder 𝕂] in
lemma pushExtra_apply (chart : Chart 𝕂) (v : WorkerId) (x : 𝕂) (extra : Dict String 𝕂)
    (key : String) : pushExtra chart v x extra key w =
      (if v = w then (extra.get? key).map fun y => (x, y) else none).elim (chart w)
        fun point => pushBounded maxPoints (chart w) point := by
  rw [pushExtra]
  cases extra.get? key with
  | none => split_ifs <;> rfl
  | some y =>
    simp only [Option.elim_some, Chart.push_apply, Option.map_some]
    split_ifs <;> rfl

/-- The curves of what a worker sends with its heartbeats. -/
lemma extra_run {chart : Page 𝕂 → Chart 𝕂} {key : String} (hinit : chart init = fun _ => [])
    (hbeat : ∀ p v step reward extra timestamp arrival,
      chart (onMessage p ⟨.heartbeat v step reward extra, timestamp, arrival⟩) =
        pushExtra (chart p) v ((extra.get? "global_step").getD step) extra key)
    (hupdate : ∀ p step norms statuses timestamp arrival,
      chart (onMessage p ⟨.weightUpdate step norms statuses, timestamp, arrival⟩) = chart p)
    (messages : List (PageMessage 𝕂)) : chart (run messages) w =
      (messages.filterMap fun m => m.event.extraPoint w key).rtake maxPoints := by
  refine curve_run (fun p => chart p w) (congrFun hinit w) (fun p m => ?_) messages
  obtain ⟨e, timestamp, arrival⟩ := m
  cases e with
  | weightUpdate step norms statuses => exact congrFun (hupdate _ _ _ _ _ _) w
  | heartbeat v step reward extra =>
    rw [hbeat, pushExtra_apply]
    rfl

lemma grad_run (messages : List (PageMessage 𝕂)) :
    (run messages).grad w = (messages.filterMap fun m => m.event.gradPoint w).rtake maxPoints := by
  refine curve_run (fun p => p.grad w) rfl (fun p m => ?_) messages
  obtain ⟨e, _, _⟩ := m
  cases e with
  | heartbeat v step reward extra => simp [onMessage, MetricsEvent.gradPoint]
  | weightUpdate step norms statuses =>
    have hfold := norms.foldl_update_apply
      (fun y points => pushBounded maxPoints points ((step : 𝕂), y)) p.grad w
    rw [MetricsEvent.gradPoint]
    simp only [onMessage, MetricsEvent.globalStep]
    refine hfold.trans ?_
    cases norms.get? w <;> rfl

/-! ### The table -/

/-- A value that a message sets, or leaves alone, is what the latest message has set. -/
lemma latest_run {β : Type*} (value : Page 𝕂 → Option β) {new : PageMessage 𝕂 → Option β}
    (hinit : value init = none) (h : ∀ p m, value (p.onMessage m) = (new m).or (value p))
    (messages : List (PageMessage 𝕂)) :
    value (run messages) = (messages.filterMap new).getLast? := by
  induction messages using List.reverseRecOn with
  | nil => exact hinit
  | append_singleton messages m ih =>
    rw [run_concat, h, ih, List.filterMap_append, List.getLast?_append]
    cases hm : new m <;> simp [hm]

/-- `health[wid].reward` -/
def latestReward (p : Page 𝕂) : Option 𝕂 := (p.health w).bind Health.reward

/-- `health[wid].status` -/
def status (p : Page 𝕂) : Option Liveness := (p.health w).bind Health.status

lemma latestReward_run (messages : List (PageMessage 𝕂)) : (run messages).latestReward w =
    (messages.filterMap fun m => m.event.latestReward w).getLast? := by
  refine latest_run (fun p => p.latestReward w) rfl (fun p m => ?_) messages
  obtain ⟨e, _, _⟩ := m
  cases e with
  | heartbeat v step reward extra =>
    by_cases hv : v = w
    · subst hv
      simp [latestReward, onMessage, MetricsEvent.latestReward]
    · simp [latestReward, onMessage, MetricsEvent.latestReward, hv,
        Function.update_of_ne (Ne.symm hv)]
  | weightUpdate step norms statuses =>
    have hfold := statuses.foldl_update_apply
      (fun st (h : Option (Health 𝕂)) => some { h.getD ⟨none, none, none⟩ with status := some st })
      p.health w
    simp only [latestReward, onMessage, MetricsEvent.latestReward, Option.none_or]
    refine (congrArg (Option.bind · Health.reward) hfold).trans ?_
    cases statuses.get? w <;> cases p.health w <;> rfl

lemma status_onMessage (p : Page 𝕂) (m : PageMessage 𝕂) : (p.onMessage m).status w =
    (m.event.status w).or ((p.status w).or ((m.event.latestReward w).map fun _ => .alive)) := by
  obtain ⟨e, _, _⟩ := m
  cases e with
  | heartbeat v step reward extra =>
    by_cases hv : v = w
    · subst hv
      cases hh : p.health v <;>
        simp [status, onMessage, entry, hh, MetricsEvent.status, MetricsEvent.latestReward]
    · simp [status, onMessage, MetricsEvent.status, MetricsEvent.latestReward, hv,
        Function.update_of_ne (Ne.symm hv)]
  | weightUpdate step norms statuses =>
    have hfold := statuses.foldl_update_apply (fun st (h : Option (Health 𝕂)) =>
      some { h.getD ⟨none, none, none⟩ with status := some st }) p.health w
    simp only [MetricsEvent.status, MetricsEvent.latestReward, Option.map_none, Option.or_none]
    refine (congrArg (Option.bind · Health.status) hfold).trans ?_
    cases statuses.get? w <;> rfl

/-- The status is that of the latest update that lists the worker, or `ALIVE` once a heartbeat of
the worker has come. -/
lemma status_run (messages : List (PageMessage 𝕂)) : (run messages).status w =
    (messages.filterMap fun m => m.event.status w).getLast?.or
      ((messages.filterMap fun m => m.event.latestReward w).getLast?.map fun _ => .alive) := by
  induction messages using List.reverseRecOn with
  | nil => rfl
  | append_singleton messages m ih =>
    rw [run_concat, status_onMessage, ih, List.filterMap_append, List.filterMap_append,
      List.getLast?_append, List.getLast?_append]
    cases hs : m.event.status w <;> cases hr : m.event.latestReward w <;>
      cases (messages.filterMap fun m => m.event.status w).getLast? <;>
        cases (messages.filterMap fun m => m.event.latestReward w).getLast? <;> simp [hs, hr]

/-! ### The updates per second -/

lemma updateTimes_run (messages : List (PageMessage 𝕂)) : (run messages).updateTimes =
    ((messages.filterMap PageMessage.update).map fun u => u.2 * ((1000 : ℕ) : 𝕂)).foldl
      (pushRolling ((10000 : ℕ) : 𝕂)) [] := by
  induction messages using List.reverseRecOn with
  | nil => rfl
  | append_singleton messages m ih =>
    obtain ⟨e, timestamp, arrival⟩ := m
    rw [run_concat, List.filterMap_append, List.map_append, List.foldl_append, ← ih]
    cases e <;> rfl

/-- The window holds the updates of the last ten seconds. -/
lemma length_pushRolling [IsStrictOrderedRing 𝕂] {updates : List (𝕂 × 𝕂)} {u : 𝕂 × 𝕂}
    (h : ((updates ++ [u]).map Prod.snd).Pairwise (· ≤ ·)) :
    (((updates ++ [u]).map fun u => u.2 * ((1000 : ℕ) : 𝕂)).foldl
      (pushRolling ((10000 : ℕ) : 𝕂)) []).length =
      (updates ++ [u]).countP fun v => u.2 - v.2 ≤ (10 : ℕ) := by
  have hms : ((updates ++ [u]).map fun u => u.2 * ((1000 : ℕ) : 𝕂)).Pairwise (· ≤ ·) := by
    rw [List.pairwise_map] at h ⊢
    exact h.imp fun hle => mul_le_mul_of_nonneg_right hle (Nat.cast_nonneg _)
  rw [List.map_append] at hms ⊢
  rw [List.map_singleton] at hms ⊢
  rw [foldl_pushRolling hms, ← List.map_singleton (f := fun u : 𝕂 × 𝕂 => u.2 * ((1000 : ℕ) : 𝕂)),
    ← List.map_append, ← List.countP_eq_length_filter, List.countP_map]
  refine List.countP_congr fun v _ => ?_
  simp only [Function.comp_apply, decide_eq_true_eq]
  push_cast
  constructor <;> intro hle <;> linarith

lemma inits_concat_tail {β : Type*} (xs : List β) (x : β) :
    (xs ++ [x]).inits.tail = xs.inits.tail ++ [xs ++ [x]] := by
  rw [List.inits_append, List.tail_append_of_ne_nil (by cases xs <;> simp)]
  simp

/-- An update adds its rate. -/
lemma freq_onMessage [IsStrictOrderedRing 𝕂] {messages : List (PageMessage 𝕂)}
    {m : PageMessage 𝕂} {u : 𝕂 × 𝕂} (hu : m.update = some u)
    (h : ((messages.filterMap PageMessage.update ++ [u]).map Prod.snd).Pairwise (· ≤ ·)) :
    (run (messages ++ [m])).freq = pushBounded maxPoints (run messages).freq
      (updateRate (messages.filterMap PageMessage.update ++ [u])) := by
  have htimes := updateTimes_run (messages ++ [m])
  rw [List.filterMap_append, List.filterMap_cons_some hu, List.filterMap_nil] at htimes
  have hlen := length_pushRolling h
  rw [← htimes] at hlen
  have hrate : updateRate (messages.filterMap PageMessage.update ++ [u]) =
      (u.1, (run (messages ++ [m])).updateTimes.length / ((10 : ℕ) : 𝕂)) := by
    rw [hlen, updateRate, List.getLast?_concat]
    rfl
  rw [hrate, run_concat]
  obtain ⟨e, timestamp, arrival⟩ := m
  cases e with
  | heartbeat v step reward extra => cases hu
  | weightUpdate step norms statuses =>
    obtain rfl := Option.some.inj hu
    rfl

lemma freq_run [IsStrictOrderedRing 𝕂] {messages : List (PageMessage 𝕂)}
    (h : ((messages.filterMap PageMessage.update).map Prod.snd).Pairwise (· ≤ ·)) :
    (run messages).freq =
      ((messages.filterMap PageMessage.update).inits.tail.map updateRate).rtake maxPoints := by
  induction messages using List.reverseRecOn with
  | nil => simp [run, init]
  | append_singleton messages m ih =>
    rw [List.filterMap_append] at h ⊢
    cases hu : m.update with
    | none =>
      rw [List.filterMap_cons_none hu, List.filterMap_nil, List.append_nil] at h ⊢
      rw [← ih h, run_concat]
      obtain ⟨e, timestamp, arrival⟩ := m
      cases e with
      | heartbeat v step reward extra => rfl
      | weightUpdate step norms statuses => cases hu
    | some u =>
      rw [List.filterMap_cons_some hu, List.filterMap_nil] at h ⊢
      have hold := h
      rw [List.map_append] at hold
      rw [freq_onMessage hu h, ih (List.pairwise_append.mp hold).1, pushBounded_rtake,
        inits_concat_tail, List.map_append, List.map_singleton]

/-- What a page shows after its messages. -/
structure Shows (messages : List (PageMessage 𝕂)) (p : Page 𝕂) : Prop where
  reward : ∀ w, p.reward w =
    (messages.filterMap fun m => m.event.rewardPoint w).rtake maxPoints
  grad : ∀ w, p.grad w = (messages.filterMap fun m => m.event.gradPoint w).rtake maxPoints
  actorLoss : ∀ w, p.actorLoss w =
    (messages.filterMap fun m => m.event.extraPoint w "avg_actor_loss").rtake maxPoints
  criticLoss : ∀ w, p.criticLoss w =
    (messages.filterMap fun m => m.event.extraPoint w "avg_critic_loss").rtake maxPoints
  entropy : ∀ w, p.entropy w =
    (messages.filterMap fun m => m.event.extraPoint w "avg_entropy").rtake maxPoints
  latestReward : ∀ w, p.latestReward w =
    (messages.filterMap fun m => m.event.latestReward w).getLast?
  status : ∀ w, p.status w = (messages.filterMap fun m => m.event.status w).getLast?.or
    ((p.latestReward w).map fun _ => .alive)
  freq : ((messages.filterMap PageMessage.update).map Prod.snd).Pairwise (· ≤ ·) →
    p.freq = ((messages.filterMap PageMessage.update).inits.tail.map updateRate).rtake maxPoints

lemma shows_run [IsStrictOrderedRing 𝕂] (messages : List (PageMessage 𝕂)) :
    (run messages).Shows messages where
  reward w := reward_run w messages
  grad w := grad_run w messages
  actorLoss w := extra_run w rfl (fun _ _ _ _ _ _ _ => rfl) (fun _ _ _ _ _ _ => rfl) messages
  criticLoss w := extra_run w rfl (fun _ _ _ _ _ _ _ => rfl) (fun _ _ _ _ _ _ => rfl) messages
  entropy w := extra_run w rfl (fun _ _ _ _ _ _ _ => rfl) (fun _ _ _ _ _ _ => rfl) messages
  latestReward w := latestReward_run w messages
  status w := by rw [latestReward_run, status_run]
  freq h := freq_run h

end Page

namespace Scenario

/-- Browser `5` connects and is sent the metric of a round. -/
def watchesRound : List (ObservedAction ℚ) :=
  emitsLeft.map .server ++ [.join 5, .get [5], .sent].map .dashboard

/-- The messages have arrived at once. -/
def atOnce (events : List (MetricsEvent ℚ)) : List (PageMessage ℚ) :=
  events.map fun e => ⟨e, 0, 0⟩

end Scenario

open Scenario

end DistributedRL
