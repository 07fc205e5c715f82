import DistributedRL.Server.Deltas
import DistributedRL.Server.Sending

/-!
# The conversation with one worker

A worker has at most one request outstanding. What becomes of it can be told from the worker's own
connection, its entry in the buffer and the ACKs that other threads owe it. As long as every round
that is completed covers every registered worker, each request has at most one answer under way,
and that answer is of the right kind.
-/

namespace DistributedRL

variable {α : Type*}

/-! ### Views -/

namespace Handler

/-- What the thread of `t` has in hand for `d`: nothing, an ACK that is due, or a message in the
middle of being sent. -/
def talk (h : Handler α) (t d : ConnId) : Option (Option (Response α × List UInt8)) :=
  match h.writing t d with
  | some x => some (some x)
  | none => if d ∈ h.owed then some none else none

/-- The message in hand. -/
def held : Handler α → Option (Message α)
  | .register m | .registerSocket m | .dispatch m | .beaten m => some m
  | _ => none

/-- The thread is after `heartbeat_monitor.beat`. -/
def Beaten : Handler α → Bool
  | .beaten _ => true
  | _ => false

/-- The thread is not busy with a request of its own worker. -/
def Free : Handler α → Bool
  | .absent | .register _ | .registerSocket _ | .dispatch _ | .reply .. | .beaten _ => false
  | _ => true

/-- The thread waits for a request or is on its way out. -/
def Parked : Handler α → Bool
  | .recv | .markDead | .unregister | .close | .done => true
  | _ => false

end Handler

/-- Whether the call is `push_gradients`. -/
def Request.IsPush : Request α → Prop
  | .pushGradients _ _ => True
  | _ => False

/-- What the outstanding request of a worker depends on. -/
structure View (α : Type*) where
  phase : Phase α
  inbox : List (Received α)
  handler : Handler α
  unread : List UInt8
  entry : Option (Delta α)
  talk : ConnId → Option (Option (Response α × List UInt8))

/-- The view of the worker of `d`, whose id is `w`. -/
def System.view (s : System α) (k : Client α) (w : WorkerId) (d : ConnId) : View α where
  phase := k.phase
  inbox := (s.conns d).inbox
  handler := (s.conns d).handler
  unread := (s.conns d).written.drop k.consumed
  entry := s.agg.buffer.get? w
  talk t := (s.conns t).handler.talk t d

/-- What the thread of `t` has in hand for a worker that waits for the answer to `q` and has the
bytes `unread` before it. -/
def Answering (p : Pickle (Response α)) (q : Request α) (unread : List UInt8) :
    Option (Response α × List UInt8) → Prop
  | none => q.IsPush ∧ unread = []
  | some (m, rest) => q.Expects m ∧ frame p m = .ok (unread ++ rest) ∧ rest ≠ []

/-- How far the outstanding request of the worker of `d` has come. -/
inductive Stage [NatCast α] (p : Pickle (Response α)) (w : WorkerId) (d : ConnId) (v : View α) :
    Prop
  | away (hp : v.phase = .away) (hh : v.handler = .absent) (hi : v.inbox = [])
      (hu : v.unread = []) (he : v.entry = none) (ht : ∀ t, v.talk t = none)
  | idle (hp : v.phase = .idle) (hh : v.handler.Free) (hi : v.inbox = [])
      (hu : v.unread = []) (he : v.entry = none) (ht : ∀ t, v.talk t = none)
  /-- not yet read by the handler -/
  | queued {q} (hp : v.phase = .waiting q) (hh : v.handler.Free)
      (hi : v.inbox = [.message (q.message w)])
      (hu : v.unread = []) (he : v.entry = none) (ht : ∀ t, v.talk t = none)
  /-- in the hands of the handler -/
  | serving {q} (hp : v.phase = .waiting q) (hh : v.handler.held = some (q.message w))
      (hb : v.handler.Beaten → (q.message w).type = .heartbeat) (hi : v.inbox = [])
      (hu : v.unread = []) (he : v.entry = none) (ht : ∀ t, v.talk t = none)
  /-- a push whose delta is in the buffer -/
  | buffered {q δ} (hp : v.phase = .waiting q) (hq : q.IsPush) (hh : v.handler.Parked)
      (hi : v.inbox = [])
      (hu : v.unread = []) (he : v.entry = some δ) (ht : ∀ t, v.talk t = none)
  /-- the thread of `t` will send the answer or is sending it -/
  | answering {q t x} (hp : v.phase = .waiting q)
      (hh : v.handler.Free ∨ v.handler.Replying ∧ t = d ∧ ¬ q.IsPush) (hi : v.inbox = [])
      (ha : Answering p q v.unread x) (he : v.entry = none) (ht : v.talk t = some x)
      (ho : ∀ u ≠ t, v.talk u = none)
  /-- answered, and the answer not yet read -/
  | answered {q m} (hp : v.phase = .waiting q) (hh : v.handler.Free) (hi : v.inbox = [])
      (hm : q.Expects m) (hu : frame p m = .ok v.unread) (he : v.entry = none)
      (ht : ∀ t, v.talk t = none)
  /-- there will be no answer -/
  | lost {q} (hp : v.phase = .waiting q) (hh : v.handler.Free) (hi : v.inbox = [])
      (hu : splitFrame v.unread = none) (he : v.entry = none) (ht : ∀ t, v.talk t = none)

/-! ### What a thread has in hand -/

namespace Handler

variable {h : Handler α} {t d : ConnId}

lemma talk_eq_none : h.talk t d = none ↔ h.writing t d = none ∧ d ∉ h.owed := by
  simp only [talk]
  split
  · next x hx => simp [hx]
  · next hx =>
    split_ifs with hd <;> simp [hx, hd]

lemma talk_of_not_owed (ho : d ∉ h.owed) (hr : h.Replying = false) : h.talk t d = none := by
  refine talk_eq_none.mpr ⟨Option.eq_none_iff_forall_ne_some.mpr ?_, ho⟩
  intro x hx
  rcases of_writing hx with ⟨h', -⟩ | h'
  · rw [hr] at h'
    cases h'
  · exact ho h'

lemma talk_of_owed (hd : d ∈ h.owed) : h.talk t d ≠ none := fun hn => (talk_eq_none.mp hn).2 hd

lemma talk_of_held {m : Message α} (hm : h.held = some m) : h.talk t d = none := by
  cases h <;> simp_all [held, talk, writing, owed]

lemma talk_of_parked (hp : h.Parked) : h.talk t d = none := by
  cases h <;> simp_all [Parked, talk, writing, owed]

lemma parked_free (hp : h.Parked) : h.Free := by
  cases h <;> simp_all [Parked, Free]

lemma not_free_of_held {m : Message α} (hm : h.held = some m) : h.Free = false := by
  cases h <;> simp_all [held, Free]

lemma not_replying_of_held {m : Message α} (hm : h.held = some m) : h.Replying = false := by
  cases h <;> simp_all [held, Replying]

lemma not_replying_of_free (hf : h.Free) : h.Replying = false := by
  cases h <;> simp_all [Replying, Free]

end Handler

namespace Stage

variable [NatCast α] {p : Pickle (Response α)} {w : WorkerId} {d c : ConnId} {v v' : View α}

/-- A handler that holds a message serves the outstanding request. -/
lemma of_held (h : Stage p w d v) {m : Message α} (hm : v.handler.held = some m) :
    ∃ q, v.phase = .waiting q ∧ m = q.message w ∧ (v.handler.Beaten → m.type = .heartbeat) ∧
      v.inbox = [] ∧ v.unread = [] ∧ v.entry = none ∧ ∀ t, v.talk t = none := by
  have hf := Handler.not_free_of_held hm
  cases h with
  | serving hp hh hb hi hu he ht =>
    obtain rfl := Option.some.inj (hm.symm.trans hh)
    exact ⟨_, hp, rfl, hb, hi, hu, he, ht⟩
  | away hp hh => rw [hh] at hm; cases hm
  | buffered hp hq hh => rw [Handler.parked_free hh] at hf; cases hf
  | answering hp hh =>
    rcases hh with hh | ⟨hr, -⟩
    · rw [hh] at hf; cases hf
    · rw [Handler.not_replying_of_held hm] at hr; cases hr
  | idle hp hh | queued hp hh | answered hp hh | lost hp hh => rw [hh] at hf; cases hf

/-- A message that has not been read is the outstanding request. -/
lemma of_inbox (h : Stage p w d v) {x : Received α} {rest : List (Received α)}
    (hx : v.inbox = x :: rest) :
    ∃ q, v.phase = .waiting q ∧ x = .message (q.message w) ∧ rest = [] ∧ v.unread = [] ∧
      v.entry = none ∧ ∀ t, v.talk t = none := by
  cases h
  case queued q hp hh hi hu he ht =>
    rw [hx, List.cons.injEq] at hi
    exact ⟨q, hp, hi.1, hi.2, hu, he, ht⟩
  all_goals simp_all

lemma of_talk (h : Stage p w d v) {t : ConnId} {x : Option (Response α × List UInt8)}
    (hx : v.talk t = some x) :
    ∃ q, v.phase = .waiting q ∧ (v.handler.Free ∨ v.handler.Replying ∧ t = d ∧ ¬ q.IsPush) ∧
      v.inbox = [] ∧ Answering p q v.unread x ∧ v.entry = none ∧ ∀ u ≠ t, v.talk u = none := by
  cases h
  case answering q u y hp hh hi ha he ht ho =>
    have hut : t = u := by
      by_contra hne
      rw [ho t hne] at hx
      cases hx
    subst hut
    rw [hx] at ht
    cases ht
    exact ⟨q, hp, hh, hi, ha, he, ho⟩
  all_goals simp_all

/-- A delta in the buffer is that of the outstanding push. -/
lemma of_entry (h : Stage p w d v) {δ : Delta α} (hδ : v.entry = some δ) :
    ∃ q, v.phase = .waiting q ∧ q.IsPush ∧ v.handler.Parked ∧ v.inbox = [] ∧ v.unread = [] ∧
      ∀ t, v.talk t = none := by
  cases h
  case buffered q δ' hp hq hh hi hu he ht => exact ⟨q, hp, hq, hh, hi, hu, ht⟩
  all_goals simp_all

/-- A worker between two calls has nothing under way. -/
lemma of_idle (h : Stage p w d v) (hp : v.phase = .idle) :
    v.handler.Free ∧ v.inbox = [] ∧ v.unread = [] ∧ v.entry = none ∧ ∀ t, v.talk t = none := by
  cases h <;> simp_all

lemma of_away (h : Stage p w d v) (hp : v.phase = .away) :
    v.inbox = [] ∧ v.unread = [] ∧ v.entry = none ∧ ∀ t, v.talk t = none := by
  cases h <;> simp_all

/-- What a worker can read is the answer it waits for. -/
lemma of_split (h : Stage p w d v) {payload rest : List UInt8}
    (hs : splitFrame v.unread = some (payload, rest)) :
    ∃ q m, v.phase = .waiting q ∧ q.Expects m ∧ payload = p.dumps m ∧ rest = [] ∧
      v.handler.Free ∧ v.inbox = [] ∧ v.entry = none ∧ ∀ t, v.talk t = none := by
  cases h
  case answered q m hp hh hi hm hu he ht =>
    have hsplit := splitFrame_append hu []
    rw [List.append_nil, hs, Option.some.injEq, Prod.mk.injEq] at hsplit
    exact ⟨q, m, hp, hm, hsplit.1, hsplit.2, hh, hi, he, ht⟩
  case answering q t x hp hh hi ha he ht ho =>
    rcases x with - | ⟨m, rest'⟩
    · rw [ha.2] at hs
      cases hs
    · rw [splitFrame_cut ha.2.1 rfl ha.2.2] at hs
      cases hs
  all_goals simp_all

/-- The thread of the worker goes on to something that is not a request of its worker. -/
lemma goto (h : Stage p w d v) (hf : v.handler.Free) {h' : Handler α} (hf' : h'.Free)
    (hpark : v.handler.Parked → h'.Parked) : Stage p w d { v with handler := h' } := by
  cases h with
  | away hp hh => rw [hh] at hf; cases hf
  | serving hp hh => rw [Handler.not_free_of_held hh] at hf; cases hf
  | idle hp hh hi hu he ht => exact .idle hp hf' hi hu he ht
  | queued hp hh hi hu he ht => exact .queued hp hf' hi hu he ht
  | buffered hp hq hh hi hu he ht => exact .buffered hp hq (hpark hh) hi hu he ht
  | answering hp hh hi ha he ht ho => exact .answering hp (Or.inl hf') hi ha he ht ho
  | answered hp hh hi hm hu he ht => exact .answered hp hf' hi hm hu he ht
  | lost hp hh hi hu he ht => exact .lost hp hf' hi hu he ht

/-- The thread of `c` changes what it has in hand for the worker: it starts to send an ACK that
was due, or drops it. -/
lemma redirect (h : Stage p w d v) (hf : c = d → v.handler.Free)
    {y : Option (Option (Response α × List UInt8))}
    (hy : y = v.talk c ∨ v.talk c ≠ none ∧ y = none ∨
      v.talk c = some none ∧ ∃ step rest, y = some (some (.ack step, rest)) ∧
        frame p (.ack step) = .ok rest) :
    Stage p w d { v with talk := Function.update v.talk c y } := by
  rcases hy with rfl | ⟨hc, rfl⟩ | ⟨hc, step, rest, rfl, hr⟩
  · rwa [Function.update_eq_self]
  · obtain ⟨x, hx⟩ := Option.ne_none_iff_exists'.mp hc
    obtain ⟨q, hp, hh, hi, ha, he, ho⟩ := h.of_talk hx
    have hfree : v.handler.Free := by
      rcases hh with hh | ⟨hrep, hcd, -⟩
      · exact hh
      · exact hf hcd
    refine .lost hp hfree hi ?_ he ?_
    · rcases x with - | ⟨m, rest⟩
      · rw [ha.2]
        rfl
      · exact splitFrame_cut ha.2.1 rfl ha.2.2
    · intro t
      by_cases htc : t = c
      · simp [htc]
      · simpa [htc] using ho t htc
  · obtain ⟨q, hp, hh, hi, ⟨hq, hu⟩, he, ho⟩ := h.of_talk hc
    refine .answering (x := some (.ack step, rest)) (t := c) hp hh hi ⟨?_, ?_, ?_⟩ he (by simp)
      ?_
    · cases q <;> trivial
    · rw [hu]
      exact hr
    · exact frame_ne_nil hr
    · intro t ht
      simpa [ht] using ho t ht

/-- A part of the answer is sent. -/
lemma part (h : Stage p w d v) {m : Response α} {rest : List UInt8}
    (hc : v.talk c = some (some (m, rest))) {n : ℕ} (hn : n < rest.length) (h' : Handler α)
    (hh' : v.handler.Free → h'.Free) (hr' : v.handler.Replying → h'.Replying) :
    Stage p w d { v with
      handler := h', unread := v.unread ++ rest.take n,
      talk := Function.update v.talk c (some (some (m, rest.drop n))) } := by
  obtain ⟨q, hp, hh, hi, ⟨hm, hframe, -⟩, he, ho⟩ := h.of_talk hc
  refine .answering (x := some (m, rest.drop n)) (t := c) hp
    (hh.imp hh' fun hr => ⟨hr' hr.1, hr.2⟩) hi ⟨hm, ?_, ?_⟩ he (by simp) ?_
  · rw [List.append_assoc, List.take_append_drop]
    exact hframe
  · simpa using hn
  · intro t ht
    simpa [ht] using ho t ht

/-- The last part of the answer is sent. -/
lemma finish (h : Stage p w d v) {m : Response α} {rest : List UInt8}
    (hc : v.talk c = some (some (m, rest))) {h' : Handler α} (hf' : h'.Free) :
    Stage p w d { v with
      handler := h', unread := v.unread ++ rest, talk := Function.update v.talk c none } := by
  obtain ⟨q, hp, hh, hi, ⟨hm, hframe, -⟩, he, ho⟩ := h.of_talk hc
  refine .answered hp hf' hi hm hframe he ?_
  intro t
  by_cases htc : t = c
  · simp [htc]
  · simpa [htc] using ho t htc

end Stage

/-! ### How a move of one thread shows in the views -/

namespace Handler

variable {h : Handler α} {t d : ConnId}

@[simp] lemma talk_reply {resp : Response α} {rest : List UInt8} :
    (reply resp rest).talk t d = if d = t then some (some (resp, rest)) else none := by
  simp only [talk, writing, owed]
  split_ifs <;> simp

@[simp] lemma talk_apply {r : Round α} :
    (apply r).talk t d = if d ∈ r.sockets.values then some none else none := rfl

@[simp] lemma talk_getStep {r : Round α} :
    (getStep r).talk t d = if d ∈ r.sockets.values then some none else none := rfl

lemma talk_acks {r : Round α} {step : ℕ} {e : ConnId} {todo : List ConnId} {rest : List UInt8} :
    (acks r step (e :: todo) rest).talk t d =
      if d = e then some (some (.ack step, rest)) else if d ∈ todo then some none else none := by
  simp only [talk, writing, owed, List.mem_cons]
  split_ifs <;> simp_all

end Handler

namespace System

variable {s : System α} {k : Client α} {w : WorkerId} {c d e : ConnId} {h : Handler α}

@[simp] lemma talk_exit : (s.exit c).talk c d = none :=
  Handler.talk_of_not_owed (by simp) (by simp)

lemma talk_replying (env : ServerEnv α) (resp : Response α) (hd : d ≠ c) :
    (s.replying env c resp).talk c d = none := by
  rcases s.replying_cases c env resp with ⟨bytes, -, h⟩ | h
  · simp [h, hd]
  · rw [h, talk_exit]

/-- In the ACK loop, a connection that is left is next or due. -/
lemma talk_acking (env : ServerEnv α) (r : Round α) (step : ℕ) (todo : List ConnId) (d : ConnId) :
    (s.acking env c r step todo).talk c d = none ∨ d ∈ todo ∧
      ((s.acking env c r step todo).talk c d = some none ∨
        ∃ rest, (s.acking env c r step todo).talk c d = some (some (.ack step, rest)) ∧
          frame env.pickle (.ack step) = .ok rest) := by
  rcases s.acking_cases c env r step todo with ⟨-, h⟩ | ⟨hne, bytes, hb, h⟩ | h
  · exact Or.inl (by rw [h]; rfl)
  · obtain ⟨e, todo, rfl⟩ := List.exists_cons_of_ne_nil hne
    rw [h, Handler.talk_acks]
    split_ifs with hd hd'
    · exact Or.inr ⟨by simp [hd], Or.inr ⟨bytes, rfl, hb⟩⟩
    · exact Or.inr ⟨by simp [hd'], Or.inl rfl⟩
    · exact Or.inl rfl
  · exact Or.inl (by rw [h, talk_exit])

lemma free_exit : (s.exit c).Free := by
  rcases s.exit_cases c with h | h <;> rw [h] <;> rfl

lemma parked_exit : (s.exit c).Parked := by
  rcases s.exit_cases c with h | h <;> rw [h] <;> rfl

lemma free_acking (env : ServerEnv α) (r : Round α) (step : ℕ) (todo : List ConnId) :
    (s.acking env c r step todo).Free := by
  rcases s.acking_cases c env r step todo with ⟨-, h⟩ | ⟨-, _, -, h⟩ | h
  · rw [h]; rfl
  · rw [h]; rfl
  · rw [h]; exact free_exit

lemma view_setConn (m : Conn α) : (s.setConn c m).view k w d =
    { phase := k.phase
      inbox := (if d = c then m else s.conns d).inbox
      handler := (if d = c then m else s.conns d).handler
      unread := (if d = c then m else s.conns d).written.drop k.consumed
      entry := s.agg.buffer.get? w
      talk := Function.update (s.view k w d).talk c (m.handler.talk c d) } := by
  simp only [view, conns_setConn, agg_setConn, View.mk.injEq, true_and]
  funext t
  by_cases htc : t = c <;> simp [htc]

lemma view_goto : (s.goto c h).view k w d =
    { s.view k w d with
      handler := if d = c then h else (s.conns d).handler
      talk := Function.update (s.view k w d).talk c (h.talk c d) } := by
  rw [goto, view_setConn]
  by_cases hd : d = c <;> simp [view, hd]

/-- A thread that has nothing in hand for `d` before or after leaves its view alone. -/
lemma view_setConn_of_ne {m : Conn α} (hd : d ≠ c)
    (ht : m.handler.talk c d = (s.conns c).handler.talk c d) :
    (s.setConn c m).view k w d = s.view k w d := by
  have hu : Function.update (s.view k w d).talk c (m.handler.talk c d) = (s.view k w d).talk := by
    rw [ht]
    exact Function.update_eq_self ..
  rw [view_setConn, hu]
  simp [view, hd]

lemma view_goto_of_ne (hd : d ≠ c) (ht : h.talk c d = (s.conns c).handler.talk c d) :
    (s.goto c h).view k w d = s.view k w d :=
  view_setConn_of_ne hd ht

lemma view_send (bytes : List UInt8) (hk : k.consumed ≤ (s.conns d).written.length) :
    (s.send e bytes).view k w d =
      { s.view k w d with
        unread := if d = e then (s.view k w d).unread ++ bytes else (s.view k w d).unread } := by
  simp only [view, inbox_send, handler_send, written_send, agg_send, View.mk.injEq, true_and,
    and_true]
  split_ifs
  · exact List.drop_append_of_le_length hk
  · rfl

@[simp] lemma view_reset : (s.reset e).view k w d = s.view k w d := by
  simp [view]

variable [NatCast α] {p : Pickle (Response α)}

/-- A thread that is not busy with a request of its own worker moves on. -/
lemma stage_goto (hst : Stage p w d (s.view k w d))
    (hfree : d = c → (s.conns c).handler.Free ∧ h.Free ∧
      ((s.conns c).handler.Parked → h.Parked))
    (ht : h.talk c d = (s.conns c).handler.talk c d ∨
      (s.conns c).handler.talk c d ≠ none ∧ h.talk c d = none ∨
      (s.conns c).handler.talk c d = some none ∧ ∃ step rest,
        h.talk c d = some (some (.ack step, rest)) ∧ frame p (.ack step) = .ok rest) :
    Stage p w d ((s.goto c h).view k w d) := by
  rw [view_goto]
  by_cases hd : d = c
  · subst hd
    obtain ⟨hf, hf', hpark⟩ := hfree rfl
    have hgoto := hst.goto hf hf' hpark
    have hst' := hgoto.redirect (c := d) (fun _ => hf') ht
    simpa using hst'
  · have hst' := hst.redirect (c := c) (fun h => absurd h.symm hd) ht
    simpa [hd, view] using hst'

/-- The ACK loop goes on to its next connection. -/
lemma stage_ackNext {env : ServerEnv α} (hst : Stage env.pickle w d (s.view k w d)) {r : Round α}
    {step : ℕ} {todo : List ConnId} (hf : (s.conns c).handler.Free)
    (hpark : (s.conns c).handler.Parked = false)
    (ht : (s.conns c).handler.talk c d = (if d ∈ todo then some none else none) ∨
      (s.conns c).handler.talk c d ≠ none ∧ d ∉ todo) :
    Stage env.pickle w d ((s.ackNext env c r step todo).view k w d) := by
  refine stage_goto hst (fun _ => ⟨hf, free_acking .., by simp [hpark]⟩) ?_
  rcases s.talk_acking env r step todo d with hn | ⟨hd, hdue | ⟨rest, hr, hframe⟩⟩
  · rw [hn]
    by_cases h : (s.conns c).handler.talk c d = none
    · exact Or.inl h.symm
    · exact Or.inr (Or.inl ⟨h, rfl⟩)
  · rcases ht with ht | ⟨-, hd'⟩
    · rw [if_pos hd] at ht
      exact Or.inl (hdue.trans ht.symm)
    · exact absurd hd hd'
  · rcases ht with ht | ⟨-, hd'⟩
    · rw [if_pos hd] at ht
      exact Or.inr (Or.inr ⟨ht, step, rest, hr, hframe⟩)
    · exact absurd hd hd'

/-- A thread drops whatever it has in hand and quits. -/
lemma stage_quit (hst : Stage p w d (s.view k w d)) (hf : (s.conns c).handler.Free) :
    Stage p w d ((s.quit c).view k w d) := by
  refine stage_goto hst (fun _ => ⟨hf, free_exit, fun _ => parked_exit⟩) ?_
  rw [show (s.exit c).talk c d = none from Handler.talk_of_parked parked_exit]
  by_cases h : (s.conns c).handler.talk c d = none
  · exact Or.inl h.symm
  · exact Or.inr (Or.inl ⟨h, rfl⟩)

end System

end DistributedRL
