import DistributedRL.Comms.Protocol
import DistributedRL.Data.PrefixCode

/-!
# Framing

`recv_message` depends on the bytes of the stream and not on how `recv` cuts them: it takes off
the frame that `splitFrame` finds, or runs into the end of the stream. So a receiver that calls it
repeatedly on any prefix of a sender's stream gets exactly the payloads whose frames lie in it.
-/

namespace DistributedRL

variable {β : Type*}

/-- A prefix code as a pickle. -/
def PrefixCode.pickle (c : PrefixCode β) : Pickle β := ⟨c.encode, c.decodeAll⟩

lemma PrefixCode.pickle_lawful (c : PrefixCode β) : c.pickle.Lawful := c.decodeAll_encode

/-! ### The receive loop -/

lemma Sock.recv_eq_nil {s : Sock} {k : ℕ} : (s.recv k).1 = [] ↔ s.pending = [] := by
  have hpos : max 1 (min k (s.cuts s.calls)) ≠ 0 := by omega
  simp [Sock.recv, List.take_eq_nil_iff, hpos]

lemma Sock.recv_append (s : Sock) (k : ℕ) : (s.recv k).1 ++ (s.recv k).2.pending = s.pending :=
  List.take_append_drop _ _

lemma Sock.length_recv {s : Sock} {k : ℕ} (hk : 0 < k) : (s.recv k).1.length ≤ k := by
  simp only [Sock.recv, List.length_take]
  omega

/-- The loop invariant: `data` and the pending bytes make up the stream. The loop stops with the
first `n` bytes of it, or at its end. -/
lemma recvLoop_spec (n : ℕ) (data : List UInt8) (s : Sock) (hd : data.length ≤ n) :
    ∃ s',
      if n ≤ data.length + s.pending.length then
        recvLoop n data s = (.ok ((data ++ s.pending).take n), s') ∧
          s'.pending = (data ++ s.pending).drop n
      else recvLoop n data s = (.error .connectionClosed, s') ∧ s'.pending = [] := by
  induction data, s using recvLoop.induct n with
  | case1 data s hlt s' hrecv =>
    -- `recv` returned nothing: the stream has ended before `n` bytes were read
    have hnil : s.pending = [] := Sock.recv_eq_nil.mp (by rw [hrecv])
    have happ := s.recv_append (n - data.length)
    rw [hrecv, hnil] at happ
    refine ⟨s', ?_⟩
    rw [if_neg (by simp [hnil, hlt])]
    refine ⟨?_, by simpa using happ⟩
    rw [recvLoop, if_pos hlt, hrecv]
  | case2 data s hlt b bs s' hrecv ih =>
    have happ := s.recv_append (n - data.length)
    have hlen := Sock.length_recv (s := s) (k := n - data.length) (by omega)
    rw [hrecv] at happ hlen
    simp only [List.length_cons] at hlen
    obtain ⟨t, h⟩ := ih (by simp only [List.length_append, List.length_cons]; omega)
    refine ⟨t, ?_⟩
    have hsum : (data ++ b :: bs).length + s'.pending.length
        = data.length + s.pending.length := by
      rw [← happ]; simp only [List.length_append]; omega
    have hstream : data ++ b :: bs ++ s'.pending = data ++ s.pending := by
      rw [← happ]; simp
    rw [recvLoop, if_pos hlt, hrecv]
    simpa only [hsum, hstream] using h
  | case3 data s hge =>
    have hn : n = data.length := by omega
    refine ⟨s, ?_⟩
    rw [if_pos (by omega), recvLoop, if_neg hge]
    subst hn
    simp

/-- `_recv_exactly` reads the first `n` bytes of the stream, whatever the fragmentation. -/
lemma recvExactly_of_le {s : Sock} {n : ℕ} (h : n ≤ s.pending.length) :
    ∃ s', s'.pending = s.pending.drop n ∧
      recvExactly s n = (.ok (s.pending.take n), s') := by
  obtain ⟨s', hs⟩ := recvLoop_spec n [] s (Nat.zero_le n)
  rw [if_pos (by simpa using h)] at hs
  exact ⟨s', by simpa using hs.2, by simpa [recvExactly] using hs.1⟩

lemma recvExactly_of_lt {s : Sock} {n : ℕ} (h : s.pending.length < n) :
    ∃ s', recvExactly s n = (.error .connectionClosed, s') := by
  obtain ⟨s', hs⟩ := recvLoop_spec n [] s (Nat.zero_le n)
  rw [if_neg (by simpa using h)] at hs
  exact ⟨s', hs.1⟩

/-! ### Splitting a stream into frames -/

/-- Take one whole frame off a byte string: its payload bytes and what follows. -/
def splitFrame (bs : List UInt8) : Option (List UInt8 × List UInt8) :=
  let n := unpackLength (bs.take headerSize)
  if headerSize + n ≤ bs.length then
    some ((bs.drop headerSize).take n, bs.drop (headerSize + n))
  else none

/-- `recv_message` returns the payload of the first frame and leaves the rest of the stream. -/
lemma recvMessage_of_split (p : Pickle β) {s : Sock} {payload rest : List UInt8}
    (h : splitFrame s.pending = some (payload, rest)) :
    ∃ s', s'.pending = rest ∧
      recvMessage p s = ((p.loads payload).elim (.error .unpicklingError) .ok, s') := by
  simp only [splitFrame] at h
  split_ifs at h with hlen
  simp only [Option.some.injEq, Prod.mk.injEq] at h
  obtain ⟨rfl, rfl⟩ := h
  obtain ⟨s₁, hp₁, h₁⟩ := recvExactly_of_le (s := s) (n := headerSize) (by omega)
  obtain ⟨s₂, hp₂, h₂⟩ := recvExactly_of_le (s := s₁)
    (n := unpackLength (s.pending.take headerSize)) (by rw [hp₁, List.length_drop]; omega)
  refine ⟨s₂, by rw [hp₂, hp₁, List.drop_drop], ?_⟩
  rw [hp₁] at h₂
  simp only [recvMessage, h₁, h₂]
  cases p.loads ((s.pending.drop headerSize).take (unpackLength (s.pending.take headerSize))) <;>
    rfl

/-- Where no whole frame is left, `recv_message` raises `ConnectionClosed`. -/
lemma recvMessage_of_split_none (p : Pickle β) {s : Sock} (h : splitFrame s.pending = none) :
    ∃ s', recvMessage p s = (.error .connectionClosed, s') := by
  simp only [splitFrame] at h
  split_ifs at h with hlen
  by_cases hh : headerSize ≤ s.pending.length
  · obtain ⟨s₁, hp₁, h₁⟩ := recvExactly_of_le hh
    obtain ⟨s₂, h₂⟩ := recvExactly_of_lt (s := s₁)
      (n := unpackLength (s.pending.take headerSize)) (by rw [hp₁, List.length_drop]; omega)
    exact ⟨s₂, by simp only [recvMessage, h₁, h₂]⟩
  · obtain ⟨s₁, h₁⟩ := recvExactly_of_lt (s := s) (n := headerSize) (by omega)
    exact ⟨s₁, by simp only [recvMessage, h₁]⟩

/-! ### Frames of messages -/

lemma frame_eq_ok {p : Pickle β} {x : β} {bs : List UInt8} (h : frame p x = .ok bs) :
    ∃ header, header.length = headerSize ∧ unpackLength header = (p.dumps x).length ∧
      bs = header ++ p.dumps x := by
  simp only [frame] at h
  split at h
  · next header hh =>
    cases h
    obtain ⟨hu, hl⟩ := unpackLength_packLength hh
    exact ⟨header, hl, hu, rfl⟩
  · cases h

lemma frame_ne_nil {p : Pickle β} {x : β} {bs : List UInt8} (h : frame p x = .ok bs) :
    bs ≠ [] := by
  obtain ⟨header, hl, -, rfl⟩ := frame_eq_ok h
  intro hnil
  simp [List.append_eq_nil_iff.mp hnil |>.1, headerSize] at hl

/-- A frame comes off whole, whatever follows it. -/
lemma splitFrame_append {p : Pickle β} {x : β} {bs : List UInt8} (h : frame p x = .ok bs)
    (rest : List UInt8) : splitFrame (bs ++ rest) = some (p.dumps x, rest) := by
  obtain ⟨header, hl, hu, rfl⟩ := frame_eq_ok h
  have htake : (header ++ p.dumps x ++ rest).take headerSize = header := by
    rw [List.append_assoc, ← hl, List.take_left]
  have hdrop : (header ++ p.dumps x ++ rest).drop headerSize = p.dumps x ++ rest := by
    rw [List.append_assoc, ← hl, List.drop_left]
  have hlen : headerSize + (p.dumps x).length ≤ (header ++ p.dumps x ++ rest).length := by
    simp only [List.length_append]; omega
  simp only [splitFrame, htake, hu, hlen, if_true, hdrop, List.take_left, Option.some.injEq,
    Prod.mk.injEq, true_and]
  rw [← List.drop_drop, hdrop, List.drop_left]

/-- A proper prefix of a frame is not a frame. -/
lemma splitFrame_cut {p : Pickle β} {x : β} {bs pre rest : List UInt8}
    (h : frame p x = .ok bs) (hbs : pre ++ rest = bs) (hne : rest ≠ []) :
    splitFrame pre = none := by
  obtain ⟨header, hl, hu, rfl⟩ := frame_eq_ok h
  have hpos := List.length_pos_iff.mpr hne
  have hlen : pre.length + rest.length = headerSize + (p.dumps x).length := by
    rw [← List.length_append, hbs, List.length_append, hl]
  simp only [splitFrame]
  by_cases hh : headerSize ≤ pre.length
  · have htake : pre.take headerSize = header := by
      have happend : (pre ++ rest).take headerSize = pre.take headerSize :=
        List.take_append_of_le_length hh
      rw [← happend, hbs, ← hl, List.take_left]
    rw [htake, hu, if_neg (by omega)]
  · rw [if_neg (by omega)]

@[simp] lemma splitFrame_nil : splitFrame [] = none := rfl

/-! ### Streams of messages -/

/-- The concatenated frames of a list of payloads. -/
def frames (p : Pickle β) (ms : List β) : List UInt8 :=
  ms.flatMap fun m => (frame p m).toOption.getD []

@[simp] lemma frames_nil (p : Pickle β) : frames p [] = [] := rfl

lemma frames_cons {p : Pickle β} {m : β} {bs : List UInt8} (h : frame p m = .ok bs)
    (ms : List β) : frames p (m :: ms) = bs ++ frames p ms := by
  simp [frames, h, Except.toOption]

lemma frames_append (p : Pickle β) (ms ns : List β) :
    frames p (ms ++ ns) = frames p ms ++ frames p ns := by simp [frames]

/-- The payload fits the 4-byte length. -/
def Fits (p : Pickle β) (m : β) : Prop := (p.dumps m).length < 2 ^ 32

lemma Fits.exists_frame {p : Pickle β} {m : β} (h : Fits p m) : ∃ bs, frame p m = .ok bs := by
  rw [Fits] at h
  simp only [frame, packLength, h, if_true]
  exact ⟨_, rfl⟩

lemma sendAll_eq {p : Pickle β} : ∀ {ms : List β} (out : List UInt8), (∀ m ∈ ms, Fits p m) →
    sendAll p ms out = (.ok (), out ++ frames p ms)
  | [], out, _ => by simp [sendAll]
  | m :: ms, out, h => by
    obtain ⟨bs, hbs⟩ := (h m List.mem_cons_self).exists_frame
    have ih := sendAll_eq (out ++ bs) fun m' hm' => h m' (List.mem_cons_of_mem _ hm')
    simp only [sendAll, sendMessage, hbs, ih, frames_cons hbs, List.append_assoc]

/-- How many of the first payloads have their frames wholly in the first `n` bytes. -/
def wholeFrames (p : Pickle β) : List β → ℕ → ℕ
  | [], _ => 0
  | m :: ms, n =>
    let len := (frames p [m]).length
    if len ≤ n then wholeFrames p ms (n - len) + 1 else 0

lemma wholeFrames_le (p : Pickle β) : ∀ (ms : List β) (n : ℕ), wholeFrames p ms n ≤ ms.length
  | [], _ => le_refl _
  | m :: ms, n => by
    simp only [wholeFrames]
    split_ifs
    · simpa using wholeFrames_le p ms _
    · exact Nat.zero_le _

/-- `wholeFrames` counts the frames that lie in the first `n` bytes. -/
lemma le_wholeFrames_iff (p : Pickle β) : ∀ (ms : List β) (n k : ℕ), k ≤ ms.length →
    (k ≤ wholeFrames p ms n ↔ (frames p (ms.take k)).length ≤ n)
  | [], n, k, hk => by simp_all [wholeFrames]
  | m :: ms, n, 0, _ => by simp
  | m :: ms, n, k + 1, hk => by
    have ih := le_wholeFrames_iff p ms (n - (frames p [m]).length) k (by simpa using hk)
    have hcons : frames p ((m :: ms).take (k + 1)) = frames p [m] ++ frames p (ms.take k) := by
      rw [List.take_succ_cons, ← frames_append]; rfl
    rw [hcons, List.length_append]
    simp only [wholeFrames]
    split_ifs with hm
    · rw [Nat.add_le_add_iff_right, ih]; omega
    · constructor
      · intro h; omega
      · intro h; omega

/-- No whole frame is left: the next call raises. -/
lemma recvMany_of_split_none (p : Pickle β) {s : Sock} (h : splitFrame s.pending = none) {j : ℕ}
    (hj : 0 < j) : ∃ s', recvMany p j s = ([], .error .connectionClosed, s') := by
  obtain ⟨j, rfl⟩ := Nat.exists_eq_succ_of_ne_zero hj.ne'
  obtain ⟨s', hs'⟩ := recvMessage_of_split_none p h
  exact ⟨s', by simp only [recvMany, hs']⟩

/-- A receiver on a prefix of the stream gets the payloads of the whole frames, one a call, each
call leaving the stream right after the frame it read; the call after the last of them raises
`ConnectionClosed`. -/
lemma recvMany_frames {p : Pickle β} (hp : p.Lawful) : ∀ {ms : List β} {s : Sock},
    (∀ m ∈ ms, Fits p m) → s.pending <+: frames p ms →
    (∀ j ≤ wholeFrames p ms s.pending.length, ∃ s',
      s'.pending = s.pending.drop (frames p (ms.take j)).length ∧
      recvMany p j s = (ms.take j, .ok (), s')) ∧
    (∀ j > wholeFrames p ms s.pending.length, ∃ s',
      recvMany p j s = (ms.take (wholeFrames p ms s.pending.length),
        .error .connectionClosed, s'))
  | [], s, _, hpre => by
    have hnil : s.pending = [] := List.prefix_nil.mp (by simpa using hpre)
    constructor
    · intro j hj
      obtain rfl : j = 0 := by simpa [wholeFrames] using hj
      exact ⟨s, by simp, rfl⟩
    · intro j hj
      exact recvMany_of_split_none p (by simp [hnil]) hj
  | m :: ms, s, hfit, hpre => by
    obtain ⟨bs, hbs⟩ := (hfit m List.mem_cons_self).exists_frame
    have hm : frames p [m] = bs := by simpa using frames_cons hbs []
    rw [frames_cons hbs] at hpre
    by_cases hlen : bs.length ≤ s.pending.length
    · -- the first frame is whole: read it and go on with the stream behind it
      obtain ⟨rest, hrest⟩ : ∃ rest, s.pending = bs ++ rest := by
        obtain ⟨t, ht⟩ := List.prefix_of_prefix_length_le
          (List.prefix_append bs (frames p ms)) hpre hlen
        exact ⟨t, ht.symm⟩
      have hsplit : splitFrame s.pending = some (p.dumps m, rest) := by
        rw [hrest]
        exact splitFrame_append hbs rest
      obtain ⟨s₁, hp₁, h₁⟩ := recvMessage_of_split p hsplit
      rw [hp m] at h₁
      have hpre₁ : s₁.pending <+: frames p ms := by
        rw [hp₁]; rw [hrest] at hpre; exact (List.prefix_append_right_inj bs).mp hpre
      have hcount : wholeFrames p (m :: ms) s.pending.length
          = wholeFrames p ms s₁.pending.length + 1 := by
        simp only [wholeFrames, hm, hlen, if_true, hp₁]
        simp [hrest]
      obtain ⟨ih₁, ih₂⟩ := recvMany_frames hp
        (fun m' hm' => hfit m' (List.mem_cons_of_mem _ hm')) hpre₁
      rw [hcount]
      constructor
      · intro j hj
        cases j with
        | zero => exact ⟨s, by simp, rfl⟩
        | succ j =>
          obtain ⟨s', hs', hr⟩ := ih₁ j (by omega)
          refine ⟨s', ?_, by simp only [recvMany, h₁, Option.elim, hr, List.take_succ_cons]⟩
          rw [hs', hp₁, hrest, List.take_succ_cons, frames_cons hbs, List.length_append,
            ← List.drop_drop, List.drop_left]
      · intro j hj
        obtain ⟨j, rfl⟩ : ∃ i, j = i + 1 := ⟨j - 1, by omega⟩
        obtain ⟨s', hr⟩ := ih₂ j (by omega)
        exact ⟨s', by simp only [recvMany, h₁, Option.elim, hr, List.take_succ_cons]⟩
    · -- the stream ends inside the first frame
      obtain ⟨t, ht⟩ := List.prefix_of_prefix_length_le hpre
        (List.prefix_append bs (frames p ms)) (by omega)
      have hcut : splitFrame s.pending = none :=
        splitFrame_cut hbs ht (by rintro rfl; simp at ht; simp [ht] at hlen)
      have hcount : wholeFrames p (m :: ms) s.pending.length = 0 := by
        simp only [wholeFrames, hm, hlen, if_false]
      rw [hcount]
      constructor
      · intro j hj
        obtain rfl : j = 0 := by omega
        exact ⟨s, by simp, rfl⟩
      · intro j hj
        exact recvMany_of_split_none p hcut hj

/-- Framing is exact under any fragmentation and any truncation. Of the payloads sent, a receiver
on a prefix `pre` of the stream gets the first `k`, where the frames of the first `j` lie wholly in
`pre` just when `j ≤ k`; after `j` of them it stands right behind the `j`-th frame; the next call
raises `ConnectionClosed`. A payload too long for the header is refused with nothing written. -/
theorem framing_exact {p : Pickle β} (hp : p.Lawful) :
    (∀ (ms : List β), (∀ m ∈ ms, Fits p m) → (sendAll p ms []).1 = .ok () ∧
      ∀ (pre : List UInt8), pre <+: (sendAll p ms []).2 → ∀ (cuts : ℕ → ℕ),
        ∃ k ≤ ms.length,
          (∀ j ≤ ms.length, j ≤ k ↔ (sendAll p (ms.take j) []).2 <+: pre) ∧
          (∀ j ≤ k, ∃ s', recvMany p j ⟨pre, cuts, 0⟩ = (ms.take j, .ok (), s') ∧
            (sendAll p (ms.take j) []).2 ++ s'.pending = pre) ∧
          (∀ j > k, ∃ s', recvMany p j ⟨pre, cuts, 0⟩ =
            (ms.take k, .error .connectionClosed, s'))) ∧
    (∀ (m : β) (out : List UInt8), 2 ^ 32 ≤ (p.dumps m).length →
      sendMessage p m out = (.error .structError, out)) := by
  constructor
  · intro ms hfit
    have hsend : ∀ j, (sendAll p (ms.take j) []).2 = frames p (ms.take j) := fun j => by
      rw [sendAll_eq [] fun m hm => hfit m (List.mem_of_mem_take hm), List.nil_append]
    rw [sendAll_eq [] hfit, List.nil_append]
    refine ⟨rfl, fun pre hpre cuts => ⟨wholeFrames p ms pre.length, wholeFrames_le _ _ _, ?_⟩⟩
    obtain ⟨hread, hstop⟩ := recvMany_frames hp (s := ⟨pre, cuts, 0⟩) hfit hpre
    -- the frames of the first payloads are a prefix of `pre` as soon as they are short enough
    have hcut : ∀ j, (frames p (ms.take j)).length ≤ pre.length →
        frames p (ms.take j) <+: pre := fun j hj =>
      List.prefix_of_prefix_length_le
        ⟨frames p (ms.drop j), by rw [← frames_append, List.take_append_drop]⟩ hpre hj
    refine ⟨?_, ?_, hstop⟩
    · intro j hj
      rw [le_wholeFrames_iff p ms pre.length j hj, hsend]
      exact ⟨hcut j, fun h => h.length_le⟩
    · intro j hj
      obtain ⟨s', hs', hr⟩ := hread j hj
      have hlen : (frames p (ms.take j)).length ≤ pre.length :=
        (le_wholeFrames_iff p ms pre.length j (hj.trans (wholeFrames_le _ _ _))).mp hj
      obtain ⟨t, ht⟩ := hcut j hlen
      refine ⟨s', hr, ?_⟩
      rw [hs', hsend, ← ht, List.drop_left]
  · intro m out hm
    simp only [sendMessage, frame, packLength, Nat.not_lt.mpr hm, if_false]

/-- Two numbers sent, the stream cut inside the second frame and received three bytes at a time. -/
theorem framing_exact_two_numbers :
    (sendAll PrefixCode.nat.pickle [3, 1] []).1 = .ok () ∧
      ∃ s', recvMany PrefixCode.nat.pickle 2
        ⟨(sendAll PrefixCode.nat.pickle [3, 1] []).2.take 10, fun _ => 3, 0⟩
        = ([3], .error .connectionClosed, s') := by
  have hfit : ∀ m ∈ [3, 1], Fits PrefixCode.nat.pickle m := by
    simp [Fits, PrefixCode.pickle, PrefixCode.nat]
  obtain ⟨hok, h⟩ := (framing_exact PrefixCode.nat.pickle_lawful).1 [3, 1] hfit
  obtain ⟨k, -, hk, -, hstop⟩ := h _ ( List.take_prefix 10 _) fun _ => 3
  have h₁ : 1 ≤ k := (hk 1 (by decide)).mpr (by decide)
  have h₂ : ¬ 2 ≤ k := fun h => absurd ((hk 2 (by decide)).mp h) (by decide)
  obtain rfl : k = 1 := by omega
  exact ⟨hok, hstop 2 (by decide)⟩

end DistributedRL
