import DistributedRL.Comms.Framing

/-!
# A stream with several senders

Senders write frames to one stream in pieces. As long as no sender starts a frame while another is
in the middle of one, the stream is a sequence of whole frames and a prefix of one more. Once a
send has raised, nothing is written any more.
-/

namespace DistributedRL

variable {β τ : Type*} {p : Pickle β} {written : List UInt8} {broken : Bool}
  {writing writing' : τ → Option (β × List UInt8)}

/-- A prefix of a single frame. -/
def PartialFrame (p : Pickle β) (pre : List UInt8) : Prop :=
  pre = [] ∨ ∃ m bytes, frame p m = .ok bytes ∧ pre <+: bytes

/-- Whole frames, followed by at most one prefix of a single frame. -/
def Framed (p : Pickle β) (bs : List UInt8) : Prop :=
  ∃ ms pre, (∀ m ∈ ms, Fits p m) ∧ PartialFrame p pre ∧ bs = frames p ms ++ pre

/-- The stream is framed, and what it ends with is the part already written of the frame that a
sender is writing. `writing t` is the message that `t` is sending, with the bytes still to send. -/
def StreamInv (p : Pickle β) (written : List UInt8) (broken : Bool)
    (writing : τ → Option (β × List UInt8)) : Prop :=
  ∃ ms pre, (∀ m ∈ ms, Fits p m) ∧ PartialFrame p pre ∧ written = frames p ms ++ pre ∧
    (broken = false → ((∀ t, writing t = none) → pre = []) ∧
      ∀ t m rest, writing t = some (m, rest) → frame p m = .ok (pre ++ rest))

lemma fits_of_frame {m : β} {bs : List UInt8} (h : frame p m = .ok bs) : Fits p m := by
  simp only [frame, packLength] at h
  split_ifs at h with hm
  exact hm

/-- The first message of a framed stream comes off whole, or the stream is a prefix of a frame. -/
lemma Framed.split {bs : List UInt8} (h : Framed p bs) :
    splitFrame bs = none ∨ ∃ m rest, splitFrame bs = some (p.dumps m, rest) ∧ Framed p rest := by
  obtain ⟨ms, pre, hfit, hpre, rfl⟩ := h
  cases ms with
  | cons m ms =>
    obtain ⟨bytes, hb⟩ := (hfit m List.mem_cons_self).exists_frame
    rw [frames_cons hb, List.append_assoc]
    exact Or.inr ⟨m, _, splitFrame_append hb _, ms, pre,
      fun x hx => hfit x (List.mem_cons_of_mem _ hx), hpre, rfl⟩
  | nil =>
    rcases hpre with rfl | ⟨m, bytes, hb, rest, hr⟩
    · exact Or.inl splitFrame_nil
    · rw [frames_nil, List.nil_append]
      by_cases hrest : rest = []
      · obtain rfl : pre = bytes := by simpa [hrest] using hr
        have hs := splitFrame_append hb []
        rw [List.append_nil] at hs
        exact Or.inr ⟨m, [], hs, [], [], by simp, Or.inl rfl, by simp⟩
      · exact Or.inl (splitFrame_cut hb hr hrest)

namespace StreamInv

lemma nil : StreamInv p [] broken (fun _ : τ => none) :=
  ⟨[], [], by simp, Or.inl rfl, by simp, fun _ => ⟨fun _ => rfl, by simp⟩⟩

lemma framed (h : StreamInv p written broken writing) : Framed p written := by
  obtain ⟨ms, pre, hfit, hpre, hw, -⟩ := h
  exact ⟨ms, pre, hfit, hpre, hw⟩

/-- A sender may start where nobody is writing. -/
lemma start (h : StreamInv p written broken writing) (hnone : ∀ t, writing t = none)
    (hstart : ∀ t m rest, writing' t = some (m, rest) → frame p m = .ok rest) :
    StreamInv p written broken writing' := by
  obtain ⟨ms, pre, hfit, hpre, hw, hb⟩ := h
  refine ⟨ms, pre, hfit, hpre, hw, ?_⟩
  intro hbroken
  obtain rfl := (hb hbroken).1 hnone
  exact ⟨fun _ => rfl, hstart⟩

/-- A partial send of the only sender. -/
lemma part (h : StreamInv p written false writing) {t : τ} {m : β} {rest : List UInt8} (n : ℕ)
    (ht : writing t = some (m, rest)) (ht' : writing' t = some (m, rest.drop n))
    (hothers : ∀ u ≠ t, writing' u = none) :
    StreamInv p (written ++ rest.take n) false writing' := by
  obtain ⟨ms, pre, hfit, hpre, hw, hb⟩ := h
  have hframe := (hb rfl).2 t m rest ht
  have hsplit : pre ++ rest.take n ++ rest.drop n = pre ++ rest := by
    rw [List.append_assoc, List.take_append_drop]
  refine ⟨ms, pre ++ rest.take n, hfit, Or.inr ⟨m, _, hframe, rest.drop n, hsplit⟩,
    by rw [hw, List.append_assoc], fun _ => ⟨?_, ?_⟩⟩
  · intro hnone
    rw [hnone t] at ht'
    cases ht'
  · intro u m' rest' hu
    by_cases hut : u = t
    · subst hut
      rw [ht'] at hu
      cases hu
      rw [hsplit]
      exact hframe
    · rw [hothers u hut] at hu
      cases hu

/-- The last part of a frame. -/
lemma finish (h : StreamInv p written false writing) {t : τ} {m : β} {rest : List UInt8}
    (ht : writing t = some (m, rest)) (hnone : ∀ u, writing' u = none) :
    StreamInv p (written ++ rest) false writing' := by
  obtain ⟨ms, pre, hfit, hpre, hw, hb⟩ := h
  have hframe := (hb rfl).2 t m rest ht
  have hm : frames p [m] = pre ++ rest := by simpa using frames_cons hframe []
  refine ⟨ms ++ [m], [], ?_, Or.inl rfl, ?_,
    fun _ => ⟨fun _ => rfl, ?_⟩⟩
  · intro x hx
    rcases List.mem_append.mp hx with hx | hx
    · exact hfit x hx
    · rw [List.mem_singleton.mp hx]
      exact fits_of_frame hframe
  · rw [hw, frames_append, hm]
    simp
  · intro u m' r hu
    rw [hnone u] at hu
    cases hu

/-- A send has raised. -/
lemma raised (h : StreamInv p written broken writing) : StreamInv p written true writing' := by
  obtain ⟨ms, pre, hfit, hpre, hw, -⟩ := h
  exact ⟨ms, pre, hfit, hpre, hw, fun h => by cases h⟩

end StreamInv

end DistributedRL
