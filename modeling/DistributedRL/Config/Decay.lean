import DistributedRL.Config.Schedule
import DistributedRL.Data.Numeric
import Mathlib.Algebra.Order.Archimedean.Basic
import Mathlib.Analysis.SpecialFunctions.Trigonometric.Basic
import Mathlib.Order.Monotone.Basic

/-!
# Warmup and decay

The learning rate rises up to the end of the warmup, where it is the base rate, and falls from there
on. `linear` and `cosine` end at zero.
-/

namespace DistributedRL

variable {𝕂 : Type*} [Field 𝕂] [LinearOrder 𝕂]

/-! ### Shapes of decay -/

/-- A fall over the unit interval, from one to something that is not negative. -/
structure Decays (f : 𝕂 → 𝕂) : Prop where
  zero : f 0 = 1
  antitone : AntitoneOn f (Set.Icc 0 1)
  nonneg : 0 ≤ f 1

/-- `cosPi` falls from `1` to `-1` over the unit interval. -/
structure HalfTurn (cosPi : 𝕂 → 𝕂) : Prop where
  zero : cosPi 0 = 1
  one : cosPi 1 = -1
  antitone : AntitoneOn cosPi (Set.Icc 0 1)

/-- A rate that rises to `base` within the warmup and falls after it, and is never out of
`[0, base]`. -/
structure WarmupThenDecay (rate : ℤ → 𝕂) (base : 𝕂) (warmup : ℤ) : Prop where
  mem : ∀ step, 0 ≤ step → 0 ≤ rate step ∧ rate step ≤ base
  monotone : MonotoneOn rate (Set.Icc 0 warmup)
  peak : rate warmup = base
  antitone : AntitoneOn rate (Set.Ici warmup)

section

variable {f : 𝕂 → 𝕂} {p base : 𝕂}

lemma Decays.mem (h : Decays f) (hp : p ∈ Set.Icc 0 1) : 0 ≤ f p ∧ f p ≤ 1 := by
  have hle : (0 : 𝕂) ≤ 1 := hp.1.trans hp.2
  constructor
  · exact h.nonneg.trans (h.antitone hp (Set.right_mem_Icc.mpr hle) hp.2)
  · rw [← h.zero]
    exact h.antitone (Set.left_mem_Icc.mpr hle) hp hp.1

variable [IsStrictOrderedRing 𝕂] {cosPi : 𝕂 → 𝕂}

lemma decays_constant : Decays fun _ : 𝕂 => 1 := ⟨rfl, antitoneOn_const, zero_le_one⟩

lemma decays_linear : Decays fun p : 𝕂 => 1 - p where
  zero := sub_zero 1
  antitone _ _ _ _ h := sub_le_sub_left h 1
  nonneg := (sub_self 1).ge

lemma HalfTurn.decays (h : HalfTurn cosPi) : Decays fun p => 1 / 2 * (1 + cosPi p) where
  zero := by
    rw [h.zero]
    norm_num
  antitone p hp q hq hpq := by
    have hcos := h.antitone hp hq hpq
    show 1 / 2 * (1 + cosPi q) ≤ 1 / 2 * (1 + cosPi p)
    linarith
  nonneg := by
    rw [h.one]
    norm_num

lemma halfTurn_cos : HalfTurn fun x : ℝ => Real.cos (Real.pi * x) where
  zero := by rw [mul_zero, Real.cos_zero]
  one := by rw [mul_one, Real.cos_pi]
  antitone p hp q hq hpq := by
    have hle : Real.pi * p ≤ Real.pi * q := mul_le_mul_of_nonneg_left hpq Real.pi_pos.le
    refine Real.cos_le_cos_of_nonneg_of_le_pi (mul_nonneg Real.pi_pos.le hp.1) ?_ hle
    exact mul_le_of_le_one_right Real.pi_pos.le hq.2

end

/-! ### The branches of `scheduled_lr` -/

/-- `scheduled_lr`, where its divisions are defined. -/
def scheduledLr? (cosPi : 𝕂 → 𝕂) (baseLr : 𝕂) (step maxSteps : ℤ) (schedule : String)
    (warmupSteps : ℤ) : Option 𝕂 :=
  if 0 < warmupSteps ∧ step < warmupSteps then
    (div? (step : 𝕂) warmupSteps).map (baseLr * ·)
  else if schedule = "constant" then some baseLr
  else
    let denom := max (maxSteps - warmupSteps) 1
    (div? ((step - warmupSteps : ℤ) : 𝕂) (denom : ℤ)).map fun quotient =>
      let progress := min quotient 1
      if schedule = "linear" then baseLr * (1 - progress)
      else if schedule = "cosine" then baseLr * (1 / 2) * (1 + cosPi progress)
      else baseLr

/-- `progress` -/
def progress (maxSteps warmupSteps step : ℤ) : 𝕂 :=
  min ((step - warmupSteps : ℤ) / (max (maxSteps - warmupSteps) 1 : ℤ)) 1

/-- What the schedules make of `progress`. -/
def decayShape (cosPi : 𝕂 → 𝕂) (schedule : String) (p : 𝕂) : 𝕂 :=
  if schedule = "constant" then 1
  else if schedule = "linear" then 1 - p
  else if schedule = "cosine" then 1 / 2 * (1 + cosPi p)
  else 1

section

variable {cosPi : 𝕂 → 𝕂} {baseLr : 𝕂} {step maxSteps warmupSteps : ℤ} {schedule : String}

lemma scheduledLr_of_lt (hpos : 0 < warmupSteps) (h : step < warmupSteps) :
    scheduledLr cosPi baseLr step maxSteps schedule warmupSteps =
      baseLr * (step / warmupSteps) := by
  rw [scheduledLr, if_pos ⟨hpos, h⟩]

lemma scheduledLr_of_le (h : warmupSteps ≤ step) :
    scheduledLr cosPi baseLr step maxSteps schedule warmupSteps =
      baseLr * decayShape cosPi schedule (progress maxSteps warmupSteps step) := by
  have hwarm : ¬(0 < warmupSteps ∧ step < warmupSteps) := fun hlt => h.not_gt hlt.2
  simp only [scheduledLr, if_neg hwarm, decayShape, progress]
  split_ifs
  · rw [mul_one]
  · rfl
  · rw [mul_assoc]
  · rw [mul_one]

variable [IsStrictOrderedRing 𝕂]

/-- Neither divisor is zero: one is positive in its branch, and the other is at least one. -/
lemma scheduledLr?_eq (cosPi : 𝕂 → 𝕂) (baseLr : 𝕂) (step maxSteps : ℤ) (schedule : String)
    (warmupSteps : ℤ) :
    scheduledLr? cosPi baseLr step maxSteps schedule warmupSteps =
      some (scheduledLr cosPi baseLr step maxSteps schedule warmupSteps) := by
  have hdenom : (0 : 𝕂) < (max (maxSteps - warmupSteps) 1 : ℤ) :=
    Int.cast_pos.mpr (lt_max_of_lt_right one_pos)
  simp only [scheduledLr?, scheduledLr]
  split
  · next h =>
    have hwarm : (0 : 𝕂) < (warmupSteps : ℤ) := Int.cast_pos.mpr h.1
    rw [div?_of_pos hwarm]
    rfl
  split
  · rfl
  · rw [div?_of_pos hdenom]
    rfl

lemma decays_decayShape (h : HalfTurn cosPi) (schedule : String) :
    Decays (decayShape cosPi schedule) := by
  unfold decayShape
  split_ifs
  · exact decays_constant
  · exact decays_linear
  · exact h.decays
  · exact decays_constant

omit [IsStrictOrderedRing 𝕂] in
lemma decayShape_one (h : HalfTurn cosPi) (hs : schedule = "linear" ∨ schedule = "cosine") :
    decayShape cosPi schedule 1 = 0 := by
  rcases hs with rfl | rfl
  · simp [decayShape]
  · simp [decayShape, h.one]

/-! ### Progress -/

lemma progress_mem (maxSteps : ℤ) (h : warmupSteps ≤ step) :
    (progress maxSteps warmupSteps step : 𝕂) ∈ Set.Icc 0 1 := by
  constructor
  · refine le_min (div_nonneg ?_ ?_) zero_le_one
    · exact Int.cast_nonneg (sub_nonneg.mpr h)
    · exact Int.cast_nonneg (zero_le_one.trans (le_max_right _ _))
  · exact min_le_right _ _

lemma progress_self (maxSteps warmupSteps : ℤ) :
    (progress maxSteps warmupSteps warmupSteps : 𝕂) = 0 := by
  rw [progress, sub_self, Int.cast_zero, zero_div, min_eq_left zero_le_one]

lemma progress_mono (maxSteps warmupSteps : ℤ) :
    Monotone (progress maxSteps warmupSteps : ℤ → 𝕂) := by
  intro step step' h
  refine min_le_min_right 1 (div_le_div_of_nonneg_right ?_ ?_)
  · exact Int.cast_le.mpr (sub_le_sub_right h warmupSteps)
  · exact Int.cast_nonneg (zero_le_one.trans (le_max_right _ _))

/-- The progress is complete at `max_steps`, and one step after the warmup at the earliest. -/
lemma progress_eq_one (h : max maxSteps (warmupSteps + 1) ≤ step) :
    (progress maxSteps warmupSteps step : 𝕂) = 1 := by
  obtain ⟨hmax, hwarm⟩ := max_le_iff.mp h
  have hle : max (maxSteps - warmupSteps) 1 ≤ step - warmupSteps :=
    max_le (by omega) (by omega)
  have hdenom : (0 : 𝕂) < (max (maxSteps - warmupSteps) 1 : ℤ) :=
    Int.cast_pos.mpr (lt_max_of_lt_right one_pos)
  rw [progress, min_eq_right]
  rw [one_le_div hdenom]
  exact Int.cast_le.mpr hle

/-! ### The schedule -/

lemma antitoneOn_scheduledLr (h : HalfTurn cosPi) (hbase : 0 ≤ baseLr) (maxSteps : ℤ)
    (schedule : String) (warmupSteps : ℤ) :
    AntitoneOn (fun step => scheduledLr cosPi baseLr step maxSteps schedule warmupSteps)
      (Set.Ici warmupSteps) := by
  intro step hstep step' hstep' hle
  show scheduledLr cosPi baseLr step' maxSteps schedule warmupSteps ≤
    scheduledLr cosPi baseLr step maxSteps schedule warmupSteps
  rw [scheduledLr_of_le hstep, scheduledLr_of_le hstep']
  have hshape := (decays_decayShape h schedule).antitone (progress_mem maxSteps hstep)
    (progress_mem maxSteps hstep') (progress_mono maxSteps warmupSteps hle)
  exact mul_le_mul_of_nonneg_left hshape hbase

lemma scheduledLr_warmup (h : HalfTurn cosPi) :
    scheduledLr cosPi baseLr warmupSteps maxSteps schedule warmupSteps = baseLr := by
  rw [scheduledLr_of_le le_rfl, progress_self, (decays_decayShape h schedule).zero, mul_one]

/-- Up to and including the end of the warmup the rate is proportional to the step. -/
lemma scheduledLr_of_mem (h : HalfTurn cosPi) (hstep : step ∈ Set.Icc 0 warmupSteps)
    (hpos : 0 < warmupSteps) :
    scheduledLr cosPi baseLr step maxSteps schedule warmupSteps =
      baseLr * (step / warmupSteps) := by
  rcases hstep.2.lt_or_eq with hlt | rfl
  · exact scheduledLr_of_lt hpos hlt
  · have hne : ((step : ℤ) : 𝕂) ≠ 0 := Int.cast_ne_zero.mpr hpos.ne'
    rw [scheduledLr_warmup h, div_self hne, mul_one]

lemma monotoneOn_scheduledLr (h : HalfTurn cosPi) (hbase : 0 ≤ baseLr) (maxSteps : ℤ)
    (schedule : String) (warmupSteps : ℤ) :
    MonotoneOn (fun step => scheduledLr cosPi baseLr step maxSteps schedule warmupSteps)
      (Set.Icc 0 warmupSteps) := by
  intro step hstep step' hstep' hle
  rcases (hstep.1.trans hstep.2).lt_or_eq with hpos | rfl
  · show scheduledLr cosPi baseLr step maxSteps schedule warmupSteps ≤
      scheduledLr cosPi baseLr step' maxSteps schedule warmupSteps
    rw [scheduledLr_of_mem h hstep hpos, scheduledLr_of_mem h hstep' hpos]
    have hwarm : (0 : 𝕂) ≤ (warmupSteps : ℤ) := Int.cast_nonneg hpos.le
    exact mul_le_mul_of_nonneg_left
      (div_le_div_of_nonneg_right (Int.cast_le.mpr hle) hwarm) hbase
  · -- without a warmup there is one step in the interval
    rw [le_antisymm hstep.2 hstep.1, le_antisymm hstep'.2 hstep'.1]

lemma scheduledLr_mem (h : HalfTurn cosPi) (hbase : 0 ≤ baseLr) (hstep : 0 ≤ step) :
    0 ≤ scheduledLr cosPi baseLr step maxSteps schedule warmupSteps ∧
      scheduledLr cosPi baseLr step maxSteps schedule warmupSteps ≤ baseLr := by
  rcases lt_or_ge step warmupSteps with hlt | hle
  · have hpos : 0 < warmupSteps := hstep.trans_lt hlt
    have hwarm : (0 : 𝕂) < (warmupSteps : ℤ) := Int.cast_pos.mpr hpos
    rw [scheduledLr_of_lt hpos hlt]
    constructor
    · exact mul_nonneg hbase (div_nonneg (Int.cast_nonneg hstep) hwarm.le)
    · exact mul_le_of_le_one_right hbase ((div_le_one hwarm).mpr (Int.cast_le.mpr hlt.le))
  · obtain ⟨hl, hr⟩ := (decays_decayShape h schedule).mem (progress_mem maxSteps hle)
    rw [scheduledLr_of_le hle]
    exact ⟨mul_nonneg hbase hl, mul_le_of_le_one_right hbase hr⟩

lemma warmupThenDecay_scheduledLr (h : HalfTurn cosPi) (hbase : 0 ≤ baseLr) (maxSteps : ℤ)
    (schedule : String) (warmupSteps : ℤ) :
    WarmupThenDecay (fun step => scheduledLr cosPi baseLr step maxSteps schedule warmupSteps)
      baseLr warmupSteps where
  mem _ hstep := scheduledLr_mem h hbase hstep
  monotone := monotoneOn_scheduledLr h hbase maxSteps schedule warmupSteps
  peak := scheduledLr_warmup h
  antitone := antitoneOn_scheduledLr h hbase maxSteps schedule warmupSteps

lemma scheduledLr_eq_zero (h : HalfTurn cosPi) (hs : schedule = "linear" ∨ schedule = "cosine")
    (hstep : max maxSteps (warmupSteps + 1) ≤ step) :
    scheduledLr cosPi baseLr step maxSteps schedule warmupSteps = 0 := by
  have hle : warmupSteps ≤ step := (Int.le_add_one le_rfl).trans ((le_max_right _ _).trans hstep)
  rw [scheduledLr_of_le hle, progress_eq_one hstep, decayShape_one h hs, mul_zero]

end

/-- `scheduled_lr` never divides by zero, rises to the base rate at the end of the warmup and falls
from there on, and `linear` and `cosine` are at zero from `max_steps` on, or from one step after a
longer warmup. -/
theorem scheduledLr_spec [IsStrictOrderedRing 𝕂] {cosPi : 𝕂 → 𝕂} (h : HalfTurn cosPi) {baseLr : 𝕂}
    (hbase : 0 < baseLr) (maxSteps warmupSteps : ℤ) (schedule : String) :
    (∀ step, scheduledLr? cosPi baseLr step maxSteps schedule warmupSteps =
      some (scheduledLr cosPi baseLr step maxSteps schedule warmupSteps)) ∧
    WarmupThenDecay (fun step => scheduledLr cosPi baseLr step maxSteps schedule warmupSteps)
      baseLr warmupSteps ∧
    (schedule = "linear" ∨ schedule = "cosine" → ∀ step, max maxSteps (warmupSteps + 1) ≤ step →
      scheduledLr cosPi baseLr step maxSteps schedule warmupSteps = 0) := by
  refine ⟨?_, warmupThenDecay_scheduledLr h hbase.le maxSteps schedule warmupSteps, ?_⟩
  · intro step
    exact scheduledLr?_eq cosPi baseLr step maxSteps schedule warmupSteps
  · intro hs step hstep
    exact scheduledLr_eq_zero h hs hstep

/-- A cosine schedule whose warmup is longer than the training. -/
theorem scheduledLr_spec_longWarmup :
    WarmupThenDecay (fun step =>
      scheduledLr (fun x : ℝ => Real.cos (Real.pi * x)) 1 step 10 "cosine" 25) 1 25 :=
  (scheduledLr_spec halfTurn_cos one_pos 10 25 "cosine").2.1

end DistributedRL
