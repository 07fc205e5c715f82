import Mathlib.Algebra.Field.Basic
import Mathlib.Order.Lattice

/-!
# The learning rate

`scheduled_lr` of `config.py`, in exact arithmetic.
-/

namespace DistributedRL

/-- The fields of `TrainConfig` that set the learning rates and the training length. -/
structure LrConfig (𝕂 : Type*) where
  lr : 𝕂
  lrSchedule : String
  lrWarmupSteps : ℤ
  maxSteps : ℤ

variable {𝕂 : Type*} [Field 𝕂] [LinearOrder 𝕂]

/-- `scheduled_lr`; `cosPi x` is `math.cos(math.pi * x)`. -/
def scheduledLr (cosPi : 𝕂 → 𝕂) (baseLr : 𝕂) (step maxSteps : ℤ) (schedule : String)
    (warmupSteps : ℤ) : 𝕂 :=
  if 0 < warmupSteps ∧ step < warmupSteps then baseLr * (step / warmupSteps)
  else if schedule = "constant" then baseLr
  else
    let denom := max (maxSteps - warmupSteps) 1
    let progress : 𝕂 := min ((step - warmupSteps : ℤ) / (denom : ℤ)) 1
    if schedule = "linear" then baseLr * (1 - progress)
    else if schedule = "cosine" then baseLr * (1 / 2) * (1 + cosPi progress)
    else baseLr

/-- The learning rate that `worker_main` sets in its step `step`. -/
def LrConfig.rate (config : LrConfig 𝕂) (cosPi : 𝕂 → 𝕂) (step : ℕ) : 𝕂 :=
  scheduledLr cosPi config.lr step config.maxSteps config.lrSchedule config.lrWarmupSteps

end DistributedRL
