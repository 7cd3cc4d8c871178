import OpenIotSdk.Library.Countdown
import OpenIotSdk.Model.Cmsis.ThreadFlags

/-! # Repeated calls with a timeout

`repeat.h`. A callback has the state of everything else; where it fails a check, it does not
return. -/

namespace OpenIotSdk.CmsisRtosUtil

/-- `less_than_forever`. -/
def lessThanForever : ℤ := Cmsis.osWaitForever - 2

/-- `ticks32` in `repeat_for_ticks`. -/
def ticks32 (ticks : ℤ) : BitVec 32 := BitVec.ofInt 32 (min ticks lessThanForever)

/-- What a callback leaves: `result`, and whether it returns `true`. -/
structure Called (R σ : Type*) where
  result : R
  continues : Bool
  state : σ

/-- With `ticks_out`, which is as before where the callback does not write it. -/
structure TicksCalled (R σ : Type*) extends Called R σ where
  ticksOut : BitVec 32

variable {R σ : Type*}

/-- `repeat_for_ticks`, from the first value of `result` on. -/
def repeatForTicks (callback : BitVec 32 → R → σ → Option (TicksCalled R σ)) (fuel : ℕ)
    (ticks : ℤ) (result : R) (s : σ) : Option (R × σ) :=
  Countdown.run (fun ticks s => (callback (ticks32 ticks) s.1 s.2).map fun c =>
    ⟨(c.result, c.state), if c.continues then some c.ticksOut.toNat else none⟩) fuel ticks (result, s)

/-- `repeat_for_ticks` without a result. -/
def repeatForTicksNoResult (callback : BitVec 32 → σ → Option (TicksCalled Unit σ)) (fuel : ℕ)
    (ticks : ℤ) (s : σ) : Option σ :=
  Countdown.run (fun ticks s => (callback (ticks32 ticks) s).map fun c =>
    ⟨c.state, if c.continues then some c.ticksOut.toNat else none⟩) fuel ticks s

/-- `repeat_with_delay`. -/
def repeatWithDelay (osDelay : BitVec 32 → σ → σ) (callback : R → σ → Option (Called R σ))
    (fuel : ℕ) (ticks : ℤ) (delay : BitVec 32) (result : R) (s : σ) : Option (R × σ) :=
  Countdown.run (fun _ s => (callback s.1 s.2).map fun c =>
    if c.continues then ⟨(c.result, osDelay delay c.state), some delay.toNat⟩
    else ⟨(c.result, c.state), none⟩) fuel ticks (result, s)

end OpenIotSdk.CmsisRtosUtil
