import OpenIotSdk.Library.Countdown
import Mathlib.Data.BitVec

/-! # Thread sleep

`sleep.cc`, called by a thread. Times and durations are ticks. -/

namespace OpenIotSdk.Sleep

/-- `MAX_TICKS`. -/
def maxTicks : ℤ := 2 ^ 32 - 1 - 2

/-- `std::clamp`. -/
def clamp (v lo hi : ℤ) : ℤ := max lo (min v hi)

/-- When `osDelay` returns. -/
structure OsDelay where
  returns : ℤ → BitVec 32 → ℤ
  late : ∀ now ticks, now + ticks.toNat ≤ returns now ticks

/-- The time, and the delays so far. -/
structure Slept where
  now : ℤ
  delays : List (BitVec 32)

/-- `osDelay` is called. -/
def Slept.delay (s : Slept) (osDelay : OsDelay) (ticks : BitVec 32) : Slept :=
  ⟨osDelay.returns s.now ticks, s.delays ++ [ticks]⟩

/-- `ticks32`. -/
def ticks32 (ticks : ℤ) : BitVec 32 := BitVec.ofInt 32 (clamp ticks 1 maxTicks)

def sleepFor (osDelay : OsDelay) (fuel : ℕ) (sleepDuration now : ℤ) : Option Slept :=
  Countdown.run
    (fun ticks s => some ⟨s.delay osDelay (ticks32 ticks), some (ticks32 ticks).toNat⟩)
    fuel sleepDuration ⟨now, []⟩

/-- `sleep_until`, when `SystemClock::now()` answers `now`. -/
def sleepUntil (osDelay : OsDelay) (fuel : ℕ) (deadline now : ℤ) : Option Slept :=
  sleepFor osDelay fuel (clamp (deadline - now) 1 maxTicks) now

end OpenIotSdk.Sleep
