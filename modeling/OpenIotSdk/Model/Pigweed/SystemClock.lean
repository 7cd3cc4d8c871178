import Mathlib.Data.BitVec

/-! # `GetSystemClockTickCount`

`system_clock.cc`. The spin lock makes each call one step. -/

namespace OpenIotSdk

structure SystemClock where
  tickCountHigh : BitVec 32
  tickCountLow : BitVec 32

namespace SystemClock

def init : SystemClock := ⟨0, 0⟩

/-- `GetSystemClockTickCount`, when `osKernelGetTickCount` answers `tickCount`. -/
def getSystemClockTickCount (c : SystemClock) (tickCount : BitVec 32) : SystemClock × BitVec 64 :=
  let newTickCount := tickCount.setWidth 64
  let high :=
    if newTickCount.slt (c.tickCountLow.setWidth 64) then c.tickCountHigh + 1 else c.tickCountHigh
  let low := newTickCount.setWidth 32
  (⟨high, low⟩, high.setWidth 64 <<< 32 ||| low.setWidth 64)

/-- What the calls return that are made when so many ticks have elapsed. -/
def readings (c : SystemClock) : List ℕ → List ℤ
  | [] => []
  | ticks :: rest =>
      let (c, ret) := c.getSystemClockTickCount (BitVec.ofNat 32 ticks)
      ret.toInt :: c.readings rest

end SystemClock

end OpenIotSdk
