import Mathlib.Data.BitVec

/-! # The tick counter of the Azure platform

`tickcounter_openiot.c`, with exact division in place of that of `double`. The two pointers that
`tickcounter_get_current_ms` is given are not null. -/

namespace OpenIotSdk.Azure

/-- `osKernelGetTickFreq`. -/
structure TickFreq where
  hz : ℕ
  pos : 0 < hz

structure TickCounterInstance where
  previousTickCount : BitVec 32
  currentMs : BitVec 64

/-- `tickcounter_create`, when `osKernelGetTickCount` answers `tickCount`. -/
def tickcounterCreate (tickCount : BitVec 32) : TickCounterInstance := ⟨tickCount, 0⟩

namespace TickCounterInstance

/-- `tickcounter_get_current_ms`. -/
def tickcounterGetCurrentMs (c : TickCounterInstance) (freq : TickFreq)
    (currentTickCount : BitVec 32) : TickCounterInstance × BitVec 64 :=
  let ticks := currentTickCount - c.previousTickCount
  let currentMs := c.currentMs + BitVec.ofNat 64 (ticks.toNat * 1000 / freq.hz)
  (⟨currentTickCount, currentMs⟩, currentMs)

/-- What is read when the kernel has counted so many ticks. -/
def readings (c : TickCounterInstance) (freq : TickFreq) : List ℕ → List ℕ
  | [] => []
  | ticks :: rest =>
      let (c, currentMs) := c.tickcounterGetCurrentMs freq (BitVec.ofNat 32 ticks)
      currentMs.toNat :: c.readings freq rest

end TickCounterInstance

end OpenIotSdk.Azure
