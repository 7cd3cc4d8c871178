import Mathlib.Data.BitVec

/-! # The time of lwIP

`sys_arch.c`: kernel ticks and milliseconds, both in 32 bits. -/

namespace OpenIotSdk.Lwip.SysArch

def osWaitForever : BitVec 32 := 0xFFFFFFFF

/-- `tick_freq` after `sys_init`, when `osKernelGetTickFreq` answers `freq`. -/
def sysInit (freq : BitVec 32) : BitVec 32 := if freq = 1000 then 0 else freq

def ms2tick (tickFreq ms : BitVec 32) : BitVec 32 :=
  if ms = 0 then osWaitForever
  else if tickFreq ≠ 0 then
    let tick := ms * tickFreq / 1000
    tick + if ms * tickFreq % 1000 ≠ 0 then 1 else 0
  else ms

def tick2ms (tickFreq tick : BitVec 32) : BitVec 32 :=
  if tickFreq ≠ 0 then tick * 1000 / tickFreq else tick

/-- `sys_now`, when `osKernelGetTickCount` answers `tickCount`. -/
def sysNow (tickFreq tickCount : BitVec 32) : BitVec 32 := tick2ms tickFreq tickCount

/-- The ticks that `sys_msleep` passes to `osDelay`; `sys_arch_sem_wait` and `sys_arch_mbox_fetch`
pass the same for their `timeout`. -/
def sysMsleep (tickFreq ms : BitVec 32) : BitVec 32 := ms2tick tickFreq ms

end OpenIotSdk.Lwip.SysArch
