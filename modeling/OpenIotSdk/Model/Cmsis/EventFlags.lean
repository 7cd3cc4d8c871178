import OpenIotSdk.Model.Cmsis.ThreadFlags

/-! # CMSIS-RTOS2 event flags

The word of an event flags object is changed like the word of flags of a thread. -/

namespace OpenIotSdk.Cmsis

/-- `osEventFlagsSet` stores and returns the word with the bits of `mask` added. -/
def osEventFlagsSet (flags mask : Flags) : Flags := osThreadFlagsSet flags mask

/-- `osEventFlagsWait` with `osFlagsWaitAny` for one bit: the word it leaves, and the one it found,
once the bit is set. -/
def osEventFlagsWait (flags : Flags) (pos : ℕ) : Option (Flags × Flags) :=
  if isBitSet flags pos then some (osThreadFlagsClear flags (bitMask pos), flags) else none

theorem isBitSet_set_of_ne {pos pos' : ℕ} (hne : pos' ≠ pos) (hp' : pos' < 32) (flags : Flags) :
    isBitSet (osThreadFlagsSet flags (bitMask pos)) pos' = isBitSet flags pos' := by
  rw [isBitSet_eq_getLsbD _ hp', isBitSet_eq_getLsbD _ hp', osThreadFlagsSet, bitMask]
  simp [BitVec.getLsbD_one]
  omega

theorem isBitSet_clear_of_ne {pos pos' : ℕ} (hne : pos' ≠ pos) (hp' : pos' < 32) (flags : Flags) :
    isBitSet (osThreadFlagsClear flags (bitMask pos)) pos' = isBitSet flags pos' := by
  rw [isBitSet_eq_getLsbD _ hp', isBitSet_eq_getLsbD _ hp', osThreadFlagsClear, bitMask]
  simp [BitVec.getLsbD_one]
  omega

end OpenIotSdk.Cmsis
