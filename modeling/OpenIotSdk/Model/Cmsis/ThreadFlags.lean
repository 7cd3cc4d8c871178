import Mathlib.Data.BitVec

/-! # CMSIS-RTOS2 thread flags

The bit helpers that `internal_mutex.cc` and `native_thread_notification.cc` both
define, and the flag word operations they call. -/

namespace OpenIotSdk.Cmsis

/-- The word of flags of one thread. -/
abbrev Flags := BitVec 32

def osWaitForever : ℕ := 0xFFFFFFFF

/-- Statuses from this value on are errors. -/
def osFlagsError : Flags := 0x80000000#32

def osFlagsErrorTimeout : Flags := 0xFFFFFFFE#32

def osFlagsErrorResource : Flags := 0xFFFFFFFD#32

def bitMask (pos : ℕ) : Flags := 1#32 <<< pos

def isBitSet (x : Flags) (pos : ℕ) : Bool := (x &&& bitMask pos) == bitMask pos

def isOsFlagsError (x : Flags) : Bool := osFlagsError ≤ x

/-- `osThreadFlagsSet` stores and returns the word with the bits of `mask` added. -/
def osThreadFlagsSet (flags mask : Flags) : Flags := flags ||| mask

/-- `osThreadFlagsClear` removes the bits of `mask`; it returns the word it found. -/
def osThreadFlagsClear (flags mask : Flags) : Flags := flags &&& ~~~mask

theorem isOsFlagsError_eq_msb (x : Flags) : isOsFlagsError x = x.msb := by
  simp only [isOsFlagsError, BitVec.msb_eq_decide, BitVec.le_def]
  rfl

theorem isBitSet_eq_getLsbD (x : Flags) {pos : ℕ} (hp : pos < 32) :
    isBitSet x pos = x.getLsbD pos := by
  rw [isBitSet, bitMask, Bool.eq_iff_iff, beq_iff_eq]
  constructor
  · intro h
    have hb := congrArg (fun w : Flags => w.getLsbD pos) h
    simpa [hp] using hb
  · intro h
    apply BitVec.eq_of_getLsbD_eq
    intro i hi
    by_cases hip : i = pos
    · subst i
      simp [h, hp]
    · have hlt : (1#32 <<< pos).getLsbD i = false := by
        simp [BitVec.getLsbD_one]
        omega
      simp [hlt]

@[simp] theorem isBitSet_set (flags : Flags) (pos : ℕ) :
    isBitSet (osThreadFlagsSet flags (bitMask pos)) pos = true := by
  rw [isBitSet, osThreadFlagsSet, beq_iff_eq]
  apply BitVec.eq_of_getLsbD_eq
  intro i _
  cases h : (bitMask pos).getLsbD i <;> simp [h]

theorem isBitSet_clear (flags : Flags) {pos : ℕ} (hp : pos < 32) :
    isBitSet (osThreadFlagsClear flags (bitMask pos)) pos = false := by
  rw [isBitSet_eq_getLsbD _ hp]
  simp [osThreadFlagsClear, bitMask, hp]

theorem isOsFlagsError_set {flags : Flags} (h : isOsFlagsError flags = false) {pos : ℕ}
    (hp : pos < 31) : isOsFlagsError (osThreadFlagsSet flags (bitMask pos)) = false := by
  have hm : (bitMask pos).msb = false := by
    simp [bitMask, BitVec.msb_eq_getLsbD_last]
    omega
  rw [isOsFlagsError_eq_msb] at h ⊢
  simp [osThreadFlagsSet, h, hm]

theorem isOsFlagsError_clear {flags : Flags} (h : isOsFlagsError flags = false)
    (mask : Flags) : isOsFlagsError (osThreadFlagsClear flags mask) = false := by
  rw [isOsFlagsError_eq_msb] at h ⊢
  simp [osThreadFlagsClear, h]

end OpenIotSdk.Cmsis
