import OpenIotSdk.Model.Pigweed.Repeat

/-! # The counting semaphore of `pw_sync_cmsis_rtos`

`try_acquire_for` of `internal/counting_semaphore.h`, in one thread. What the other threads take and
release shows in the ticks at which a token is available to it. -/

namespace OpenIotSdk.CountingSemaphore

open CmsisRtosUtil

/-- `osStatus_t`. -/
inductive OsStatus where
  | ok
  | errorTimeout
  | other -- `osErrorResource`, which answers a call without a timeout, and all other errors
  deriving DecidableEq

/-- `semaphore_`: when a token is available to the thread, and what `osSemaphoreAcquire` answers
when it is called at a time, with the time at which it returns. -/
structure OsSemaphore where
  available : ℕ → Prop
  acquire : ℕ → BitVec 32 → OsStatus × ℕ
  later : ∀ now timeout, now ≤ (acquire now timeout).2
  ready : ∀ now timeout, available now → acquire now timeout = (.ok, now)
  timedOut : ∀ now timeout, 0 < timeout.toNat → timeout.toNat < Cmsis.osWaitForever →
    (acquire now timeout).1 = .errorTimeout → now + timeout.toNat ≤ (acquire now timeout).2 ∧
      ∀ tick, now ≤ tick → tick < now + timeout.toNat → ¬ available tick

/-- The time, and the tokens that the thread has taken. -/
structure Clock where
  now : ℕ
  taken : ℕ
  deriving DecidableEq

namespace OsSemaphore

variable (semaphore : OsSemaphore)

/-- `osSemaphoreAcquire`. -/
def osSemaphoreAcquire (timeout : BitVec 32) (c : Clock) : OsStatus × Clock :=
  let (status, now) := semaphore.acquire c.now timeout
  (status, ⟨now, if status = .ok then c.taken + 1 else c.taken⟩)

/-- The callback in `try_acquire_for`. -/
def acquireTicks (ticksIn : BitVec 32) (_ : Bool) (c : Clock) : Option (TicksCalled Bool Clock) :=
  let (status, c) := semaphore.osSemaphoreAcquire ticksIn c
  if status = .ok ∨ status = .errorTimeout then some ⟨⟨status = .ok, false, c⟩, ticksIn⟩
  else none -- the check of the status fails

def tryAcquireFor (fuel : ℕ) (ticks : ℤ) (c : Clock) : Option (Bool × Clock) :=
  repeatForTicks semaphore.acquireTicks fuel ticks false c

end OsSemaphore

end OpenIotSdk.CountingSemaphore
