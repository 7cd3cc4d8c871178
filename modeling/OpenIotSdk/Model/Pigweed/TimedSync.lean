import OpenIotSdk.Model.Pigweed.CountingSemaphore
import OpenIotSdk.Model.Pigweed.InternalMutex
import OpenIotSdk.Model.Pigweed.ThreadNotification

/-! # Timed acquisition

`timed_mutex_inline.h`, `timed_thread_notification_inline.h` and `binary_semaphore_inline.h`, in one
thread. The other threads run in `osDelay`. -/

namespace OpenIotSdk.TimedSync

open Transition CmsisRtosUtil

variable {Tid : Type*}

/-- The mutex, the notification and the clock of the thread. -/
structure World (Tid : Type*) where
  mutex : InternalMutex.State Tid
  notification : ThreadNotification.State
  clock : CountingSemaphore.Clock

/-- The thread, the semaphore and what happens in `osDelay`. -/
structure Setting (Tid : Type*) where
  self : Tid
  semaphore : CountingSemaphore.OsSemaphore
  osDelay : BitVec 32 → World Tid → World Tid

namespace World

/-- `try_lock`, up to its end. -/
def tryLock [DecidableEq Tid] (self : Tid) (w : World Tid) : Option (Bool × World Tid) :=
  ((InternalMutex.step w.mutex (.tryLock self)).bind
    (runUntil InternalMutex.step (fun s => s.pc self = .idle ∨ s.pc self = .holding)
      (.advance self) 6)).map fun s => (s.pc self = .holding, { w with mutex := s })

/-- `try_acquire`, up to its end. -/
def tryAcquire (w : World Tid) : Option (Bool × World Tid) :=
  ((ThreadNotification.step w.notification .tryAcquire).bind
    (runUntil ThreadNotification.step (fun s => s.pc = .idle) .advance 4)).map fun s =>
      (w.notification.count.successes < s.count.successes, { w with notification := s })

end World

/-- The callback of the timed functions, around `try_lock` or `try_acquire`. -/
def attempt (once : World Tid → Option (Bool × World Tid)) (acquired : Bool) (w : World Tid) :
    Option (Called Bool (World Tid)) :=
  (once w).map fun (ok, w) => if ok then ⟨true, false, w⟩ else ⟨acquired, true, w⟩

/-- `deadline - SystemClock::now()`. -/
def World.left (w : World Tid) (deadline : ℤ) : ℤ := deadline - w.clock.now

/-! ## The three objects -/

namespace TimedMutex

variable [DecidableEq Tid]

def tryLockFor (e : Setting Tid) (fuel : ℕ) (timeout : ℤ) (w : World Tid) :
    Option (Bool × World Tid) :=
  repeatWithDelay e.osDelay (attempt (World.tryLock e.self)) fuel timeout 1 false w

def tryLockUntil (e : Setting Tid) (fuel : ℕ) (deadline : ℤ) (w : World Tid) :
    Option (Bool × World Tid) :=
  tryLockFor e fuel (w.left deadline) w

end TimedMutex

namespace TimedThreadNotification

def tryAcquireFor (e : Setting Tid) (fuel : ℕ) (timeout : ℤ) (w : World Tid) :
    Option (Bool × World Tid) :=
  repeatWithDelay e.osDelay (attempt World.tryAcquire) fuel timeout 1 false w

def tryAcquireUntil (e : Setting Tid) (fuel : ℕ) (deadline : ℤ) (w : World Tid) :
    Option (Bool × World Tid) :=
  tryAcquireFor e fuel (w.left deadline) w

end TimedThreadNotification

namespace BinarySemaphore

/-- `native_type_.try_acquire_for`. -/
def native (e : Setting Tid) (fuel : ℕ) (ticks : ℤ) (w : World Tid) : Option (Bool × World Tid) :=
  (e.semaphore.tryAcquireFor fuel ticks w.clock).map fun (acquired, c) =>
    (acquired, { w with clock := c })

def tryAcquireFor (e : Setting Tid) (fuel : ℕ) (timeout : ℤ) (w : World Tid) :
    Option (Bool × World Tid) :=
  native e fuel (max 1 timeout) w

def tryAcquireUntil (e : Setting Tid) (fuel : ℕ) (deadline : ℤ) (w : World Tid) :
    Option (Bool × World Tid) :=
  native e fuel (w.left deadline) w

end BinarySemaphore

end OpenIotSdk.TimedSync
