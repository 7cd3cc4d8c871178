import OpenIotSdk.Library.Transition
import OpenIotSdk.Model.Cmsis.ThreadFlags
import Mathlib.Logic.Function.Basic

/-! # The mutex of `pw_sync_cmsis_rtos`

`internal_mutex.cc`, one step for each statement between two scheduling points. The
inner `osMutex` is a correct mutex; a failed `PW_CHECK` halts the system. -/

namespace OpenIotSdk.InternalMutex

open Cmsis

/-- `PW_SYNC_CMSIS_RTOS_MUTEX_WAIT_FLAG`, with its default value. -/
def mutexWaitFlag : ℕ := 14

/-- Where a thread is. A constructor names the statement that runs next, and carries
the local variables that are live there. -/
inductive Pc (Tid : Type*) where
  | idle -- outside every call, not owning the mutex
  | holding -- between a successful `lock()` or `try_lock()` and the next `unlock()`
  | lockEnter -- `lock()`: `_mutex.lock()`
  | lockCheck -- `lock()`: the double-lock check
  | lockTest -- `lock()`: `while (_owner != nullptr)`
  | lockDrop -- `lock()`: `_mutex.unlock()` inside the loop
  | lockDropped -- `lock()`: the inner mutex is released and the wait has not begun
  | lockWait -- `lock()`: inside `osThreadFlagsWait`
  | lockRetake (status : Flags) -- `lock()`: `_mutex.lock()` after the wait returned `status`
  | lockStatus (status : Flags) -- `lock()`: the tests on `status`
  | lockTake -- `lock()`: `_owner = this_thread`
  | lockClear -- `lock()`: `osThreadFlagsClear`
  | lockLeave -- `lock()`: the last `_mutex.unlock()`
  | tryEnter -- `try_lock()`: `_mutex.lock()`
  | tryCheck -- `try_lock()`: the double-lock check and the test of `_owner`
  | tryFail -- `try_lock()`: `_mutex.unlock()` before `return false`
  | tryTake -- `try_lock()`: `_owner = this_thread`
  | tryClear -- `try_lock()`: `osThreadFlagsClear`
  | tryLeave -- `try_lock()`: `_mutex.unlock()` before `return true`
  | unlockEnter -- `unlock()`: `_mutex.lock()`
  | unlockCheck -- `unlock()`: the two checks and `_owner = nullptr`
  | unlockDrop (blockedThread : Tid) -- `unlock()`: `_mutex.unlock()`
  | unlockSignal (blockedThread : Tid) -- `unlock()`: `osThreadFlagsSet`
  deriving DecidableEq

structure State (Tid : Type*) where
  inner : Option Tid -- the thread that holds the inner `osMutex`
  owner : Option Tid -- `_owner`
  flags : Tid → Flags
  pc : Tid → Pc Tid
  halted : Bool -- a `PW_CHECK` has failed

inductive Action (Tid : Type*) where
  | lock (t : Tid)
  | tryLock (t : Tid)
  | unlock (t : Tid)
  | advance (t : Tid) -- thread `t` runs its next statement
  | timeout (t : Tid) -- `osThreadFlagsWait` returns `osFlagsErrorTimeout`, as RTX does
  /-- Other code gives thread `t` a flag word with the same wait flag. -/
  | other (t : Tid) (word : Flags)

variable {Tid : Type*} [DecidableEq Tid]

def init : State Tid where
  inner := none
  owner := none
  flags := fun _ => 0#32
  pc := fun _ => .idle
  halted := false

namespace State

def goto (s : State Tid) (t : Tid) (pc : Pc Tid) : State Tid :=
  { s with pc := Function.update s.pc t pc }

def setFlags (s : State Tid) (t : Tid) (word : Flags) : State Tid :=
  { s with flags := Function.update s.flags t word }

/-- A failed `PW_CHECK`. -/
def halt (s : State Tid) : State Tid := { s with halted := true }

/-- `OsMutexWrapper::lock`: blocks while another thread holds the inner mutex. -/
def acquire (s : State Tid) (t : Tid) (next : Pc Tid) : Option (State Tid) :=
  if s.inner = none then some ({ s with inner := some t }.goto t next) else none

/-- `OsMutexWrapper::unlock`. -/
def release (s : State Tid) (t : Tid) (next : Pc Tid) : State Tid :=
  { s with inner := none }.goto t next

/-- `osThreadFlagsClear` on the wait flag and the check of its status. -/
def clearWaitFlag (s : State Tid) (t : Tid) (next : Pc Tid) : State Tid :=
  if isOsFlagsError (s.flags t) then s.halt
  else (s.setFlags t (osThreadFlagsClear (s.flags t) (bitMask mutexWaitFlag))).goto t next

/-- `osThreadFlagsSet` on `blockedThread` and the check of its status. -/
def signal (s : State Tid) (t blockedThread : Tid) : State Tid :=
  let word := osThreadFlagsSet (s.flags blockedThread) (bitMask mutexWaitFlag)
  if isOsFlagsError word then s.halt else (s.setFlags blockedThread word).goto t .idle

/-- The statement at which thread `t` stands. -/
def advance (s : State Tid) (t : Tid) : Option (State Tid) :=
  match s.pc t with
  | .idle | .holding => none
  | .lockEnter => s.acquire t .lockCheck
  | .lockCheck => some (if s.owner = some t then s.halt else s.goto t .lockTest)
  | .lockTest => some (s.goto t (if s.owner = none then .lockTake else .lockDrop))
  | .lockDrop => some (s.release t .lockDropped)
  | .lockDropped => some (s.goto t .lockWait)
  | .lockWait =>
      if isBitSet (s.flags t) mutexWaitFlag then some (s.goto t (.lockRetake (s.flags t)))
      else none
  | .lockRetake status => s.acquire t (.lockStatus status)
  | .lockStatus status =>
      some (if status = osFlagsErrorTimeout then s.goto t .lockTest
        else if isOsFlagsError status then s.halt
        else if isBitSet status mutexWaitFlag then s.goto t .lockTake
        else s.goto t .lockTest)
  | .lockTake => some ({ s with owner := some t }.goto t .lockClear)
  | .lockClear => some (s.clearWaitFlag t .lockLeave)
  | .lockLeave => some (s.release t .holding)
  | .tryEnter => s.acquire t .tryCheck
  | .tryCheck =>
      some (if s.owner = some t then s.halt
        else s.goto t (if s.owner = none then .tryTake else .tryFail))
  | .tryFail => some (s.release t .idle)
  | .tryTake => some ({ s with owner := some t }.goto t .tryClear)
  | .tryClear => some (s.clearWaitFlag t .tryLeave)
  | .tryLeave => some (s.release t .holding)
  | .unlockEnter => s.acquire t .unlockCheck
  | .unlockCheck =>
      match s.owner with
      | none => some s.halt
      | some owner =>
          some (if owner = t then { s with owner := none }.goto t (.unlockDrop owner)
            else s.halt)
  | .unlockDrop blockedThread => some (s.release t (.unlockSignal blockedThread))
  | .unlockSignal blockedThread => some (s.signal t blockedThread)

end State

/-- One step of the system. A thread calls `unlock()` only while it owns the mutex and
the two lock functions only while it does not. -/
def step (s : State Tid) (a : Action Tid) : Option (State Tid) :=
  if s.halted then none
  else match a with
    | .lock t => if s.pc t = .idle then some (s.goto t .lockEnter) else none
    | .tryLock t => if s.pc t = .idle then some (s.goto t .tryEnter) else none
    | .unlock t => if s.pc t = .holding then some (s.goto t .unlockEnter) else none
    | .advance t => s.advance t
    | .timeout t =>
        if s.pc t = .lockWait then some (s.goto t (.lockRetake osFlagsErrorTimeout)) else none
    | .other t word =>
        if isBitSet word mutexWaitFlag = isBitSet (s.flags t) mutexWaitFlag
          ∧ isOsFlagsError word = false then some (s.setFlags t word)
        else none

end OpenIotSdk.InternalMutex
