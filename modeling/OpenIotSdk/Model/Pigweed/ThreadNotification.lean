import OpenIotSdk.Library.Transition
import OpenIotSdk.Model.Cmsis.ThreadFlags
import Mathlib.Data.Int.Order.Basic

/-! # The thread notification of `pw_sync_cmsis_rtos`

`native_thread_notification.cc` with one subscriber thread. A `release()` runs in an
interrupt or with the kernel locked, so the subscriber takes no step inside it; a release
by an interrupt may still come inside any other release. -/

namespace OpenIotSdk.ThreadNotification

open Cmsis

/-- `PW_SYNC_CMSIS_RTOS_THREAD_NOTIFICATION_WAIT_FLAG`, with its default value. -/
def waitFlag : ℕ := 13

/-- `pw_cmsis_rtos_util::less_than_forever`. -/
def lessThanForever : ℤ := osWaitForever - 2

/-- `static_cast<uint32_t>(std::min(ticks, less_than_forever))` of `repeat_for_ticks`. -/
def ticks32 (ticks : ℤ) : ℤ := min ticks lessThanForever

/-- Where the subscriber is. A constructor names the statement that runs next, and
carries the local variables that are live there. -/
inductive Pc where
  | idle -- outside every call
  | tryCheck -- `try_acquire()`: the checks
  | tryTest -- `try_acquire()`: `if (notified_)`
  | tryConsume -- `try_acquire()`: `notified_ = false`
  | check (ticks : ℤ) -- the checks before the first critical section
  | test (ticks : ℤ) -- `if (notified_)`
  | fastUnblock -- `blocked_thread_id_ = nullptr` of the fast path
  | fastConsume -- `notified_ = false` of the fast path
  | subscribe (ticks : ℤ) -- `blocked_thread_id_ = thread_id`
  | clear (ticks : ℤ) -- the first `osThreadFlagsClear`
  | choose (ticks : ℤ) -- the choice between the three ways to wait
  | poll -- `osThreadFlagsWait` with no ticks
  | waitForever -- the loop around `osThreadFlagsWait(osWaitForever)`
  | loop (ticks : ℤ) (result : Flags) -- `while (ticks > 0)` of `repeat_for_ticks`
  | waitTicks (ticks : ℤ) -- `osThreadFlagsWait` in the callback of `repeat_for_ticks`
  | decide (status : Flags) -- `if (is_os_flags_error(status))`
  | unblock (status : Flags) -- `blocked_thread_id_ = nullptr` of the awakened thread
  | consume (status : Flags) -- `notified_ = false` of the awakened thread
  | finish -- the last `osThreadFlagsClear`
  deriving DecidableEq

namespace Pc

/-- The subscriber has the kernel locked. -/
def kernelLocked : Pc → Bool
  | tryTest | tryConsume | fastUnblock | fastConsume | subscribe _ | clear _ => true
  | _ => false

end Pc

/-- How often the notification was released, how often an acquire operation reported
success, and how many of these found `notified_` false when they reset it. -/
structure Count where
  releases : ℕ
  successes : ℕ
  unearned : ℕ
  deriving DecidableEq

structure State where
  blocked : Bool -- `blocked_thread_id_ != nullptr`: the subscriber is the only thread it can name
  notified : Bool -- `notified_`
  flags : Flags -- the thread flags of the subscriber
  pc : Pc
  releasing : ℕ -- releases between their two statements, nested
  halted : Bool -- a `PW_CHECK` has failed
  count : Count
  deriving DecidableEq

def init : State where
  blocked := false
  notified := false
  flags := 0#32
  pc := .idle
  releasing := 0
  halted := false
  count := ⟨0, 0, 0⟩

/-- Who calls `release()`. -/
inductive Context where
  | thread
  | interrupt
  deriving DecidableEq

inductive Action where
  | tryAcquire
  | tryAcquireFor (ticks : ℤ)
  | acquire
  | advance -- the subscriber runs its next statement
  | timeout -- `osThreadFlagsWait` returns `osFlagsErrorTimeout`
  | release (context : Context) -- `release()` up to `notified_ = true`
  | signal -- the rest of the innermost `release()`
  | other (word : Flags) -- other code gives the subscriber a flag word with the same wait flag
  deriving DecidableEq

namespace State

def goto (s : State) (pc : Pc) : State := { s with pc := pc }

/-- A failed `PW_CHECK`. -/
def halt (s : State) : State := { s with halted := true }

/-- `notified_ = false` in an operation that goes on to report success. -/
def consume (s : State) : State :=
  { s with
    notified := false
    count := { s.count with
      successes := s.count.successes + 1
      unearned := s.count.unearned + if s.notified then 0 else 1 } }

/-- `osThreadFlagsClear` on the wait flag and the check of its status. -/
def clearWaitFlag (s : State) (next : Pc) : State :=
  if isOsFlagsError s.flags then s.halt
  else { s with flags := osThreadFlagsClear s.flags (bitMask waitFlag) }.goto next

/-- The statement at which the subscriber stands. -/
def advance (s : State) : Option State :=
  match s.pc with
  | .idle => none
  | .tryCheck => some (if s.blocked then s.halt else s.goto .tryTest)
  | .tryTest => some (s.goto (if s.notified then .tryConsume else .idle))
  | .tryConsume => some (s.consume.goto .idle)
  | .check ticks => some (if s.blocked then s.halt else s.goto (.test ticks))
  | .test ticks => some (s.goto (if s.notified then .fastUnblock else .subscribe ticks))
  | .fastUnblock => some ({ s with blocked := false }.goto .fastConsume)
  | .fastConsume => some (s.consume.goto .idle)
  | .subscribe ticks => some ({ s with blocked := true }.goto (.clear ticks))
  | .clear ticks => some (s.clearWaitFlag (.choose ticks))
  | .choose ticks =>
      some (s.goto (if ticks = 0 then .poll
        else if ticks = osWaitForever then .waitForever
        else .loop ticks 0#32))
  | .poll =>
      some (s.goto (.decide (if isBitSet s.flags waitFlag then s.flags
        else osFlagsErrorResource)))
  | .waitForever => if isBitSet s.flags waitFlag then some (s.goto (.decide s.flags)) else none
  | .loop ticks result =>
      some (s.goto (if 0 < ticks then .waitTicks ticks else .decide result))
  | .waitTicks _ => if isBitSet s.flags waitFlag then some (s.goto (.decide s.flags)) else none
  | .decide status => some (s.goto (if isOsFlagsError status then .idle else .unblock status))
  | .unblock status => some ({ s with blocked := false }.goto (.consume status))
  | .consume _ => some (s.consume.goto .finish)
  | .finish =>
      -- The flag word found here is the status returned, and is not an error.
      some ({ s with flags := osThreadFlagsClear s.flags (bitMask waitFlag) }.goto .idle)

/-- A wait of the subscriber ends without its flag. -/
def timeout (s : State) : Option State :=
  match s.pc with
  | .waitForever => some s
  | .waitTicks ticks => some (s.goto (.loop (ticks - ticks32 ticks) osFlagsErrorTimeout))
  | _ => none

/-- `release()` up to `notified_ = true`. -/
def release (s : State) : State :=
  { s with
    notified := true
    releasing := s.releasing + 1
    count := { s.count with releases := s.count.releases + 1 } }

/-- The rest of `release()`. -/
def signal (s : State) : State :=
  if s.blocked then
    let word := osThreadFlagsSet s.flags (bitMask waitFlag)
    if isOsFlagsError word then s.halt
    else { s with flags := word, releasing := s.releasing - 1 }
  else { s with releasing := s.releasing - 1 }

/-- The subscriber starts an operation. -/
def call (s : State) (pc : Pc) : Option State :=
  if s.pc = .idle ∧ s.releasing = 0 then some (s.goto pc) else none

end State

def step (s : State) (a : Action) : Option State :=
  if s.halted then none
  else match a with
    | .tryAcquire => s.call .tryCheck
    | .tryAcquireFor ticks => s.call (.check ticks)
    | .acquire => s.call (.check osWaitForever)
    | .advance => if s.releasing = 0 then s.advance else none
    | .timeout => if s.releasing = 0 then s.timeout else none
    | .release .interrupt => some s.release
    | .release .thread =>
        if s.releasing = 0 ∧ s.pc.kernelLocked = false then some s.release else none
    | .signal => if 0 < s.releasing then some s.signal else none
    | .other word =>
        if isBitSet word waitFlag = isBitSet s.flags waitFlag
          ∧ isOsFlagsError word = false then some { s with flags := word }
        else none

end OpenIotSdk.ThreadNotification
