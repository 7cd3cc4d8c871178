import OpenIotSdk.Library.Transition
import OpenIotSdk.Model.Cmsis.ThreadFlags
import Mathlib.Data.Int.Order.Basic

/-! # The system timer of `pw_chrono_cmsis_rtos`

`system_timer.cc` over one OS timer. `Set`, `Unset` and the locked part of `Invoke` run
with the kernel locked and are one step each. An expiry and its `Invoke` are separate
steps, and so are the locked part of `Invoke` and the user callback after it. -/

namespace OpenIotSdk.SystemTimer

open Cmsis

/-- `osTimerTypeForRTOS`: periodic on FreeRTOS, one-shot on RTX. -/
inductive TimerType where
  | once
  | periodic
  deriving DecidableEq

/-- What the RTOS decides: the type of timer, and whether `osTimerStop` returns `osOK`
on a timer that is not running. -/
structure Os where
  timerType : TimerType
  stopsStopped : Bool

def rtx : Os := ⟨.once, false⟩

/-- An `Invoke` that will call back, with the `Set` in force when it was accepted. -/
structure Accepted where
  set : Option ℕ
  deadline : ℤ
  deriving DecidableEq

/-- A call of the user callback. -/
structure Call extends Accepted where
  time : ℤ
  deriving DecidableEq

/-- What a user of the timer has seen so far: the deadlines of the `Set` calls, which of
them is in force, and the calls of the callback. -/
structure History where
  sets : List ℤ
  current : Option ℕ
  calls : List Call

structure State where
  now : ℤ -- `SystemClock::now()`
  deadline : ℤ -- `_deadline`
  set : Bool -- `_set`
  running : Bool -- the OS timer is running, and next expires at `dueAt`
  dueAt : ℤ
  period : ℤ -- the ticks given to the last `osTimerStart`
  pending : ℕ -- expiries whose `Invoke` has not run
  accepted : List Accepted -- `Invoke`s between their locked part and the user callback
  badStops : ℕ -- calls of `osTimerStop` on a timer that was not running
  halted : Bool -- a `PW_CHECK` has failed
  history : History

def init : State where
  now := 0
  deadline := 0
  set := false
  running := false
  dueAt := 0
  period := 0
  pending := 0
  accepted := []
  badStops := 0
  halted := false
  history := ⟨[], none, []⟩

def ticksLo : ℤ := 1

def ticksHi : ℤ := osWaitForever - 1

/-- `int64_t` arithmetic, wrapping. -/
def toInt64 (x : ℤ) : ℤ := x.bmod (2 ^ 64)

/-- `std::clamp(ticks_delta, TICKS_LO, TICKS_HI)`. -/
def clampTicks (deadline now : ℤ) : ℤ :=
  max ticksLo (min (toInt64 (deadline - now)) ticksHi)

/-- `osTimerStop`. -/
def osTimerStop (s : State) : State :=
  { s with running := false, badStops := s.badStops + if s.running then 0 else 1 }

/-- `NativeSystemTimer::Unset`. -/
def unset (os : Os) (s : State) : State :=
  if s.set then
    if s.running || os.stopsStopped then { osTimerStop s with set := false }
    else { osTimerStop s with halted := true }
  else s

/-- `osTimerStart`. -/
def osTimerStart (s : State) (ticks : ℤ) : State :=
  { s with running := true, period := ticks, dueAt := s.now + ticks }

/-- `NativeSystemTimer::Set`. -/
def set (os : Os) (s : State) (deadline : ℤ) : State :=
  let s := unset os { s with deadline := deadline }
  if s.halted then s
  else osTimerStart { s with set := true } (clampTicks deadline s.now)

/-- `UnsetAfterInvoke`. -/
def unsetAfterInvoke (os : Os) (s : State) : State :=
  match os.timerType with
  | .periodic => unset os s
  | .once => { s with set := false }

/-- The locked part of `NativeSystemTimer::Invoke`. The clock moves on by `elapsed`
between the test of the deadline and the second reading in `Set`. -/
def invoke (os : Os) (s : State) (elapsed : ℕ) : State :=
  let deadline := s.deadline
  if !s.set then s
  else if s.now < deadline then set os { s with now := s.now + elapsed } deadline
  else
    let s := unsetAfterInvoke os s
    if s.halted then s
    else { s with accepted := s.accepted ++ [⟨s.history.current, deadline⟩] }

/-- The OS timer fires: a one-shot timer stops, a periodic one goes on. -/
def expire (os : Os) (s : State) : State :=
  match os.timerType with
  | .once => { s with running := false, pending := s.pending + 1 }
  | .periodic => { s with dueAt := s.dueAt + s.period, pending := s.pending + 1 }

inductive Action where
  | tick (n : ℕ)
  | set (deadline : ℤ) -- `InvokeAt(deadline)`, from any thread or from the callback
  | unset -- `Cancel()`
  | expire
  | invoke (elapsed : ℕ)
  | callback -- `_callback(deadline)` of the oldest accepted `Invoke`
  deriving DecidableEq

def step (os : Os) (s : State) (a : Action) : Option State :=
  if s.halted then none
  else match a with
    | .tick n => some { s with now := s.now + n }
    | .set deadline =>
        some { set os s deadline with
          history := { s.history with
            sets := s.history.sets ++ [deadline]
            current := some s.history.sets.length } }
    | .unset => some { unset os s with history := { s.history with current := none } }
    | .expire => if s.running ∧ s.dueAt ≤ s.now then some (expire os s) else none
    | .invoke elapsed =>
        if 0 < s.pending then some (invoke os { s with pending := s.pending - 1 } elapsed)
        else none
    | .callback =>
        match s.accepted with
        | [] => none
        | a :: rest =>
            some { s with
              accepted := rest
              history := { s.history with calls := s.history.calls ++ [⟨a, s.now⟩] } }

/-- Every wait given to the OS timer is at least one tick and never `osWaitForever`. -/
theorem clampTicks_bounds (deadline now : ℤ) :
    1 ≤ clampTicks deadline now ∧ clampTicks deadline now < osWaitForever := by
  simp only [clampTicks, ticksLo, ticksHi, osWaitForever]
  omega

end OpenIotSdk.SystemTimer
