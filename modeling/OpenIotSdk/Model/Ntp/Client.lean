import Mathlib.Logic.Function.Basic
import OpenIotSdk.Model.Ntp.Api
import OpenIotSdk.Model.Ntp.Task

/-! # The NTP client

The task, its timer and any number of callers of the API interleave in any order. A task that
has not ended when the next one is created goes on as a stray. -/

namespace OpenIotSdk.Ntp

structure State (ι : Type*) where
  shared : Shared
  task : Task -- the last one that was created
  calls : ι → Call

/-- Before the first initialization. -/
def init (ι : Type*) : State ι where
  shared := .zero
  task := { Task.init with pc := .done }
  calls := fun _ => Call.init

/-- What a stray can do to what is shared. -/
inductive Stray where
  | take -- it takes an event from the queue
  | put -- it or its timer puts `NTP_EVENT_GET_TIME`
  | setFlag (flag : Flag)
  | setError (error : Result)
  | setTime (time : ℕ)
  | ends
  deriving DecidableEq

inductive CallAction where
  | init (config : Option Config) (created : Creation) -- `iotNtpClientInit`
  | start -- `iotNtpClientStart`
  | stop -- `iotNtpClientStop`
  | deinit -- `iotNtpClientDeinit`
  | advance (res : ℤ) -- the RTOS call at which the call under way stands answers
  deriving DecidableEq

inductive Action (ι : Type*) where
  /-- The task's call answers, with the transmit timestamp of a reply. -/
  | task (res : ℤ) (seconds : BitVec 32)
  | tick -- a timer elapses, and its callback will run
  | timerCallback -- a timer callback runs
  | stray (effect : Stray)
  | call (i : ι) (action : CallAction)
  deriving DecidableEq

namespace Shared

def stray (s : Shared) : Stray → Shared
  | .take =>
      match s.queue with
      | [] => s
      | _ :: queue => { s with queue := queue, taken := s.taken + 1 }
  | .put => s.ntpTimerCallback
  | .setFlag flag => s.setFlag flag
  | .setError error => { s with error := error }
  | .setTime time => { s with time := time }
  | .ends => { s with strays := s.strays - 1 }

end Shared

namespace State

variable {ι : Type*} [DecidableEq ι] (s : State ι)

/-- One call takes a step. -/
def setCall (i : ι) (next : Shared × Call) : State ι :=
  { s with shared := next.1, calls := Function.update s.calls i next.2 }

/-- `osThreadNew`. -/
def newTask : State ι :=
  let shared :=
    if s.task.pc ≠ .done then { s.shared with strays := s.shared.strays + 1 }
    else if s.task.timer ≠ none then { s.shared with leaks := s.shared.leaks + 1 }
    else s.shared
  { s with shared := shared, task := Task.init }

def iotNtpClientInit (i : ι) (config : Option Config) (created : Creation) : State ι :=
  let (shared, call, thread) := (s.calls i).iotNtpClientInit s.shared config created
  let s := s.setCall i (shared, call)
  if thread then s.newTask else s

/-- A caller makes one call at a time. -/
def call (i : ι) (action : CallAction) : Option (State ι) :=
  let c := s.calls i
  match action with
  | .init config created =>
      if c.pc = .idle then some (s.iotNtpClientInit i config created) else none
  | .start =>
      if c.pc = .idle then some (s.setCall i (s.shared, c.iotNtpClientStart s.shared)) else none
  | .stop =>
      if c.pc = .idle then some (s.setCall i (s.shared, c.iotNtpClientStop s.shared)) else none
  | .deinit =>
      if c.pc = .idle then some (s.setCall i (c.iotNtpClientDeinit s.shared)) else none
  | .advance res => (c.advance s.shared res).map (s.setCall i)

end State

variable {ι : Type*} [DecidableEq ι]

def step (s : State ι) (a : Action ι) : Option (State ι) :=
  match a with
  | .task res seconds =>
      (s.task.advance s.shared res seconds).map fun next =>
        { s with shared := next.1, task := next.2 }
  | .tick =>
      if s.task.timer ≠ none ∨ 0 < s.shared.leaks then
        some { s with shared := { s.shared with callbacks := s.shared.callbacks + 1 } }
      else none
  | .timerCallback =>
      if 0 < s.shared.callbacks then
        some { s with
          shared := { s.shared with callbacks := s.shared.callbacks - 1 }.ntpTimerCallback }
      else none
  | .stray effect =>
      if 0 < s.shared.strays then some { s with shared := s.shared.stray effect } else none
  | .call i action => s.call i action

end OpenIotSdk.Ntp
