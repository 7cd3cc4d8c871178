import Mathlib.Data.Finset.Insert
import Mathlib.Data.Finset.SDiff

/-! # The context of `iot_ntp_client.c`

The task, the timer callbacks and the calls of the API share `ntp_context` and the RTOS
objects it points to. -/

namespace OpenIotSdk.Ntp

/-- `iotNtpClientResult_t`. -/
inductive Result where
  | ok
  | errWrongState
  | errInvalidArg
  | errThread
  | errMutex
  | errEventQueue
  | errEventFlag
  | errNetwork
  | errTimer
  | errInternal
  deriving DecidableEq

/-- `iotNtpClientState_t`. -/
inductive ClientState where
  | uninitialised
  | stopped
  | running
  deriving DecidableEq

/-- `ntp_event_t`. -/
inductive Event where
  | none
  | start
  | getTime
  | stop
  | terminate
  | error
  deriving DecidableEq

/-- The bits of the event flags. -/
inductive Flag where
  | start -- `NTP_CLIENT_START_FLAG`
  | stop -- `NTP_CLIENT_STOP_FLAG`
  | error -- `NTP_CLIENT_ERROR_FLAG`
  | terminated -- `NTP_CLIENT_TERMINATED_FLAG`
  deriving DecidableEq

/-- `iotNtpClientConfig_t`. -/
structure Config where
  hostname : Option String
  port : ℕ
  intervalMs : ℕ
  deriving DecidableEq

/-- A pointer of the context to an RTOS object. -/
inductive Handle where
  | null
  | live
  | deleted -- the object is deleted, and the pointer is as it was
  deriving DecidableEq

structure Shared where
  config : Config
  state : ClientState
  error : Result
  thread : Bool -- `ntp_context.thread` is no null pointer
  mutex : Handle
  eventQueue : Handle
  eventFlags : Handle
  time : ℕ
  queue : List Event -- the events in the queue, the oldest first
  taken : ℕ -- how many events have left a queue, and so the number of the first one in it
  flags : Finset Flag -- the bits that are set
  callbacks : ℕ -- the timer callbacks that have still to put their event
  strays : ℕ -- the tasks of earlier initializations that have not ended, with their timers
  leaks : ℕ -- the timers of those that have ended without deleting them
  deriving DecidableEq

/-- Before the first initialization. -/
def Shared.zero : Shared where
  config := ⟨none, 0, 0⟩
  state := .uninitialised
  error := .ok
  thread := false
  mutex := .null
  eventQueue := .null
  eventFlags := .null
  time := 0
  queue := []
  taken := 0
  flags := ∅
  callbacks := 0
  strays := 0
  leaks := 0

namespace Shared

variable (s : Shared)

/-- `memset(&ntp_context, 0, sizeof(iotNtpClientContext_t))`. -/
def memset : Shared :=
  { zero with
    queue := s.queue
    taken := s.taken
    flags := s.flags
    callbacks := s.callbacks
    strays := s.strays
    leaks := s.leaks }

/-- `osMessageQueuePut` does not fail: the queue takes 5 events. -/
def Room : Prop := s.eventQueue = .live ∧ s.queue.length < 5

instance : Decidable s.Room := inferInstanceAs (Decidable (_ ∧ _))

def push (event : Event) : Shared := { s with queue := s.queue ++ [event] }

/-- `ntp_timer_callback`. -/
def ntpTimerCallback : Shared := if s.Room then s.push .getTime else s

/-- `osEventFlagsSet` with success. -/
def setFlag (flag : Flag) : Shared := { s with flags := insert flag s.flags }

/-- A call with this status succeeds on the mutex, which may be deleted. -/
def MutexOk (status : ℤ) : Prop := s.mutex = .live ∧ status = 0

/-- A call with this result succeeds on the event flags. -/
def FlagsOk (res : ℤ) : Prop := s.eventFlags = .live ∧ 0 ≤ res

instance (status : ℤ) : Decidable (s.MutexOk status) := inferInstanceAs (Decidable (_ ∧ _))

instance (res : ℤ) : Decidable (s.FlagsOk res) := inferInstanceAs (Decidable (_ ∧ _))

end Shared

end OpenIotSdk.Ntp
