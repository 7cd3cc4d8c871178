import Mathlib.Data.BitVec
import OpenIotSdk.Model.IotSocket
import OpenIotSdk.Model.Ntp.Context

/-! # The task of `iot_ntp_client.c`

Each step of `ntp_task` ends with the answer of one call of the RTOS or of the IoT socket,
and takes the task to its next one. -/

namespace OpenIotSdk.Ntp

/-- `TIME1970`. -/
def time1970 : ℕ := 2208988800

namespace Task

/-- The call at which the task stands. -/
inductive Pc where
  | timerNew -- `osTimerNew`
  | get -- `osMessageQueueGet`
  | startTimerStop -- `NTP_EVENT_START`, with a socket: `osTimerStop`
  | startClose -- `iotSocketClose`
  | create -- `iotSocketCreate`
  | setOpt -- `iotSocketSetOpt`
  | configAcquire -- `osMutexAcquire`, then the configuration is copied
  | configRelease -- `osMutexRelease`
  | resolve -- `iotSocketGetHostByName`
  | connect -- `iotSocketConnect`
  | send -- `NTP_EVENT_GET_TIME`: `iotSocketSend`
  | recv -- `iotSocketRecv`
  | timeAcquire (time : ℕ) -- `osMutexAcquire`, then the time is set
  | listeners -- the listeners are called
  | timeRelease -- `osMutexRelease`
  | timerStart -- `osTimerStart`
  | ackStart -- `osEventFlagsSet` with `NTP_CLIENT_START_FLAG`
  | stopTimer -- `NTP_EVENT_STOP`: `osTimerStop`
  | stopClose -- `iotSocketClose`
  | ackStop -- `osEventFlagsSet` with `NTP_CLIENT_STOP_FLAG`
  | errAcquire -- after the event: `osMutexAcquire`, then the error is written
  | errRelease -- `osMutexRelease`
  | errSet -- `osEventFlagsSet` with `NTP_CLIENT_ERROR_FLAG`
  | exitClose -- after the loop: `iotSocketClose`
  | exitTimerDelete -- `osTimerDelete`
  | exitFlag -- `osEventFlagsSet` with `NTP_CLIENT_TERMINATED_FLAG`
  | done -- the task has ended, or there was none
  deriving DecidableEq

end Task

/-- The local variables of `ntp_task`. -/
structure Task where
  pc : Task.Pc
  event : Event
  socket : ℤ
  error : Result
  working : Bool -- `ntp_connection_working`
  started : Bool -- `ntp_client_started`
  config : Config -- `ntp_config`, which `NTP_EVENT_START` copies before it is read
  timer : Option ℕ -- the interval of the timer while it runs
  deriving DecidableEq

namespace Task

def init : Task where
  pc := .timerNew
  event := .none
  socket := iotSocketEsock
  error := .ok
  working := false
  started := false
  config := ⟨none, 0, 0⟩
  timer := none

variable (t : Task)

def goto (pc : Pc) : Task := { t with pc := pc }

/-- The loop ends. -/
def leave : Task := t.goto (if t.socket ≠ iotSocketEsock then .exitClose else .exitTimerDelete)

/-- The event is done with, and its error is reported. -/
def next : Task := if t.event = .terminate then t.leave else t.goto .get

/-- A `break` in the `switch`. -/
def finish : Task := if t.error ≠ .ok then t.goto .errAcquire else t.next

/-- A `break` after an error. -/
def fail (error : Result) : Task := { t with error := error }.finish

/-- The `switch`. -/
def dispatch (event : Event) : Task :=
  let event := if event = .getTime ∧ t.working = false then .start else event
  let t := { t with event := event }
  match event with
  | .start =>
      t.goto (if t.socket ≠ iotSocketEsock then
        if t.started then .startTimerStop else .startClose
      else .create)
  | .getTime => t.goto .send
  | .stop => t.goto .stopTimer
  | .none | .terminate | .error => t.finish

/-- The end of `NTP_EVENT_GET_TIME`. -/
def settle : Task := if t.started then { t with working := true }.finish else t.goto .timerStart

/-- `osTimerStop` or `osTimerDelete`. -/
def stopTimer (status : ℤ) : Task := { t with timer := if status = 0 then none else t.timer }

/-- `ntp_connection_working` is cleared, and the request is put in the queue again. -/
def retry (s : Shared) : Shared × Task :=
  (s.ntpTimerCallback, { t with working := false }.finish)

/-- A request or a reply that does not come through. -/
def lose (s : Shared) (res : ℤ) : Shared × Task :=
  if res = iotSocketEagain ∨ res = iotSocketEtimedout then t.retry s
  else (s, { t with working := false }.fail .errNetwork)

/-- `osMessageQueueGet`, which waits for an event. -/
def get (s : Shared) (status : ℤ) : Option (Shared × Task) :=
  if s.eventQueue = .live ∧ status = 0 then
    match s.queue with
    | [] => none
    | event :: queue =>
        some ({ s with queue := queue, taken := s.taken + 1 }, t.dispatch event)
  else some (s, { t with event := .none }.fail .errEventQueue)

/-- `iotSocketRecv`, with the transmit timestamp of a reply of `sizeof(buf)` bytes. -/
def recv (s : Shared) (res : ℤ) (seconds : BitVec 32) : Shared × Task :=
  if res < 0 then t.lose s res
  else if res = 48 then
    if seconds.toNat < time1970 then t.retry s
    else (s, t.goto (.timeAcquire (seconds.toNat - time1970)))
  else (s, t.settle)

/-- The call at which the task stands answers; 0 is success also where it returns a pointer. -/
def advance (s : Shared) (t : Task) (res : ℤ) (seconds : BitVec 32) : Option (Shared × Task) :=
  match t.pc with
  | .timerNew => some (s, t.goto (if res = 0 then .get else .done))
  | .get => t.get s res
  | .startTimerStop => some (s, (t.stopTimer res).goto .startClose)
  | .startClose => some (s, if res = 0 then t.goto .create else t.fail .errNetwork)
  | .create =>
      let t := { t with socket := res }
      some (s, if 0 ≤ res then t.goto .setOpt else t.fail .errNetwork)
  | .setOpt => some (s, if res = 0 then t.goto .configAcquire else t.fail .errNetwork)
  | .configAcquire =>
      some (s, if s.MutexOk res then { t with config := s.config }.goto .configRelease
        else t.fail .errMutex)
  | .configRelease => some (s, if s.MutexOk res then t.goto .resolve else t.fail .errMutex)
  | .resolve => some (s, if res = 0 then t.goto .connect else t.fail .errNetwork)
  | .connect => some (s, if res = 0 then t.goto .send else t.fail .errNetwork)
  | .send => some (if res < 0 then t.lose s res else (s, t.goto .recv))
  | .recv => some (t.recv s res seconds)
  | .timeAcquire time =>
      some (if s.MutexOk res then ({ s with time := time }, t.goto .listeners)
        else (s, t.fail .errMutex))
  | .listeners => some (s, t.goto .timeRelease)
  | .timeRelease => some (s, if s.MutexOk res then t.settle else t.fail .errMutex)
  | .timerStart =>
      some (s, if res = 0 then
        { t with timer := some t.config.intervalMs, started := true }.goto .ackStart
      else t.fail .errTimer)
  | .ackStart =>
      some (if s.FlagsOk res then (s.setFlag .start, { t with working := true }.finish)
        else (s, t.fail .errEventFlag))
  | .stopTimer => some (s, (t.stopTimer res).goto .stopClose)
  | .stopClose =>
      some (s, if res = 0 then { t with socket := iotSocketEsock }.goto .ackStop
        else t.fail .errNetwork)
  | .ackStop =>
      some (if s.FlagsOk res then (s.setFlag .stop, t.finish) else (s, t.fail .errEventFlag))
  | .errAcquire =>
      some (if s.MutexOk res then ({ s with error := t.error }, t.goto .errRelease)
        else (s, t.leave))
  | .errRelease => some (s, if s.MutexOk res then t.goto .errSet else t.leave)
  | .errSet => some (if s.FlagsOk res then (s.setFlag .error, t.next) else (s, t.leave))
  | .exitClose => some (s, t.goto .exitTimerDelete)
  | .exitTimerDelete => some (s, (t.stopTimer res).goto .exitFlag)
  | .exitFlag =>
      some (if s.FlagsOk res then (s.setFlag .terminated, t.goto .done) else (s, t.goto .done))
  | .done => none

end Task

end OpenIotSdk.Ntp
