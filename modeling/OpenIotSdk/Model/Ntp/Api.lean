import OpenIotSdk.Model.Ntp.Context

/-! # The API of `iot_ntp_client.c`

A call of the API takes its steps between those of the task. Each ends with the answer of one
RTOS call, and `wait_for_ntp_event` is part of the call that makes it. -/

namespace OpenIotSdk.Ntp

/-- What a call is about. -/
inductive Op where
  | start -- `iotNtpClientStart`
  | stop -- `iotNtpClientStop`
  | deinitStop -- `iotNtpClientStop` in `iotNtpClientDeinit`
  | deinit -- the rest of `iotNtpClientDeinit`
  | cleanup (error : Result) -- `iotNtpClientDeinit` in `iotNtpClientInit`, which then fails so
  deriving DecidableEq

/-- The event that the call puts. -/
def Op.event : Op → Event
  | .start => .start
  | .stop | .deinitStop => .stop
  | .deinit => .terminate
  | .cleanup _ => .none

/-- The flag that it waits for. -/
def Op.flag : Op → Flag
  | .start => .start
  | .stop | .deinitStop => .stop
  | .deinit | .cleanup _ => .terminated

namespace Call

inductive Pc where
  | idle -- no call is under way
  | put -- `osMessageQueuePut`
  | wait -- `osEventFlagsWait`
  | clear (flags : Finset Flag) -- `osEventFlagsClear`, with the flags of the wait
  | errAcquire -- `osMutexAcquire`, then the error is read
  | errRelease (error : Result) -- `osMutexRelease`
  | deleteFlags -- `osEventFlagsDelete`
  | deleteQueue -- `osMessageQueueDelete`
  | deleteMutex -- `osMutexDelete`
  deriving DecidableEq

end Call

structure Call where
  op : Op
  pc : Call.Pc
  result : Option Result -- of the last call, once it has returned
  deriving DecidableEq

/-- Which objects `iotNtpClientInit` can create. -/
structure Creation where
  mutex : Bool
  eventQueue : Bool
  eventFlags : Bool
  thread : Bool
  deriving DecidableEq

namespace Config

def default : Config := ⟨some "pool.ntp.org", 123, 15000⟩

/-- The configuration of `iotNtpClientInit`, whose missing values are the defaults. -/
def orDefault : Option Config → Config
  | none => default
  | some config =>
      { hostname := config.hostname.or default.hostname
        port := if config.port = 0 then default.port else config.port
        intervalMs := if config.intervalMs = 0 then default.intervalMs else config.intervalMs }

end Config

namespace Call

/-- `wait_for_ntp_event` up to its next RTOS call, or with its result. -/
def waitForNtpEvent (s : Shared) (event : Flag) (pc : Pc) (res : ℤ) :
    Option (Shared × (Pc ⊕ Result)) :=
  match pc with
  -- The wait gives all the flags, and clears none.
  | .wait =>
      if s.eventFlags = .live ∧ (event ∈ s.flags ∨ .error ∈ s.flags) then
        some (s, .inl (.clear s.flags))
      else if res < 0 then some (s, .inr s.error)
      else none
  | .clear flags =>
      some (if s.FlagsOk res then
        ({ s with flags := s.flags \ ({event, .error} ∩ flags) },
          if flags = {event} then .inr .ok
          else if .error ∈ flags then .inl .errAcquire
          else .inr .errInternal)
      else (s, .inr .errEventFlag))
  | .errAcquire =>
      some (s, if s.MutexOk res then .inl (.errRelease s.error) else .inr .errMutex)
  | .errRelease error => some (s, .inr (if s.MutexOk res then error else .errMutex))
  | .idle | .put | .deleteFlags | .deleteQueue | .deleteMutex => none

def init : Call := ⟨.start, .idle, none⟩

variable (c : Call)

def goto (pc : Pc) : Call := { c with pc := pc }

/-- The call returns. -/
def ret (result : Result) : Call := { c with pc := .idle, result := some result }

/-- `iotNtpClientDeinit` returns, to its caller or to `iotNtpClientInit`. -/
def conclude (result : Result) : Call :=
  match c.op with
  | .cleanup error => c.ret error
  | .start | .stop | .deinitStop | .deinit => c.ret result

/-! ## `iotNtpClientDeinit` -/

def deinitMutex (s : Shared) : Shared × Call :=
  if s.mutex ≠ .null then (s, c.goto .deleteMutex) else (s.memset, c.conclude .ok)

def deinitQueue (s : Shared) : Shared × Call :=
  if s.eventQueue ≠ .null then (s, c.goto .deleteQueue) else c.deinitMutex s

def deinitFlags (s : Shared) : Shared × Call :=
  if s.eventFlags ≠ .null then (s, c.goto .deleteFlags) else c.deinitQueue s

def deinitThread (s : Shared) : Shared × Call :=
  if s.thread then (s, { c with op := .deinit, pc := .put })
  else { c with op := .deinit }.deinitFlags s

/-! ## The calls -/

/-- What the caller of `wait_for_ntp_event` does with its result. -/
def waited (s : Shared) (result : Result) : Shared × Call :=
  if result ≠ .ok then (s, c.ret result)
  else
    match c.op with
    | .start => ({ s with state := .running }, c.ret .ok)
    | .stop => ({ s with state := .stopped }, c.ret .ok)
    | .deinitStop => c.deinitThread { s with state := .stopped }
    | .deinit => c.deinitFlags { s with thread := false }
    | .cleanup _ => (s, c.ret .ok)

/-- The RTOS call at which the call stands answers. -/
def advance (s : Shared) (c : Call) (res : ℤ) : Option (Shared × Call) :=
  match c.pc with
  | .idle => none
  | .put =>
      some (if s.Room then (s.push c.op.event, c.goto .wait) else (s, c.ret .errEventQueue))
  | .wait | .clear _ | .errAcquire | .errRelease _ =>
      (waitForNtpEvent s c.op.flag c.pc res).map fun next => match next.2 with
        | .inl pc => (next.1, c.goto pc)
        | .inr result => c.waited next.1 result
  | .deleteFlags =>
      some (if s.FlagsOk res then c.deinitQueue { s with eventFlags := .deleted }
        else (s, c.conclude .errEventFlag))
  | .deleteQueue =>
      some (if s.eventQueue = .live ∧ res = 0 then c.deinitMutex { s with eventQueue := .null }
        else (s, c.conclude .errEventQueue))
  | .deleteMutex =>
      some (if s.MutexOk res then (s.memset, c.conclude .ok) else (s, c.conclude .errMutex))

/-- `iotNtpClientStart` up to its first RTOS call. -/
def iotNtpClientStart (s : Shared) : Call :=
  match s.state with
  | .uninitialised => c.ret .errWrongState
  | .stopped => { c with op := .start, pc := .put }
  | .running => { c with op := .start, pc := .wait }

/-- `iotNtpClientStop` up to its first RTOS call. -/
def iotNtpClientStop (s : Shared) : Call :=
  match s.state with
  | .uninitialised => c.ret .errWrongState
  | .running => { c with op := .stop, pc := .put }
  | .stopped => { c with op := .stop, pc := .wait }

/-- `iotNtpClientDeinit` up to its first RTOS call. -/
def iotNtpClientDeinit (s : Shared) : Shared × Call :=
  if s.state = .running then (s, { c with op := .deinitStop, pc := .put })
  else c.deinitThread s

/-- `iotNtpClientInit`, which fails with the first object that it cannot create; whether it
has created a task comes last. -/
def iotNtpClientInit (s : Shared) (config : Option Config) (created : Creation) :
    Shared × Call × Bool :=
  if s.state ≠ .uninitialised then (s, c.ret .ok, false)
  else
    let failed (s : Shared) (error : Result) : Shared × Call × Bool :=
      let (s, c) := { c with op := .cleanup error }.deinitFlags s
      (s, c, false)
    let s := { s.memset with config := Config.orDefault config }
    if !created.mutex then failed s .errMutex
    else
      let s := { s with mutex := .live }
      if !created.eventQueue then failed s .errEventQueue
      else
        let s := { s with
          eventQueue := .live
          queue := []
          taken := s.taken + s.queue.length }
        if !created.eventFlags then failed s .errEventFlag
        else
          let s := { s with eventFlags := .live, flags := ∅ }
          if !created.thread then failed s .errThread
          else ({ s with thread := true, state := .stopped }, c.ret .ok, true)

end Call

end OpenIotSdk.Ntp
