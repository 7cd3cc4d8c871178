import Mathlib.Data.Int.Order.Basic
import OpenIotSdk.Model.Ntp.Context

/-! # `platform_openiot.c`

`platform_init` and `platform_deinit` take their steps between those of the callbacks that the
network task and the NTP client make. Each step ends with the answer of one call. -/

namespace OpenIotSdk.Azure

open Ntp (Handle)

/-- `IOTSDK_AZURE_SDK_NTP_TIME` and `MU_FAILURE`. -/
structure Build where
  ntpTime : Bool
  failure : ℤ
  failure_ne_zero : failure ≠ 0

namespace Platform

/-- The call at which `platform_init` or `platform_deinit` stands. -/
inductive Pc where
  | idle
  | flagsNew -- `osEventFlagsNew`
  | lockNew -- `osMutexNew`
  | flagsDeleteEarly -- `osEventFlagsDelete` without a mutex
  | ntpInit -- `iotNtpClientInit`
  | startNetwork -- `start_network_task`
  | check -- `is_network_up`
  | waitNetwork -- `osEventFlagsWait` for `AZURE_NETWORK_CHANGE_FLAG`
  | clearNetwork -- `osEventFlagsClear`
  | recheck -- `is_network_up`
  | addListener -- `iotNtpClientAddListener`
  | ntpStart -- `iotNtpClientStart`
  | waitTime -- `osEventFlagsWait` for `AZURE_TIME_READY_FLAG`
  | clearTime -- `osEventFlagsClear`
  | clearListeners -- `iotNtpClientClearListeners`
  | ntpDeinit -- `platform_deinit`: `iotNtpClientDeinit`
  | lockDelete -- `osMutexDelete`
  | flagsDelete -- `osEventFlagsDelete`
  deriving DecidableEq

/-- The call at which `network_state_callback` stands. -/
inductive Callback where
  | idle
  | set -- `osEventFlagsSet`
  | release -- `osMutexRelease`
  deriving DecidableEq

/-- What a call of `platform_init` has created and not released. -/
structure Resources where
  flags : Bool
  lock : Bool
  ntp : Bool
  deriving DecidableEq

def Resources.none : Resources := ⟨false, false, false⟩

end Platform

structure Platform where
  flags : Handle -- `event_flags_id`
  lock : Handle -- `network_state_lock`
  networkUp : Bool -- `network_up`
  change : Bool -- `AZURE_NETWORK_CHANGE_FLAG` is set
  time : Bool -- `AZURE_TIME_READY_FLAG` is set
  ntp : Bool -- the NTP client is initialised
  listening : Bool -- `ntp_listener_callback` is registered
  started : Bool -- the network task has been started
  callback : Platform.Callback
  held : Bool -- the callback holds the lock
  pc : Platform.Pc
  initialising : Bool -- `platform_init` is under way, and not `platform_deinit` alone
  res : ℤ -- `res` in `platform_init`
  result : Option ℤ -- of the last `platform_init`
  seen : Bool -- it has seen the network up
  cleaned : Bool -- it has gone to `cleanup`
  own : Platform.Resources
  misused : Bool -- an object was used by a callback, or deleted, after its deletion
  deriving DecidableEq

namespace Platform

def init : Platform where
  flags := .null
  lock := .null
  networkUp := false
  change := false
  time := false
  ntp := false
  listening := false
  started := false
  callback := .idle
  held := false
  pc := .idle
  initialising := false
  res := 0
  result := none
  seen := false
  cleaned := false
  own := .none
  misused := false

variable (b : Build) (s : Platform)

def goto (pc : Pc) : Platform := { s with pc := pc }

def ret (result : ℤ) : Platform := { s with pc := .idle, result := some result }

/-! ## The objects -/

/-- A callback or a deletion uses the object. -/
def use (handle : Handle) : Platform :=
  { s with misused := s.misused || decide (handle = .deleted) }

def deleteLock (res : ℤ) : Platform :=
  if s.lock = .live ∧ res = 0 then
    { s with lock := .deleted, held := false, own := { s.own with lock := false } }
  else s.use s.lock

def deleteFlags (res : ℤ) : Platform :=
  if s.flags = .live ∧ res = 0 then
    { s with flags := .deleted, own := { s.own with flags := false } }
  else s.use s.flags

/-- `is_network_up`, which waits while the callback holds the lock. -/
def isNetworkUp (res : ℤ) : Option Bool :=
  if s.held then none else some (decide (s.lock = .live) && decide (res = 0) && s.networkUp)

/-! ## `platform_init` and `platform_deinit` -/

/-- The first call of `platform_deinit`. -/
def deinitPc : Pc := if b.ntpTime then .ntpDeinit else .lockDelete

def platformDeinit : Platform := { s with initialising := false }.goto (deinitPc b)

/-- `goto cleanup` with this `res`. -/
def cleanup (res : ℤ) : Platform := { s with res := res, cleaned := true }.goto (deinitPc b)

/-- The network is up. -/
def proceed (res : ℤ) : Platform :=
  let s := { s with res := res, seen := true }
  if b.ntpTime then s.goto .addListener else s.ret res

/-- `osEventFlagsWait` in `wait_for_event`, which succeeds only once the flag is set. -/
def waitForEvent (flag : Bool) (res : ℤ) (pc : Pc) : Option Platform :=
  if res < 0 then some (s.cleanup b b.failure)
  else if s.flags = .live ∧ flag = true then some (s.goto pc)
  else none

def platformInit : Platform :=
  { s with
    pc := .flagsNew
    initialising := true
    res := 0
    seen := false
    cleaned := false
    own := .none }

/-- The call answers; 0 is success also where it returns a pointer. -/
def advance (res : ℤ) : Option Platform :=
  match s.pc with
  | .idle => none
  | .flagsNew =>
      some (if res = 0 then
        { s with
          flags := Handle.live
          change := false
          time := false
          networkUp := false
          own := { s.own with flags := true } }.goto .lockNew
      else { s with flags := Handle.null }.ret b.failure)
  | .lockNew =>
      some (if res = 0 then
        { s with lock := Handle.live, held := false, own := { s.own with lock := true } }.goto
          (if b.ntpTime then .ntpInit else .startNetwork)
      else { s with lock := Handle.null, held := false }.goto .flagsDeleteEarly)
  | .flagsDeleteEarly => some ((s.deleteFlags res).ret b.failure)
  | .ntpInit =>
      some (if res = 0 then
        { s with ntp := true, own := { s.own with ntp := !s.ntp } }.goto .startNetwork
      else s.cleanup b res)
  | .startNetwork =>
      some (if res = 0 then { s with res := res, started := true }.goto .check
        else s.cleanup b res)
  | .check =>
      (s.isNetworkUp res).map fun up => if up then s.proceed b s.res else s.goto .waitNetwork
  | .waitNetwork => s.waitForEvent b s.change res .clearNetwork
  | .clearNetwork =>
      some ({ s with
        change := if s.flags = Handle.live ∧ 0 ≤ res then false else s.change
        res := 0 }.goto .recheck)
  | .recheck =>
      (s.isNetworkUp res).map fun up => if up then s.proceed b s.res else s.cleanup b s.res
  | .addListener =>
      some (if res = 0 then { s with listening := true }.goto .ntpStart else s.cleanup b res)
  | .ntpStart => some (if res = 0 then s.goto .waitTime else s.cleanup b res)
  | .waitTime => s.waitForEvent b s.time res .clearTime
  | .clearTime =>
      some ({ s with time := if s.flags = Handle.live ∧ 0 ≤ res then false else s.time }.goto
        .clearListeners)
  | .clearListeners =>
      some (if res = 0 then { s with listening := false }.ret res else s.cleanup b res)
  | .ntpDeinit =>
      some (if res = 0 then
        { s with ntp := false, listening := false, own := { s.own with ntp := false } }.goto
          .lockDelete
      else s.goto .lockDelete)
  | .lockDelete => some ((s.deleteLock res).goto .flagsDelete)
  | .flagsDelete =>
      let t := s.deleteFlags res
      some (if s.initialising then t.ret s.res else t.goto .idle)

/-! ## The callbacks -/

/-- `network_state_callback` is called, and acquires the lock. -/
def networkStateCallback (up : Bool) (res : ℤ) : Platform :=
  if s.lock = .live ∧ res = 0 then
    if up ≠ s.networkUp then { s with networkUp := up, callback := .set, held := true }
    else { s with callback := .release, held := true }
  else s.use s.lock

/-- Its next call answers. -/
def callbackAdvance (res : ℤ) : Option Platform :=
  match s.callback with
  | .idle => none
  | .set =>
      some (if s.flags = .live ∧ 0 ≤ res then { s with change := true, callback := .release }
        else { s.use s.flags with callback := .release })
  | .release => some { s with callback := .idle, held := false }

def ntpListenerCallback (res : ℤ) : Platform :=
  if s.flags = .live ∧ 0 ≤ res then { s with time := true } else s.use s.flags

inductive Action where
  | init -- `platform_init`
  | deinit -- `platform_deinit`
  | main (res : ℤ) -- the call at which they stand answers
  | network (up : Bool) (res : ℤ) -- the network task calls `network_state_callback`
  | callback (res : ℤ)
  | listener (res : ℤ) -- the NTP client calls `ntp_listener_callback`
  deriving DecidableEq

def step (s : Platform) : Action → Option Platform
  | .init => if s.pc = .idle then some s.platformInit else none
  | .deinit => if s.pc = .idle then some (s.platformDeinit b) else none
  | .main res => s.advance b res
  | .network up res =>
      if s.started = true ∧ s.callback = .idle then some (s.networkStateCallback up res) else none
  | .callback res => s.callbackAdvance res
  | .listener res => if s.listening = true then some (s.ntpListenerCallback res) else none

end Platform

end OpenIotSdk.Azure
