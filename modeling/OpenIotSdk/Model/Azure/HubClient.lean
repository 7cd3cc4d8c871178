import Mathlib.Data.BitVec

/-! # The IoT hub client example

`sample_entry` of `azure-netxduo-iot` with `sample_connection_monitor` on the application thread,
the two sample threads, and `on_connection_status_update` on the thread of the hub client. What the
hub client and the stack answer are arguments of the steps. -/

namespace OpenIotSdk.HubClient

/-- A status, as far as the example tells them apart. -/
inductive Status where
  | success
  | notInitialized
  | dnsQueryFailed
  | badUsernamePassword
  | notAuthorized
  | sasTokenExpired
  | other (code : BitVec 32)
  deriving DecidableEq

/-- The calls of `initialize_iothub`. -/
inductive InitCall where
  | clientInit -- `nx_azure_iot_hub_client_initialize`
  | trustedCertAdd2
  | trustedCertAdd3
  | symmetricKeySet
  | connectionStatusCallbackSet
  | cloudMessageEnable
  | clientDeinit -- `nx_azure_iot_hub_client_deinitialize`, at its end after a failure
  deriving DecidableEq

/-- The next call after a success, if there is one. -/
def InitCall.next : InitCall → Option InitCall
  | .clientInit => some .trustedCertAdd2
  | .trustedCertAdd2 => some .trustedCertAdd3
  | .trustedCertAdd3 => some .symmetricKeySet
  | .symmetricKeySet => some .connectionStatusCallbackSet
  | .connectionStatusCallbackSet => some .cloudMessageEnable
  | .cloudMessageEnable | .clientDeinit => none

/-- What the application thread calls next. -/
inductive Pc where
  | initializeIothub (first : Bool) (call : InitCall) -- first by `sample_entry`
  | firstConnect -- `nx_azure_iot_hub_client_connect` in `sample_entry`
  | monitor -- `sample_connection_monitor`
  | disconnect (status : Status)
  | deinit -- `nx_azure_iot_hub_client_deinitialize`
  | reinit -- the look at `iothub_init_count`, and the sleep
  | backoff -- the sleep before it reconnects
  | gateway -- `nx_ip_gateway_address_get`
  | connect
  | sleep -- after `sample_connection_monitor` has returned
  deriving DecidableEq

/-- What `telemetry_thread_entry` calls next. -/
inductive TelemetryPc where
  | look -- at `i` and at `sample_connection_status`
  | messageCreate
  | propertyAdd (index : ℕ)
  | messageDelete
  | send
  | ended
  deriving DecidableEq

/-- What `cloud_to_device_thread_entry` calls next. -/
inductive CloudPc where
  | look -- at `sample_connection_status`
  | messageReceive
  | propertyGet
  | packetRelease
  deriving DecidableEq

/-- `SAMPLE_MAX_EXPONENTIAL_BACKOFF_IN_SEC` and `SAMPLE_INITIAL_EXPONENTIAL_BACKOFF_IN_SEC`. -/
def maxExponentialBackoffInSec : BitVec 32 := 600
def initialExponentialBackoffInSec : BitVec 32 := 3

/-- `MAX_PROPERTY_COUNT`. -/
def maxPropertyCount : ℕ := 2

/-- The text of a telemetry message, as `snprintf` formats it. -/
def telemetryText (i : ℕ) : String := "\x7b\"Message ID\":" ++ toString i ++ "\x7d"

/-- The sample threads. -/
structure Samples where
  telemetry : TelemetryPc
  messageId : BitVec 32 -- `i` of the telemetry thread
  cloud : CloudPc
  created : ℕ -- the telemetry messages that were created, deleted and sent
  deleted : ℕ
  sent : List String
  tried : List String -- what was given to `nx_azure_iot_hub_client_telemetry_send`
  received : ℕ -- the cloud messages that were received and released
  released : ℕ

structure State where
  pc : Pc
  initialized : Bool -- `iothub_client`, between its initialisation and its deinitialisation
  sampleConnectionStatus : Status
  exponentialRetryCount : BitVec 32
  iothubInitCount : BitVec 32
  waits : List ℕ -- the delays since the last reset in seconds, but for the jitter
  threads : Bool -- the sample threads have been created
  samples : Samples

def init : State where
  pc := .initializeIothub true .clientInit
  initialized := false
  sampleConnectionStatus := .notInitialized
  exponentialRetryCount := 0
  iothubInitCount := 0
  waits := []
  threads := false
  samples :=
    { telemetry := .look
      messageId := 0
      cloud := .look
      created := 0
      deleted := 0
      sent := []
      tried := []
      received := 0
      released := 0 }

/-- What the called function answers is given with the step of a thread. -/
inductive Action where
  | application (answer : Status)
  | telemetry (answer : Status)
  | cloud (answer : Status)
  | callback (status : Status) -- `on_connection_status_update`

/-- `base_delay` of `exponential_backoff_with_jitter` before it is compared with the maximum. -/
def backoffDelay (count : BitVec 32) : BitVec 32 :=
  if count.toNat < 32 then
    -- The product is an `int`.
    let delay : BitVec 64 := ((1#32 <<< count) * initialExponentialBackoffInSec).signExtend 64
    if delay.toNat < 2 ^ 32 then delay.setWidth 32 else maxExponentialBackoffInSec
  else maxExponentialBackoffInSec

namespace State

variable (s : State)

def goto (pc : Pc) : State := { s with pc := pc }

/-- `exponential_backoff_with_jitter`, but for the jitter, and the sleep. -/
def exponentialBackoff : State :=
  let delay := backoffDelay s.exponentialRetryCount
  if maxExponentialBackoffInSec < delay then
    { s with waits := s.waits ++ [maxExponentialBackoffInSec.toNat] }
  else
    { s with
      waits := s.waits ++ [delay.toNat]
      exponentialRetryCount := s.exponentialRetryCount + 1 }

/-- `exponential_backoff_reset`. -/
def exponentialBackoffReset : State := { s with exponentialRetryCount := 0, waits := [] }

/-- The loop of `sample_connection_monitor`, from its head to the next call. -/
def recover (status : Status) : State :=
  match status with
  | .success => s.goto .sleep
  | .dnsQueryFailed | .badUsernamePassword | .notAuthorized => s.goto .deinit
  | .notInitialized => s.goto .reinit
  | .sasTokenExpired | .other _ => s.goto .backoff

/-- `sample_connection_monitor` up to its loop. -/
def connectionMonitor : State :=
  match s.sampleConnectionStatus with
  | .success => s.exponentialBackoffReset.goto .sleep
  | .notInitialized => s.recover .notInitialized
  | status => s.goto (.disconnect status)

/-- `initialize_iothub` returns. -/
def initReturns (first ok : Bool) : State :=
  match first, ok with
  | true, true => s.goto .firstConnect
  | true, false => { s with sampleConnectionStatus := .notInitialized }.goto .firstConnect
  | false, true => s.goto .gateway
  | false, false => s.recover .notInitialized

/-- A call of `initialize_iothub`. -/
def initializeIothub (first : Bool) (call : InitCall) (answer : Status) : State :=
  match call with
  | .clientDeinit => { s with initialized := false }.initReturns first false
  | .clientInit =>
      if answer = .success then
        { s with initialized := true }.goto (.initializeIothub first .trustedCertAdd2)
      else s.initReturns first false
  | call =>
      if answer = .success then
        match call.next with
        | some next => s.goto (.initializeIothub first next)
        | none => s.initReturns first true
      else s.goto (.initializeIothub first .clientDeinit)

/-- `sample_entry` and `sample_connection_monitor`. -/
def application (answer : Status) : State :=
  match s.pc with
  | .initializeIothub first call => s.initializeIothub first call answer
  | .firstConnect => { s with sampleConnectionStatus := answer, threads := true }.goto .monitor
  | .monitor => s.connectionMonitor
  | .disconnect status => s.recover status
  | .deinit => { s with initialized := false }.goto .reinit
  | .reinit =>
      let t := { s with iothubInitCount := s.iothubInitCount + 1 }
      (if s.iothubInitCount ≠ 0 then t.exponentialBackoff else t).goto
        (.initializeIothub false .clientInit)
  | .backoff => s.exponentialBackoff.goto .gateway
  | .gateway => if answer = .success then s.goto .connect else s
  | .connect => s.recover answer
  | .sleep => s.goto .monitor

end State

namespace Samples

variable (s : Samples)

/-- `telemetry_thread_entry`. -/
def telemetryThread (status answer : Status) : Option Samples :=
  match s.telemetry with
  | .look =>
      some (if s.messageId < 6 then
        if status = .success then { s with telemetry := .messageCreate } else s
      else { s with telemetry := .ended })
  | .messageCreate =>
      some (if answer = .success then
        { s with telemetry := .propertyAdd 0, created := s.created + 1 }
      else { s with telemetry := .look })
  | .propertyAdd index =>
      some { s with
        telemetry :=
          if answer = .success then
            if index + 1 < maxPropertyCount then .propertyAdd (index + 1) else .send
          else .messageDelete }
  | .messageDelete => some { s with telemetry := .look, deleted := s.deleted + 1 }
  | .send =>
      let text := telemetryText s.messageId.toNat
      let t := { s with messageId := s.messageId + 1, tried := s.tried ++ [text] }
      some (if answer = .success then { t with telemetry := .look, sent := t.sent ++ [text] }
      else { t with telemetry := .messageDelete })
  | .ended => none

/-- `cloud_to_device_thread_entry`. -/
def cloudToDeviceThread (status answer : Status) : Samples :=
  match s.cloud with
  | .look => if status = .success then { s with cloud := .messageReceive } else s
  | .messageReceive =>
      if answer = .success then { s with cloud := .propertyGet, received := s.received + 1 }
      else { s with cloud := .look }
  | .propertyGet => { s with cloud := .packetRelease }
  | .packetRelease => { s with cloud := .look, released := s.released + 1 }

end Samples

def step (s : State) : Action → Option State
  | .application answer => some (s.application answer)
  | .telemetry answer =>
      if s.threads then
        (s.samples.telemetryThread s.sampleConnectionStatus answer).map fun samples =>
          { s with samples := samples }
      else none
  | .cloud answer =>
      if s.threads then
        some { s with
          samples := s.samples.cloudToDeviceThread s.sampleConnectionStatus answer }
      else none
  | .callback status => some { s with sampleConnectionStatus := status }

end OpenIotSdk.HubClient
