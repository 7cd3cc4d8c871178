import OpenIotSdk.Model.Aws.NetworkManager
import OpenIotSdk.Model.Cmsis.EventFlags

/-! # The AWS client example

`main.c` of `aws-client`: `app_task` and `mqtt_background_process` on two threads, and
`network_event_callback` on a third one. What the MQTT library, the stack and the kernel answer
are arguments of the steps. -/

namespace OpenIotSdk.Aws.Client

open Cmsis

/-- A packet identifier of MQTT is not 0: `MQTT_GetPacketId` gives no other one, and
`MQTT_ProcessLoop` rejects a PUBACK with another one. -/
abbrev PacketId := { id : BitVec 16 // id ≠ 0 }

/-- `EVENT_TERMINATE_MQTT_THREAD`, `EVENT_MQTT_THREAD_TERMINATING` and
`EVENT_MQTT_THREAD_ACK_RECEIVED`, as positions. -/
def terminateMqttThread : ℕ := 0
def mqttThreadTerminating : ℕ := 1
def mqttThreadAckReceived : ℕ := 2

/-- `net_event_t` in a message. -/
inductive NetEvent where
  | networkUp
  | networkDown
  deriving DecidableEq

/-- What `app_task` calls next. -/
inductive AppPc where
  | messageQueueGet
  | mqttInit
  | networkConnect
  | closeUnconnected -- `AwsNetwork_close` after a connection that failed
  | eventFlagsNew
  | threadNew
  | getPacketId
  | publish
  | waitAck
  | setTerminate
  | waitTerminating
  | threadTerminate
  | disconnect
  | close
  | returned (finished : Bool)
  deriving DecidableEq

/-- What `mqtt_background_process` calls next. -/
inductive BackgroundPc where
  | none -- there is no thread yet
  | eventFlagsGet
  | processLoop -- `MQTT_ProcessLoop`, from its call to its return
  | puback (id : PacketId) -- `mqtt_event_cb` within it: the comparison of the identifiers
  | setAck -- `mqtt_event_cb`: `osEventFlagsSet`
  | setTerminating
  | delay -- `osDelay(osWaitForever)`
  | ended
  deriving DecidableEq

/-- What has happened. -/
inductive Event where
  | network (event : NetEvent) -- `network_event_callback`
  | connected
  | packetId (id : PacketId) -- `mqtt_packet_id` was assigned
  | publish -- `MQTT_Publish` was called
  | processLoop -- `MQTT_ProcessLoop` was called
  | puback (id : PacketId) -- the identifiers were compared
  | threadTerminated
  | disconnect -- `MQTT_Disconnect` was called
  | close -- `AwsNetwork_close` was called
  deriving DecidableEq

structure State where
  queue : List NetEvent -- `net_msg_queue`, the oldest message first
  app : AppPc
  background : BackgroundPc
  flags : Flags -- `mqtt_recv_thread_events`
  mqttPacketId : BitVec 16
  network : NetworkContext
  trace : List Event -- the latest event first

def init : State where
  queue := []
  app := .messageQueueGet
  background := .none
  flags := 0
  mqttPacketId := 0
  network := .initial
  trace := []

inductive Action where
  | networkEvent (event : NetEvent)
  | app -- `app_task` goes on where nothing is answered but by its own data
  | mqttInit (ok : Bool)
  | networkConnect (retries : ℕ) (tls : TlsAnswers) (answers : ℕ → Answers)
  | eventFlagsNew (ok : Bool)
  | threadNew (ok : Bool)
  | getPacketId (id : PacketId)
  | publish (ok : Bool)
  | threadTerminate (ok : Bool)
  | disconnect (ok : Bool)
  | background -- `mqtt_background_process` goes on
  | packet (puback : Option PacketId) -- `MQTT_ProcessLoop` calls `mqtt_event_cb`
  | processed -- `MQTT_ProcessLoop` returns, with any status
  | delayed -- `osDelay` returns, and so does the thread

namespace State

variable (s : State)

def emit (event : Event) : State := { s with trace := event :: s.trace }

def goto (app : AppPc) : State := { s with app := app }

/-- `app_task` goes on to `app`, or returns. -/
def check (ok : Bool) (app : AppPc) : State := s.goto (if ok then app else .returned false)

/-- `network_event_callback`: a message for a full queue of 10 is lost. -/
def networkEventCallback (event : NetEvent) : State :=
  let s := s.emit (.network event)
  if s.queue.length < 10 then { s with queue := s.queue ++ [event] } else s

/-- `app_task`, where it only depends on the queue, the flags and the network. -/
def advanceApp : Option State :=
  match s.app with
  | .messageQueueGet =>
      match s.queue with
      | [] => some s
      | .networkUp :: queue => some ({ s with queue := queue }.goto .mqttInit)
      | .networkDown :: queue => some { s with queue := queue }
  | .closeUnconnected =>
      some (({ s with network := s.network.close }.emit .close).goto (.returned false))
  | .waitAck =>
      (osEventFlagsWait s.flags mqttThreadAckReceived).map fun (flags, previous) =>
        { s with flags := flags }.check (!isOsFlagsError previous) .setTerminate
  | .setTerminate =>
      let flags := osEventFlagsSet s.flags (bitMask terminateMqttThread)
      some ({ s with flags := flags }.check (!isOsFlagsError flags) .waitTerminating)
  | .waitTerminating =>
      (osEventFlagsWait s.flags mqttThreadTerminating).map fun (flags, previous) =>
        { s with flags := flags }.check (!isOsFlagsError previous) .threadTerminate
  | .close =>
      some (({ s with network := s.network.close }.emit .close).goto (.returned true))
  | _ => none

/-- `AwsNetwork_init` and `AwsNetwork_connect`. -/
def networkConnect (retries : ℕ) (tls : TlsAnswers) (answers : ℕ → Answers) : State :=
  let (network, res) := s.network.init.connect true retries tls answers
  if res ≠ 0 then { s with network := network }.goto .closeUnconnected
  else ({ s with network := network }.emit .connected).goto .eventFlagsNew

/-- `osThreadNew`. -/
def threadNew (ok : Bool) : State :=
  if ok then { s with background := .eventFlagsGet }.goto .getPacketId
  else s.goto (.returned false)

/-- `osThreadTerminate`; a thread that has ended cannot be terminated. -/
def threadTerminate (ok : Bool) : State :=
  if s.background ≠ .ended ∧ ok = true then
    ({ s with background := .ended }.emit .threadTerminated).goto .disconnect
  else s.goto (.returned false)

/-- `mqtt_background_process`, and `mqtt_event_cb` for a PUBACK. -/
def advanceBackground : Option State :=
  match s.background with
  | .eventFlagsGet =>
      if isBitSet s.flags terminateMqttThread then some { s with background := .setTerminating }
      else some ({ s with background := .processLoop }.emit .processLoop)
  | .puback id =>
      some ({ s with
        background := if s.mqttPacketId = id then .setAck else .processLoop }.emit (.puback id))
  | .setAck =>
      some { s with
        background := .processLoop
        flags := osEventFlagsSet s.flags (bitMask mqttThreadAckReceived) }
  | .setTerminating =>
      some { s with
        background := .delay
        flags := osEventFlagsSet s.flags (bitMask mqttThreadTerminating) }
  | _ => none

end State

def step (s : State) (a : Action) : Option State :=
  match a with
  | .networkEvent event => some (s.networkEventCallback event)
  | .app => s.advanceApp
  | .mqttInit ok => if s.app = .mqttInit then some (s.check ok .networkConnect) else none
  | .networkConnect retries tls answers =>
      if s.app = .networkConnect then some (s.networkConnect retries tls answers) else none
  | .eventFlagsNew ok => if s.app = .eventFlagsNew then some (s.check ok .threadNew) else none
  | .threadNew ok => if s.app = .threadNew then some (s.threadNew ok) else none
  | .getPacketId id =>
      if s.app = .getPacketId then
        some (({ s with mqttPacketId := id }.emit (.packetId id)).goto .publish)
      else none
  | .publish ok => if s.app = .publish then some ((s.emit .publish).check ok .waitAck) else none
  | .threadTerminate ok =>
      if s.app = .threadTerminate then some (s.threadTerminate ok) else none
  | .disconnect ok =>
      if s.app = .disconnect then some ((s.emit .disconnect).check ok .close) else none
  | .background => s.advanceBackground
  | .packet puback =>
      if s.background = .processLoop then
        some (match puback with
          | some id => { s with background := .puback id }
          | none => s)
      else none
  | .processed =>
      if s.background = .processLoop then some { s with background := .eventFlagsGet } else none
  | .delayed => if s.background = .delay then some { s with background := .ended } else none

end OpenIotSdk.Aws.Client
