import OpenIotSdk.Model.IotSocket

/-! # The lwIP example

`app_task` of `cmsis-lwip`, which sends to a socket of its own, with `socket_receive_task` and
`network_event_callback`. What the stack and the kernel answer are arguments of the steps. -/

namespace OpenIotSdk.CmsisLwip

/-- `net_msg_t`, with the return code where it has one. -/
inductive NetMsg where
  | networkUp
  | networkDown
  | dataReceived (returnCode : ℤ)
  deriving DecidableEq

/-- What `iotSocketClose` answers for an open socket. -/
abbrev CloseAnswer := { rc : ℤ // rc ≤ 0 ∧ rc ≠ iotSocketEsock }

/-- Where `app_task` stands in its loop. -/
inductive Pc where
  | get -- `osMessageQueueGet`
  | closeSend -- `NET_EVENT_NETWORK_DOWN`: `send_socket_id = iotSocketClose(send_socket_id)`
  | closeRecv -- `recv_socket_id = iotSocketClose(recv_socket_id)`
  | terminate -- `osThreadTerminate(recv_thread)`
  | send -- behind the `switch`: `iotSocketSendTo`
  deriving DecidableEq

structure State where
  stack : Stack -- with the sockets of the example
  queue : List NetMsg -- `net_msg_queue`, the oldest message first
  pc : Pc
  sendSocketId : ℤ
  recvSocketId : ℤ
  recvThread : Bool -- `socket_receive_task` runs
  recvTaskId : Option ℤ -- the id that it has read
  receiving : Bool -- it is in `iotSocketRecv`
  err : ℤ -- of `app_task`
  sendSocket : Option ℤ -- the socket that was created to send, until it is closed
  recvSocket : Option ℤ -- the one that was created to receive
  lost : Bool -- the network has gone down under the sockets, or they could not be set up

def init : State where
  stack := .empty
  queue := []
  pc := .get
  sendSocketId := iotSocketEsock
  recvSocketId := iotSocketEsock
  recvThread := false
  recvTaskId := none
  receiving := false
  err := 0
  sendSocket := none
  recvSocket := none
  lost := false

/-- What is answered while the network goes up. -/
structure UpAnswers where
  createSend : ℤ
  createRecv : ℤ
  bind : ℤ
  threadNew : Bool
  closeSend : CloseAnswer
  closeRecv : CloseAnswer

inductive Action where
  | network (up : Bool) -- `network_event_callback`
  | timeout -- no message comes
  | up (answers : UpAnswers) -- the next message is handled
  | down -- the next message: the sockets are to be closed, if they were created
  | closeSend (answer : CloseAnswer)
  | closeRecv (answer : CloseAnswer)
  | terminate
  | dataReceived -- the next message
  | sendTo (reply : ℤ)
  | recvTask -- `socket_receive_task` reads its argument
  | recvCall -- it calls `iotSocketRecv`
  | recvReturn (reply : ℤ) -- which returns, whatever has become of the socket

namespace State

variable (s : State)

/-- `osMessageQueuePut` without a timeout: a message for a full queue of 10 is lost. -/
def put (msg : NetMsg) : State :=
  if s.queue.length < 10 then { s with queue := s.queue ++ [msg] } else s

/-- `id = iotSocketClose(id)`. -/
def close (id : ℤ) (answer : CloseAnswer) : State × ℤ :=
  let rc := s.stack.answer id answer.val
  ({ s with
      stack := s.stack.iotSocketClose id answer.val
      sendSocket := if rc = 0 ∧ s.sendSocket = some id then none else s.sendSocket
      recvSocket := if rc = 0 ∧ s.recvSocket = some id then none else s.recvSocket }, rc)

/-- Both sockets are created. -/
def createSockets (a : UpAnswers) : State :=
  let sendId := s.stack.created a.createSend
  let stack := s.stack.iotSocketCreate a.createSend
  let recvId := stack.created a.createRecv
  { s with
    stack := stack.iotSocketCreate a.createRecv
    sendSocketId := sendId
    recvSocketId := recvId
    sendSocket := if 0 ≤ sendId then some sendId else s.sendSocket
    recvSocket := if 0 ≤ recvId then some recvId else s.recvSocket
    err := if sendId < 0 ∨ recvId < 0 then iotSocketError else s.err }

/-- The receiving socket is bound, unless there was an error. -/
def bindSocket (a : UpAnswers) : State :=
  if s.err = 0 then { s with err := s.stack.answer s.recvSocketId a.bind } else s

/-- The receive task is created, unless there was an error. -/
def newThread (a : UpAnswers) : State :=
  if s.err = 0 then
    { s with
      recvThread := a.threadNew
      recvTaskId := none
      receiving := false
      err := if a.threadNew then 0 else iotSocketError }
  else s

/-- The cleanup of a socket whose id is not 0. -/
def cleanup (id : ℤ) (answer : CloseAnswer) : State × ℤ :=
  if id ≠ 0 then
    let (s, rc) := s.close id answer
    (s, if rc = 0 then iotSocketEsock else rc)
  else (s, id)

/-- The cleanup of both sockets. -/
def cleanupSockets (a : UpAnswers) : State :=
  let (s, sendId) := s.cleanup s.sendSocketId a.closeSend
  let (s, recvId) := s.cleanup s.recvSocketId a.closeRecv
  { s with sendSocketId := sendId, recvSocketId := recvId, lost := true }

/-- `NET_EVENT_NETWORK_UP`. No receive task runs until the last step, which creates it. -/
def networkUp (a : UpAnswers) : State :=
  if s.sendSocketId ≠ iotSocketEsock then s
  else
    let s := ((s.createSockets a).bindSocket a).newThread a
    if s.err ≠ 0 then s.cleanupSockets a else s

/-- `app_task` has handled what it took from the queue, and sends if its socket exists. -/
def handled : State := { s with pc := .send }

/-- `NET_EVENT_NETWORK_DOWN`. -/
def networkDown : State := if 0 ≤ s.sendSocketId then { s with pc := .closeSend } else s.handled

/-- The first socket is closed. -/
def closeSend (answer : CloseAnswer) : State :=
  let (s, sendId) := s.close s.sendSocketId answer
  { s with sendSocketId := sendId, pc := .closeRecv }

/-- The second socket is closed. -/
def closeRecv (answer : CloseAnswer) : State :=
  let (s, recvId) := s.close s.recvSocketId answer
  { s with recvSocketId := recvId, pc := .terminate }

/-- The receive task, if there is one, is terminated wherever it is. -/
def terminate : State :=
  { s with recvThread := false, recvTaskId := none, receiving := false, lost := true }

/-- The end of the loop. -/
def sendTo (reply : ℤ) : State :=
  let s := { s with pc := .get }
  if 0 ≤ s.sendSocketId then { s with err := s.stack.answer s.sendSocketId reply } else s

end State

def step (s : State) : Action → Option State
  | .network up => some (s.put (if up then .networkUp else .networkDown))
  | .timeout => if s.pc = .get then some s.handled else none
  | .up answers =>
      match s.queue with
      | .networkUp :: queue =>
          if s.pc = .get then some ({ s with queue := queue }.networkUp answers).handled else none
      | _ => none
  | .down =>
      match s.queue with
      | .networkDown :: queue =>
          if s.pc = .get then some { s with queue := queue }.networkDown else none
      | _ => none
  | .closeSend answer => if s.pc = .closeSend then some (s.closeSend answer) else none
  | .closeRecv answer => if s.pc = .closeRecv then some (s.closeRecv answer) else none
  | .terminate => if s.pc = .terminate then some s.terminate.handled else none
  | .dataReceived =>
      match s.queue with
      | .dataReceived _ :: queue =>
          if s.pc = .get then some { s with queue := queue }.handled else none
      | _ => none
  | .sendTo reply => if s.pc = .send then some (s.sendTo reply) else none
  | .recvTask =>
      if s.recvThread = true ∧ s.recvTaskId = none then
        some { s with recvTaskId := some s.recvSocketId }
      else none
  | .recvCall =>
      if s.recvThread = true ∧ s.recvTaskId ≠ none ∧ s.receiving = false then
        some { s with receiving := true }
      else none
  | .recvReturn reply =>
      if s.recvThread = true ∧ s.receiving = true then
        some ({ s with receiving := false, recvThread := decide (0 ≤ reply) }.put
          (.dataReceived reply))
      else none

end OpenIotSdk.CmsisLwip
