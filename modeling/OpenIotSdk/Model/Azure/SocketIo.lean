import OpenIotSdk.Model.IotSocket
import Mathlib.Data.List.Basic
import Mathlib.Logic.Function.Basic

/-! # The socket adapter of the Azure SDK

`socketio_openiot.c` and the calls it makes in `tcpsocketconnection_openiot.c`, for
`socketio_send` and `socketio_dowork` on one instance. Each statement that calls the stack
is one step, and a callback may call `socketio_send`. -/

namespace OpenIotSdk.SocketIo

/-- The documented behaviour of `singlylinkedlist`: items are added at the end, and the
adapter removes the head item. -/
structure SinglyLinkedList (α : Type) where
  Handle : Type
  items : Handle → List α
  create : Handle
  add : Handle → α → Handle
  headItem : Handle → Option α
  removeHead : Handle → Handle
  items_create : items create = []
  items_add : ∀ list a, items (add list a) = items list ++ [a]
  headItem_eq : ∀ list, headItem list = (items list).head?
  items_removeHead : ∀ list, items (removeHead list) = (items list).tail

/-- `IO_STATE`. -/
inductive IoState where
  | closed
  | opening
  | open
  | closing
  | error
  deriving DecidableEq

/-- `PENDING_SOCKET_IO`, with what was queued and how much of it the socket accepted. -/
structure PendingSocketIo (β : Type) where
  bytes : List β -- the block at `bytes`
  size : ℕ
  onSendComplete : Option ℕ -- the context of `on_send_complete`, if that is not null
  queued : List β
  taken : ℕ

/-- A callback of the application. -/
inductive Event (β : Type) where
  | sendComplete (context : ℕ) (ok : Bool)
  | bytesReceived (data : List β)
  | ioError

/-- Where `socketio_dowork` is. -/
inductive Pc where
  | idle -- outside
  | loop -- `send_queued_data`: the body of the loop
  | remove -- `send_queued_data`: `singlylinkedlist_remove`
  | receive -- `retrieve_data`: the body of the loop
  deriving DecidableEq

variable {api : SinglyLinkedList ℕ} {β : Type}

structure State (api : SinglyLinkedList ℕ) (β : Type) where
  ioState : IoState -- `io_state`
  connection : Bool -- `tcp_socket_connection != NULL`
  isConnected : Bool -- `isConnected` of the one `openiot_tcp_socket`
  pendingIoList : api.Handle -- `pending_io_list`, whose items are addresses of entries
  heap : ℕ → Option (PendingSocketIo β) -- the entries that are allocated
  onBytesReceived : Bool -- `on_bytes_received != NULL`
  onIoError : Bool -- `on_io_error != NULL`
  pc : Pc
  events : List (Event β)
  accepted : List β -- the bytes that the socket accepted, in order
  queued : List β -- the buffers that were queued, in order
  short : ℕ -- entries freed before all of their bytes were accepted

/-- An instance that has just been opened. -/
def init (api : SinglyLinkedList ℕ) (β : Type) (onBytesReceived onIoError : Bool) :
    State api β where
  ioState := .open
  connection := true
  isConnected := true
  pendingIoList := api.create
  heap := fun _ => none
  onBytesReceived := onBytesReceived
  onIoError := onIoError
  pc := .idle
  events := []
  accepted := []
  queued := []
  short := 0

inductive Action (β : Type) where
  /-- `socketio_send`; without an `entry`, an allocation or `singlylinkedlist_add` fails. -/
  | send (buffer : Option (List β)) (onSendComplete : Option ℕ) (entry : Option ℕ)
  | dowork
  | sendNext (reply : ℤ) -- one round of `send_queued_data`, with the answer of the stack
  | remove (removed : Bool)
  /-- One round of `retrieve_data`: bytes, none when the peer has closed, or an error. -/
  | receive (reply : Except ℤ (List β))

namespace State

def goto (s : State api β) (pc : Pc) : State api β := { s with pc := pc }

def setEntry (s : State api β) (p : ℕ) (e : Option (PendingSocketIo β)) : State api β :=
  { s with heap := Function.update s.heap p e }

/-- A call of `on_send_complete`. -/
def sendComplete (s : State api β) (callback : Option ℕ) (ok : Bool) : State api β :=
  match callback with
  | some context => { s with events := s.events ++ [.sendComplete context ok] }
  | none => s

/-- `indicate_error`. -/
def indicateError (s : State api β) : State api β :=
  if s.ioState = .closed ∨ s.ioState = .error then s
  else if s.onIoError then { s with ioState := .error, events := s.events ++ [.ioError] }
  else { s with ioState := .error }

/-- `tcpsocketconnection_send`. -/
def tcpsocketconnectionSend (s : State api β) (reply length : ℤ) : ℤ :=
  if s.connection = false then -1
  else if s.isConnected = false then -1
  else iotSocketSend reply (length % 2 ^ 32).toNat

/-- `tcpsocketconnection_receive`. -/
def tcpsocketconnectionReceive (s : State api β) (reply : Except ℤ (List β)) :
    Except ℤ (List β) :=
  if s.connection = false then .error (-1)
  else if s.isConnected = false then .error (-1)
  else reply

/-- `add_pending_io`. -/
def addPendingIo (s : State api β) (buffer : List β) (onSendComplete : Option ℕ) (p : ℕ) :
    State api β :=
  { s.setEntry p (some ⟨buffer, buffer.length, onSendComplete, buffer, 0⟩) with
    pendingIoList := api.add s.pendingIoList p
    queued := s.queued ++ buffer }

/-- `socketio_send`. -/
def socketioSend (s : State api β) (buffer : Option (List β)) (onSendComplete : Option ℕ)
    (entry : Option ℕ) : State api β :=
  match buffer, entry with
  | some buffer, some p =>
      if buffer.length = 0 ∨ s.ioState ≠ .open then s.sendComplete onSendComplete false
      else (s.addPendingIo buffer onSendComplete p).sendComplete onSendComplete true
  | _, _ => s.sendComplete onSendComplete false

/-- The head entry after `memmove(bytes, bytes + send_result, size - send_result)`; its size
stays as it is. -/
def moved (e : PendingSocketIo β) (sendResult : ℕ) : PendingSocketIo β :=
  { e with bytes := e.bytes.drop sendResult ++ e.bytes.drop (e.size - sendResult) }

/-- The callback and the frees for an entry that is complete. -/
def complete (s : State api β) (p : ℕ) (e : PendingSocketIo β) : State api β :=
  { (s.setEntry p none).sendComplete e.onSendComplete true with
    short := s.short + if e.taken = e.queued.length then 0 else 1
    pc := .remove }

/-- One round of `send_queued_data`. The value of an item is never null, and an entry that
was freed is not read. -/
def sendNext (s : State api β) (reply : ℤ) : Option (State api β) :=
  match api.headItem s.pendingIoList with
  | none => some (s.goto .receive)
  | some p => (s.heap p).map fun e =>
      let sendResult := s.tcpsocketconnectionSend reply (toInt32 e.size)
      let s := { s with accepted := s.accepted ++ e.bytes.take sendResult.toNat }
      let e := { e with taken := e.taken + sendResult.toNat }
      if sendResult = toInt32 e.size then s.complete p e
      else if sendResult < 0 then s.indicateError.goto .receive
      else s.setEntry p (some (moved e sendResult.toNat)) |>.goto .loop

/-- `singlylinkedlist_remove` on the entry that was freed. -/
def remove (s : State api β) (removed : Bool) : State api β :=
  if removed then { s with pendingIoList := api.removeHead s.pendingIoList, pc := .loop }
  else s.indicateError.goto .receive

/-- One round of `retrieve_data`. -/
def receive (s : State api β) (reply : Except ℤ (List β)) : State api β :=
  match s.tcpsocketconnectionReceive reply with
  | .ok [] => s.indicateError.goto .idle
  | .ok data =>
      { s with
        events := if s.onBytesReceived then s.events ++ [.bytesReceived data] else s.events
        pc := if s.ioState = .open then .receive else .idle }
  | .error code => if code = iotSocketEagain then s.goto .idle else s.indicateError.goto .idle

/-- `malloc` returns an address that is not in use. -/
def fresh (s : State api β) : Option ℕ → Bool
  | none => true
  | some p => (s.heap p).isNone && decide (p ∉ api.items s.pendingIoList)

end State

/-- One step. `socketio_send` is called outside `socketio_dowork` or by a callback in it. -/
def step (s : State api β) (a : Action β) : Option (State api β) :=
  match a with
  | .send buffer onSendComplete entry =>
      if s.pc ≠ .loop ∧ s.fresh entry then some (s.socketioSend buffer onSendComplete entry)
      else none
  | .dowork =>
      if s.pc = .idle then some (s.goto (if s.ioState = .open then .loop else .idle)) else none
  | .sendNext reply => if s.pc = .loop then s.sendNext reply else none
  | .remove removed => if s.pc = .remove then some (s.remove removed) else none
  | .receive reply => if s.pc = .receive then some (s.receive reply) else none

end OpenIotSdk.SocketIo
