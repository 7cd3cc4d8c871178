import OpenIotSdk.Library.Family
import OpenIotSdk.Model.Azure.SocketIo
import OpenIotSdk.Model.Azure.TcpSocketConnection

/-! # Instances of the socket adapter

The other functions of `socketio_openiot.c`, and any number of instances over the one record
of `tcpsocketconnection_openiot.c`. Calls on the instances interleave in any way; callbacks
may call `socketio_send` and `socketio_close`. -/

namespace OpenIotSdk.SocketIo

variable {api : SinglyLinkedList ℕ} {β : Type}

abbrev Tcp := TcpSocketConnection.State

/-- What happens to one instance. Calls of `socketio_send` are numbered. -/
inductive Item (β : Type) where
  | called (call : ℕ) -- `socketio_send` with a callback
  | queued (call : Option ℕ) (bytes : List β) -- `add_pending_io`
  | sent (socket : ℤ) (call : Option ℕ) (bytes : List β) (result : ℤ) -- `iotSocketSend`
  | received (socket : ℤ) (reply : Except ℤ (List β)) -- `iotSocketRecv`
  | callback (event : Event β)
  | opened (socket : ℤ) -- a successful `socketio_open`
  | dropped -- `tcp_socket_connection` became null

/-- One instance and its past. -/
structure Instance (api : SinglyLinkedList ℕ) (β : Type) where
  handle : Option (State api β) -- the instance, while it is allocated
  test : Bool -- `retrieve_data` is at the test of its loop
  calls : ℕ -- how often `socketio_send` was called
  history : List (Item β) -- newest first

def Instance.init (api : SinglyLinkedList ℕ) (β : Type) : Instance api β := ⟨none, false, 0, []⟩

/-- The record, and the instances. -/
abbrev System (ι : Type) (api : SinglyLinkedList ℕ) (β : Type) := Tcp × (ι → Instance api β)

def System.init (ι : Type) (api : SinglyLinkedList ℕ) (β : Type) : System ι api β :=
  (TcpSocketConnection.init, fun _ => .init api β)

/-- The answers of the stack to the calls of `socketio_open`. -/
structure OpenReplies where
  created : ℤ -- to `iotSocketCreate`
  host : ℤ -- to `iotSocketGetHostByName`
  connected : ℤ -- to `iotSocketConnect`
  closed : ℤ -- to `iotSocketClose`

inductive Op (β : Type) where
  | create
  | open (replies : OpenReplies) (onBytesReceived onIoError : Bool)
  /-- The answers to `iotSocketClose` in `tcpsocketconnection_close` and in
  `tcpsocketconnection_destroy`. -/
  | close (closed destroyed : ℤ)
  | destroy (closed destroyed : ℤ)
  | send (buffer : Option (List β)) (callback : Bool) (entry : Option ℕ)
  | dowork
  | sendNext (reply : ℤ)
  | remove (removed : Bool)
  | receive (reply : Except ℤ (List β))

/-! ## Opening and closing -/

/-- `socketio_create`. -/
def socketioCreate (api : SinglyLinkedList ℕ) (β : Type) : State api β where
  ioState := .closed
  connection := false
  isConnected := false
  pendingIoList := api.create
  heap := fun _ => none
  onBytesReceived := false
  onIoError := false
  pc := .idle
  events := []
  accepted := []
  queued := []
  short := 0

/-- What `socketio_open` leaves. -/
structure Opened (api : SinglyLinkedList ℕ) (β : Type) where
  ok : Bool -- the result is 0
  handle : Option (State api β)
  tcp : Tcp
  nullRead : Bool -- a field was read although the handle is null

/-- The label `exit` of `socketio_open` after a failure. -/
def State.openFailed (s : State api β) (tcp : Tcp) (closed : ℤ) : Opened api β :=
  if s.connection then
    ⟨false, some { s with connection := false }, tcp.destroy true closed, false⟩
  else ⟨false, some s, tcp, false⟩

/-- `socketio_open`; `tcpsocketconnection_set_blocking` changes no field. -/
def socketioOpen (handle : Option (State api β)) (tcp : Tcp) (replies : OpenReplies)
    (onBytesReceived onIoError : Bool) : Opened api β :=
  match handle with
  | none => ⟨false, none, tcp, true⟩ -- `exit` reads `tcp_socket_connection` all the same
  | some s =>
      if s.ioState ≠ .closed then s.openFailed tcp replies.closed
      else
        let created := tcp.create replies.created
        let s := { s with connection := tcp.creates replies.created }
        if s.connection = false then s.openFailed created replies.closed
        else
          let connected := created.connect true replies.host replies.connected
          if created.connects true replies.host replies.connected = false then
            s.openFailed connected replies.closed
          else
            let s := { s with
              onBytesReceived := onBytesReceived
              onIoError := onIoError
              ioState := .open }
            ⟨true, some s, connected, false⟩

/-- `close_tcp_connection`, for the instance. -/
def State.closeTcpConnection (s : State api β) : State api β :=
  if s.ioState ≠ .closed then { s with connection := false, ioState := .closed } else s

/-- `close_tcp_connection`, for the record. -/
def State.closeTcp (s : State api β) (tcp : Tcp) (closed destroyed : ℤ) : Tcp :=
  if s.ioState ≠ .closed ∧ s.connection = true then
    (tcp.close true closed).destroy true destroyed
  else tcp

/-! ## The calls of one step, newest first -/

namespace State

/-- `close_tcp_connection` gives up the connection. -/
def drops (s : State api β) : List (Item β) :=
  if s.ioState ≠ .closed ∧ s.connection = true then [.dropped] else []

/-- The connection that a failed `socketio_open` destroys, or the new one. -/
def opens (s : State api β) (o : Opened api β) : List (Item β) :=
  if o.ok then [.opened o.tcp.id] else if s.connection then [.dropped] else []

/-- The buffer that `socketio_send` puts in the list, if it does. -/
def queues (s : State api β) (buffer : Option (List β)) (entry : Option ℕ) : Option (List β) :=
  match buffer, entry with
  | some buffer, some _ => if buffer.length = 0 ∨ s.ioState ≠ .open then none else some buffer
  | _, _ => none

/-- The head entry of the list. -/
def headEntry (s : State api β) : Option (PendingSocketIo β) :=
  (api.headItem s.pendingIoList).bind s.heap

/-- `iotSocketSend` in a round of `send_queued_data`. -/
def sends (s : State api β) (socket reply : ℤ) : List (Item β) :=
  match s.headEntry with
  | some e =>
      if s.connection = true ∧ s.isConnected = true then
        [.sent socket e.onSendComplete (e.bytes.take (toInt32 e.size % 2 ^ 32).toNat)
          (s.tcpsocketconnectionSend reply (toInt32 e.size))]
      else []
  | none => []

/-- `iotSocketRecv` in a round of `retrieve_data`. -/
def receives (s : State api β) (socket : ℤ) (reply : Except ℤ (List β)) : List (Item β) :=
  if s.connection = true ∧ s.isConnected = true then [.received socket reply] else []

/-- The state with the flag of the record, and no callbacks yet. -/
def load (s : State api β) (tcp : Tcp) : State api β :=
  { s with isConnected := tcp.isConnected, events := [] }

end State

/-! ## Steps -/

namespace Instance

/-- The instance after a step, the calls of the step and then its callbacks. -/
def become (x : Instance api β) (s : State api β) (items : List (Item β)) : Instance api β :=
  { x with
    handle := some { s with events := [] }
    history := (s.events.map Item.callback).reverse ++ items ++ x.history }

/-- `socketio_send`. -/
def send (x : Instance api β) (s : State api β) (buffer : Option (List β)) (callback : Bool)
    (entry : Option ℕ) : Option (Instance api β) :=
  let call := if callback then some x.calls else none
  (SocketIo.step s (.send buffer call entry)).map fun t =>
    { x.become t
        ((s.queues buffer entry).toList.map (.queued call) ++ call.toList.map .called) with
      calls := x.calls + 1 }

/-- One round of `retrieve_data`, or the end of its loop. -/
def receive (x : Instance api β) (s : State api β) (socket : ℤ) (reply : Except ℤ (List β)) :
    Option (Instance api β) :=
  if x.test = true ∧ s.pc = .receive ∧ s.ioState ≠ .open then
    some { x.become (s.goto .idle) [] with test := false }
  else
    (SocketIo.step s (.receive reply)).map fun t =>
      { x.become t (s.receives socket reply) with test := decide (t.pc = .receive) }

/-- A call on an instance that is allocated. -/
def call (tcp : Tcp) (x : Instance api β) (s : State api β) : Op β → Option (Tcp × Instance api β)
  | .create => none
  | .open replies onBytesReceived onIoError =>
      let o := socketioOpen (some s) tcp replies onBytesReceived onIoError
      if s.pc = .idle then
        some (o.tcp, { x with handle := o.handle, history := s.opens o ++ x.history })
      else none
  | .close closed destroyed =>
      if s.pc ≠ .loop then
        some (s.closeTcp tcp closed destroyed, x.become s.closeTcpConnection s.drops)
      else none
  | .destroy closed destroyed =>
      if s.pc = .idle then
        some (s.closeTcp tcp closed destroyed,
          { x with handle := none, history := s.drops ++ x.history })
      else none
  | .send buffer callback entry => (x.send s buffer callback entry).map (tcp, ·)
  | .dowork =>
      (SocketIo.step s .dowork).map fun t => (tcp, { x.become t [] with test := false })
  | .sendNext reply =>
      (SocketIo.step s (.sendNext reply)).map fun t => (tcp, x.become t (s.sends tcp.id reply))
  | .remove removed => (SocketIo.step s (.remove removed)).map fun t => (tcp, x.become t [])
  | .receive reply => (x.receive s tcp.id reply).map (tcp, ·)

/-- One step of one instance. -/
def step (tcp : Tcp) (x : Instance api β) (a : Op β) : Option (Tcp × Instance api β) :=
  match x.handle, a with
  | none, .create => some (tcp, { x with handle := some (socketioCreate api β) })
  | none, _ => none
  | some s, a => x.call tcp (s.load tcp) a

end Instance

/-- One step of one of the instances. -/
abbrev System.step {ι : Type} [DecidableEq ι] :
    System ι api β → ι × Op β → Option (System ι api β) :=
  Family.step Instance.step

end OpenIotSdk.SocketIo
