import OpenIotSdk.Model.IotSocket

/-! # The TCP connection of the Azure SDK

`tcpsocketconnection_openiot.c`: all handles point to one static record, and the sockets
belong to the stack. The answers of the stack are arguments. -/

namespace OpenIotSdk.TcpSocketConnection

/-- `openiot_tcp_socket`, and the stack. -/
structure State where
  id : ℤ
  isConnected : Bool
  stack : Stack
  misreported : ℕ -- calls of `connect` that returned 0 while the socket was not connected

def init : State where
  id := iotSocketEsock
  isConnected := false
  stack := .empty
  misreported := 0

namespace State

/-- The socket that `id` names is open and connected. -/
def joined (s : State) : Bool := s.stack.isOpen s.id && s.stack.connected s.id

/-! A `handle` is null or the address of the record. -/

/-- `tcpsocketconnection_create`. -/
def create (s : State) (reply : ℤ) : State :=
  if s.stack.created reply < 0 then { s with stack := s.stack.iotSocketCreate reply }
  else { s with id := s.stack.created reply, stack := s.stack.iotSocketCreate reply }

/-- The handle that `tcpsocketconnection_create` returns is not null. -/
def creates (s : State) (reply : ℤ) : Bool := decide (0 ≤ s.stack.created reply)

/-- `tcpsocketconnection_destroy`. -/
def destroy (s : State) (handle : Bool) (reply : ℤ) : State :=
  if handle = false then s
  else if s.id ≠ iotSocketEsock then
    let t := { s with stack := s.stack.iotSocketClose s.id reply }
    if s.stack.answer s.id reply ≠ 0 then t else { t with id := iotSocketEsock }
  else s

/-- `tcpsocketconnection_connect` returns 0, when `iotSocketGetHostByName` answers `host`. -/
def connects (s : State) (handle : Bool) (host reply : ℤ) : Bool :=
  handle && (s.isConnected || decide (0 ≤ host) && decide (s.stack.answer s.id reply = 0))

/-- `tcpsocketconnection_connect`. -/
def connect (s : State) (handle : Bool) (host reply : ℤ) : State :=
  if handle = false then s
  else if s.isConnected then s
  else if host < 0 then s
  else
    let t := { s with stack := s.stack.iotSocketConnect s.id reply }
    if s.stack.answer s.id reply ≠ 0 then t else { t with isConnected := true }

/-- `tcpsocketconnection_close`. -/
def close (s : State) (handle : Bool) (reply : ℤ) : State :=
  if handle = false then s
  else
    let t := { s with stack := s.stack.iotSocketClose s.id reply }
    if s.stack.answer s.id reply ≠ 0 then t
    else { t with isConnected := false, id := iotSocketEsock }

/-- Counts a call of `connect` whose result is wrong. -/
def check (s : State) (returned : Bool) : State :=
  { s with misreported := s.misreported + if returned = true ∧ s.joined = false then 1 else 0 }

end State

inductive Action where
  | create (reply : ℤ)
  | connect (handle : Bool) (host reply : ℤ)
  | close (handle : Bool) (reply : ℤ)
  | destroy (handle : Bool) (reply : ℤ)

/-- One call, which is always possible. -/
def step (s : State) (a : Action) : Option State :=
  match a with
  | .create reply => some (s.create reply)
  | .connect handle host reply =>
      some ((s.connect handle host reply).check (s.connects handle host reply))
  | .close handle reply => some (s.close handle reply)
  | .destroy handle reply => some (s.destroy handle reply)

end OpenIotSdk.TcpSocketConnection
