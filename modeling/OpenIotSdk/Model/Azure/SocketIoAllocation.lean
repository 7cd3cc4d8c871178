import OpenIotSdk.Library.Blocks
import OpenIotSdk.Model.Azure.SocketIoInstances

/-! # Allocation in the socket adapter

`socketio_create` and `add_pending_io` of `socketio_openiot.c`, when any of their allocations
fails. A `singlylinkedlist` is one block. -/

namespace OpenIotSdk.SocketIo.Allocation

variable {api : SinglyLinkedList ℕ} {β : Type}

/-- `SOCKETIO_CONFIG`. -/
structure SocketIoConfig where
  hostname : String
  port : ℤ

/-! ## `socketio_create` -/

/-- The pointers of `SOCKET_IO_INSTANCE` to blocks of its own. -/
structure SocketIoInstance where
  hostname : Pointer
  pendingIoList : Pointer

/-- A block for an instance, with what was in it. -/
def SocketIoInstance.fresh (contents : Option ℕ × Option ℕ) : SocketIoInstance :=
  ⟨⟨contents.1, false⟩, ⟨contents.2, false⟩⟩

/-- Which allocations of `socketio_create` succeed. -/
structure CreateReplies where
  ret : Bool
  pendingIoList : Bool -- `singlylinkedlist_create`
  hostname : Bool

/-- A new instance. -/
structure Created (api : SinglyLinkedList ℕ) (β : Type) where
  ret : ℕ -- its block
  fields : SocketIoInstance
  config : SocketIoConfig -- the copies of the host's name and the port
  state : State api β -- the other fields

/-- The label `exit` of `socketio_create` after a failure. -/
def createFailed (ret : Option (ℕ × SocketIoInstance)) (m : Blocks) :
    Option (Created api β) × Blocks :=
  match ret with
  | none => (none, m)
  | some (id, fields) =>
      (none, ((m.release fields.hostname).release fields.pendingIoList).free id)

def socketioCreate (api : SinglyLinkedList ℕ) (β : Type) (config : Option SocketIoConfig)
    (replies : CreateReplies) (contents : Option ℕ × Option ℕ) (m : Blocks) :
    Option (Created api β) × Blocks :=
  match config with
  | none => (none, m)
  | some config =>
      match m.malloc replies.ret with
      | (none, m) => createFailed none m
      | (some ret, m) =>
          let (list, m) := m.malloc replies.pendingIoList
          let fields := { SocketIoInstance.fresh contents with pendingIoList := ⟨list, true⟩ }
          if list = none then createFailed (some (ret, fields)) m
          else
            let (hostname, m) := m.malloc replies.hostname
            let fields := { fields with hostname := ⟨hostname, true⟩ }
            if hostname = none then createFailed (some (ret, fields)) m
            else (some ⟨ret, fields, config, SocketIo.socketioCreate api β⟩, m)

/-! ## `add_pending_io` -/

/-- Which allocations of `add_pending_io` succeed. -/
structure AddReplies where
  pendingSocketIo : Bool
  bytes : Bool
  item : Bool -- `singlylinkedlist_add`

/-- What `add_pending_io` leaves. -/
structure Added (api : SinglyLinkedList ℕ) (β : Type) where
  ok : Bool -- the result is 0
  state : State api β
  blocks : Blocks

/-- The label `exit` of `add_pending_io` after a failure. -/
def addFailed (pendingSocketIo : Option (ℕ × Pointer)) (s : State api β) (m : Blocks) :
    Added api β :=
  match pendingSocketIo with
  | none => ⟨false, s, m⟩
  | some (id, bytes) => ⟨false, s.setEntry id none, (m.release bytes).free id⟩

def addPendingIo (s : State api β) (buffer : List β) (onSendComplete : Option ℕ)
    (replies : AddReplies) (m : Blocks) : Added api β :=
  match m.malloc replies.pendingSocketIo with
  | (none, m) => addFailed none s m
  | (some id, m) =>
      let (bytes, m) := m.malloc replies.bytes -- assigned to the field as it is
      if bytes = none then addFailed (some (id, ⟨bytes, true⟩)) s m
      else
        let s := s.setEntry id (some ⟨buffer, buffer.length, onSendComplete, buffer, 0⟩)
        if replies.item then
          ⟨true, { s with
            pendingIoList := api.add s.pendingIoList id
            queued := s.queued ++ buffer }, m⟩
        else addFailed (some (id, ⟨bytes, true⟩)) s m

end OpenIotSdk.SocketIo.Allocation
