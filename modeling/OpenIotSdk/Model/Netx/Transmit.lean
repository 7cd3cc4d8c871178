import Mathlib.Data.BitVec
import Mathlib.Logic.Function.Basic

/-! # Transmission in `nx_driver_mdh.c`

The IP thread runs the send commands of NetX Duo, and the EMAC calls
`on_transmit_complete` once for each transmission it accepted. The callback can come
between any two statements of the IP thread and the other way round. -/

namespace OpenIotSdk.Netx

/-- The two fields of an `NX_PACKET` that the driver changes. -/
structure Packet where
  prependPtr : BitVec 32 -- `nx_packet_prepend_ptr`
  length : BitVec 32 -- `nx_packet_length`
  deriving DecidableEq

/-- `ETHERNET_FRAME_SIZE`. -/
def ethernetFrameSize : BitVec 32 := 14#32

namespace Packet

/-- Makes room for the Ethernet header. -/
def addHeader (p : Packet) : Packet :=
  ⟨p.prependPtr - ethernetFrameSize, p.length + ethernetFrameSize⟩

/-- `remove_nx_packet_ethernet_header`. -/
def removeHeader (p : Packet) : Packet :=
  ⟨p.prependPtr + ethernetFrameSize, p.length - ethernetFrameSize⟩

@[simp] theorem removeHeader_addHeader (p : Packet) : p.addHeader.removeHeader = p := by
  cases p
  simp only [addHeader, removeHeader, BitVec.sub_add_cancel, BitVec.add_sub_cancel]

end Packet

/-- Where the IP thread is in `nx_link_packet_send`, for the packet of the command. -/
inductive Pc where
  | idle -- outside the command
  | enabled (id : ℕ) -- `if (device->state != NX_DRIVER_STATE_LINK_ENABLED)`
  | header (id : ℕ) -- the two fields are moved to the Ethernet header
  | mtu (id : ℕ) -- `if (outgoing_packet->nx_packet_length > device->mtu)`
  | store (id : ℕ) -- `device->outgoing_packet = outgoing_packet`
  | busy (id : ℕ) -- `hardware_send_packet`: `if (device->busy_transmitting)`
  | alloc (id : ℕ) -- `hardware_send_packet`: the allocation and the copy
  | setBusy (id : ℕ) -- `hardware_send_packet`: `device->busy_transmitting = true`
  | transmit (id : ℕ) -- `hardware_send_packet`: `mdh_emac_transmit`
  | clearBusy (id : ℕ) -- `hardware_send_packet`: `device->busy_transmitting = false`
  | restore (id : ℕ) -- `remove_nx_packet_ethernet_header` and the return with an error status
  | fail (id : ℕ) -- the return with an error status
  | success (id : ℕ) -- the return with `NX_SUCCESS`
  deriving DecidableEq

/-- Where `on_transmit_complete` is. -/
inductive Callback where
  | idle -- outside the callback
  | restore -- `remove_nx_packet_ethernet_header(device->outgoing_packet)`
  | release -- `nx_packet_transmit_release(device->outgoing_packet)`
  deriving DecidableEq

structure State where
  enabled : Bool -- `device->state == NX_DRIVER_STATE_LINK_ENABLED`
  busyTransmitting : Bool -- `device->busy_transmitting`
  mtu : ℕ -- `device->mtu`
  outgoingPacket : Option ℕ -- `device->outgoing_packet`
  pc : Pc
  callback : Callback
  inFlight : List ℕ -- the packets of the transmissions that the EMAC accepted, until their release
  packets : ℕ → Packet -- the fields of each packet, and what NetX last passed down
  passed : ℕ → Packet
  /-- How many commands on a packet left `NX_SUCCESS`, and how often it was released. -/
  succeeded : ℕ → ℕ
  released : ℕ → ℕ
  damaged : ℕ -- how often NetX got a packet back with other fields than it passed down

/-- An initialized driver whose link is up. -/
def init (mtu : ℕ) (packets : ℕ → Packet) : State where
  enabled := true
  busyTransmitting := false
  mtu := mtu
  outgoingPacket := none
  pc := .idle
  callback := .idle
  inFlight := []
  packets := packets
  passed := packets
  succeeded := fun _ => 0
  released := fun _ => 0
  damaged := 0

inductive Action where
  /-- A send command; its kind only decides what the Ethernet header says. -/
  | send (id : ℕ) (packet : Packet)
  | link (enabled : Bool) -- the link is enabled or disabled
  /-- The IP thread runs its next statement; `ok` is the answer of the memory manager or
  of the EMAC, if it asks one. -/
  | advance (ok : Bool)
  | callback -- the next statement of `on_transmit_complete`

namespace State

def goto (s : State) (pc : Pc) : State := { s with pc := pc }

def setPacket (s : State) (id : ℕ) (packet : Packet) : State :=
  { s with packets := Function.update s.packets id packet }

/-- NetX gets a packet back. -/
def handBack (s : State) (id : ℕ) : State :=
  { s with damaged := s.damaged + if s.packets id = s.passed id then 0 else 1 }

/-- The statement at which the IP thread stands. -/
def advance (s : State) (ok : Bool) : Option State :=
  match s.pc with
  | .idle => none
  | .enabled id => some (s.goto (if s.enabled then .header id else .fail id))
  | .header id => some ((s.setPacket id (s.packets id).addHeader).goto (.mtu id))
  | .mtu id =>
      some (s.goto (if s.mtu < (s.packets id).length.toNat then .restore id else .store id))
  | .store id => some ({ s with outgoingPacket := some id }.goto (.busy id))
  | .busy id => some (s.goto (if s.busyTransmitting then .restore id else .alloc id))
  | .alloc id => some (s.goto (if ok then .setBusy id else .restore id))
  | .setBusy id => some ({ s with busyTransmitting := true }.goto (.transmit id))
  | .transmit id =>
      some (if ok then { s with inFlight := s.inFlight ++ [id] }.goto (.success id)
        else s.goto (.clearBusy id))
  | .clearBusy id => some ({ s with busyTransmitting := false }.goto (.restore id))
  | .restore id => some ((s.setPacket id (s.packets id).removeHeader).goto (.fail id))
  | .fail id => some ((s.handBack id).goto .idle)
  | .success id =>
      some ({ s with succeeded := Function.update s.succeeded id (s.succeeded id + 1) }.goto .idle)

/-- `on_transmit_complete` for the transmission that was accepted first. -/
def transmitComplete (s : State) : Option State :=
  match s.callback, s.outgoingPacket, s.inFlight with
  | .idle, _, _ :: _ => some { s with busyTransmitting := false, callback := .restore }
  | .restore, some id, _ =>
      some { s.setPacket id (s.packets id).removeHeader with callback := .release }
  | .release, some id, _ :: rest =>
      some { s.handBack id with
        released := Function.update s.released id (s.released id + 1)
        inFlight := rest
        callback := .idle }
  | _, _, _ => none

end State

/-- One step. NetX runs one command at a time, with a packet that is not in flight. -/
def step (s : State) (a : Action) : Option State :=
  match a with
  | .send id packet =>
      if s.pc = .idle ∧ id ∉ s.inFlight then
        some { s.setPacket id packet with
          passed := Function.update s.passed id packet
          pc := .enabled id }
      else none
  | .link enabled => if s.pc = .idle then some { s with enabled := enabled } else none
  | .advance ok => s.advance ok
  | .callback => s.transmitComplete

end OpenIotSdk.Netx
