import OpenIotSdk.Library.Words
import OpenIotSdk.Model.MemoryManager
import OpenIotSdk.Model.Netx.Receive
import OpenIotSdk.Model.Netx.Transmit

/-! # Frames in `nx_driver_mdh.c`

What the driver reads and writes for one frame: the bytes of the packets of NetX Duo and of the
buffers of the memory manager lie in one memory. A function of the platform that fails answers
`none`. -/

namespace OpenIotSdk.Netx

/-- `NX_PACKET`, without `nx_packet_next`. -/
structure NxPacket extends Packet where
  appendPtr : BitVec 32 -- `nx_packet_append_ptr`
  dataStart : BitVec 32 -- `nx_packet_data_start`
  dataEnd : BitVec 32 -- `nx_packet_data_end`
  ipVersion : BitVec 8 -- `nx_packet_ip_version`
  deriving DecidableEq

/-- `ETHERNET_FRAME_ALIGNMENT_BYTES_SIZE`. -/
def ethernetFrameAlignmentBytesSize : BitVec 32 := 2#32

/-- `ETHERNET_ETHER_TYPE_MSB_POS` and `ETHERNET_ETHER_TYPE_LSB_POS`. -/
def ethernetEtherTypeMsbPos : ℕ := 12
def ethernetEtherTypeLsbPos : ℕ := 13

/-- `NX_IP_VERSION_V6`. -/
def nxIpVersionV6 : BitVec 8 := 6#8

/-- The commands that send a packet. -/
inductive Command where
  | packetSend -- `NX_LINK_PACKET_SEND`
  | packetBroadcast -- `NX_LINK_PACKET_BROADCAST`
  | arpSend -- `NX_LINK_ARP_SEND`
  | arpResponseSend -- `NX_LINK_ARP_RESPONSE_SEND`
  | rarpSend -- `NX_LINK_RARP_SEND`
  deriving DecidableEq

/-- The fields of `NX_INTERFACE` with the address of the interface. -/
structure NxInterface where
  physicalAddressMsw : BitVec 32 -- `nx_interface_physical_address_msw`
  physicalAddressLsw : BitVec 32 -- `nx_interface_physical_address_lsw`
  deriving DecidableEq

/-- `NX_IP_DRIVER`, with the first packet of the chain that is to be sent. -/
structure NxIpDriver where
  command : Command -- `nx_ip_driver_command`
  physicalAddressMsw : BitVec 32 -- `nx_ip_driver_physical_address_msw`
  physicalAddressLsw : BitVec 32 -- `nx_ip_driver_physical_address_lsw`
  interface : NxInterface -- `nx_ip_driver_interface`
  packet : NxPacket -- `nx_ip_driver_packet`
  deriving DecidableEq

/-- `NX_CHANGE_ULONG_ENDIAN` of NetX Duo, which swaps a word on a little-endian target. -/
structure Endianness where
  changeUlong : BitVec 32 → BitVec 32
  swaps : ∀ w, Word.littleEndian (changeUlong w) = Word.bigEndian w

/-! ## The Ethernet header -/

/-- The type that goes into the header. -/
def etherType (driver : NxIpDriver) : BitVec 16 :=
  if driver.command = .arpSend ∨ driver.command = .arpResponseSend then Receive.etherPacketTypeArp
  else if driver.command = .rarpSend then Receive.etherPacketTypeRarp
  else if driver.packet.ipVersion = nxIpVersionV6 then Receive.etherPacketTypeIpv6
  else Receive.etherPacketTypeIp

/-- The four words of `ethernet_frame_ptr`, before they are swapped. -/
def ethernetFrame (driver : NxIpDriver) : List (BitVec 32) :=
  [driver.physicalAddressMsw,
    driver.physicalAddressLsw,
    driver.interface.physicalAddressMsw <<< 16 ||| driver.interface.physicalAddressLsw >>> 16,
    driver.interface.physicalAddressLsw <<< 16 ||| (etherType driver).setWidth 32]

def addEthernetHeader (e : Endianness) (driver : NxIpDriver) (ethernetFramePtr : BitVec 32)
    (memory : Memory (BitVec 8)) : Memory (BitVec 8) :=
  memory.store ethernetFramePtr.toNat
    ((ethernetFrame driver).flatMap fun word => Word.littleEndian (e.changeUlong word))

/-! ## Transmission -/

/-- The fields of `device_driver_t` that a frame depends on. -/
structure Device where
  enabled : Bool -- `state == NX_DRIVER_STATE_LINK_ENABLED`
  busyTransmitting : Bool
  mtu : BitVec 32
  memoryAlignment : BitVec 32
  deriving DecidableEq

/-- What `mdh_emac_transmit` gets: a buffer, and the state of the memory manager. What has been
read of the packet is noted. -/
structure Transmission (Handle : Type) where
  buffer : Handle
  manager : MemoryManager.State Handle (BitVec 8)
  reads : List Region

variable {Handle : Type} [DecidableEq Handle]

/-- `hardware_send_packet`. The allocation answers with the address of its block. -/
def hardwareSendPacket (device : Device) (packet : Packet)
    (manager : MemoryManager.State Handle (BitVec 8)) (buffer : Handle) (block : Option ℕ) :
    Option (Transmission Handle) :=
  if device.busyTransmitting then none
  else do
    let manager ← MemoryManager.step manager
      (.allocFromHeap buffer (← block) packet.length.toNat device.memoryAlignment.toNat)
    let bytes := manager.memory.load packet.prependPtr.toNat packet.length.toNat
    let manager ← MemoryManager.step manager (.copyToBuf (some bytes) (some buffer))
    return ⟨buffer, manager, [⟨packet.prependPtr.toNat, manager.result⟩]⟩

/-- `nx_link_packet_send`. -/
def nxLinkPacketSend (e : Endianness) (driver : NxIpDriver) (device : Device)
    (manager : MemoryManager.State Handle (BitVec 8)) (buffer : Handle) (block : Option ℕ) :
    Option (Transmission Handle) :=
  if device.enabled = false then none
  else
    let packet := driver.packet.addHeader
    if device.mtu < packet.length then none
    else
      let ethernetFramePtr := packet.prependPtr - ethernetFrameAlignmentBytesSize
      let memory := addEthernetHeader e driver ethernetFramePtr manager.memory
      hardwareSendPacket device packet { manager with memory := memory } buffer block

/-! ## Reception -/

/-- The bytes of `nx_packet_prepend_ptr` that `transfer_to_netx` reads. -/
def etherTypeReads (packet : Packet) : List ℕ :=
  [packet.prependPtr.toNat + ethernetEtherTypeMsbPos,
    packet.prependPtr.toNat + ethernetEtherTypeLsbPos]

/-- `transfer_to_netx`: who gets the packet, and the packet, or `none` where the function returns
`false`. -/
def transferToNetx (memory : Memory (BitVec 8)) (packet : NxPacket) :
    Option (Receive.EntryPoint × NxPacket) :=
  let packetTypeMsb := (memory (packet.prependPtr.toNat + ethernetEtherTypeMsbPos)).setWidth 16
  let packetTypeLsb := (memory (packet.prependPtr.toNat + ethernetEtherTypeLsbPos)).setWidth 16
  let packetType := packetTypeMsb <<< 8 ||| packetTypeLsb
  let packet := { packet with toPacket := packet.removeHeader }
  (Receive.transferToNetx packetType).map (·, packet)

/-- What `hardware_receive_packet` does with the packet that it gets: what it writes and reads
there, and where the packet goes. -/
structure Reception where
  memory : Memory (BitVec 8)
  writes : List Region
  reads : List ℕ
  handed : Option (Receive.EntryPoint × NxPacket)
  released : Bool

/-- `hardware_receive_packet`. The EMAC puts its frame into the buffer, and `nx_packet_allocate`
answers with a packet. -/
def hardwareReceivePacket (device : Device) (manager : MemoryManager.State Handle (BitVec 8))
    (buffer : Handle) (block : Option ℕ) (frame : Option (List (BitVec 8)))
    (packet : Option NxPacket) : Option Reception := do
  let manager ← MemoryManager.step manager
    (.allocFromHeap buffer (← block) device.mtu.toNat device.memoryAlignment.toNat)
  let manager ← MemoryManager.step manager (.copyToBuf (some (← frame)) (some buffer))
  let packet ← packet
  let prependPtr := packet.prependPtr + ethernetFrameAlignmentBytesSize
  let manager ← MemoryManager.step manager (.copyFromBuf (some buffer) true device.mtu.toNat)
  let memory := manager.memory.store prependPtr.toNat manager.output
  let writes := [⟨prependPtr.toNat, manager.result⟩]
  if manager.result = 0 then return ⟨memory, writes, [], none, true⟩
  else
    let length := BitVec.ofNat 32 (((manager.bufs buffer).map (·.length)).getD 0)
    let packet := { packet with
      prependPtr := prependPtr
      length := length
      appendPtr := prependPtr + length }
    let handed := transferToNetx memory packet
    return ⟨memory, writes, etherTypeReads packet.toPacket, handed, handed.isNone⟩

end OpenIotSdk.Netx
