import OpenIotSdk.Model.Netx.Frame

/-! # The Ethernet header

`add_ethernet_header` against the layout of the header, and against `transfer_to_netx`. -/

namespace OpenIotSdk.Netx

/-! ## The layout -/

def physicalAddress (msw lsw : BitVec 32) : List (BitVec 8) :=
  [Word.byte msw 1, Word.byte msw 0] ++ Word.bigEndian lsw

def Command.etherType (ipVersion : BitVec 8) : Command → BitVec 16
  | .packetSend | .packetBroadcast => if ipVersion = 6#8 then 0x86dd#16 else 0x0800#16
  | .arpSend | .arpResponseSend => 0x0806#16
  | .rarpSend => 0x8035#16

/-- Who takes the packets of a command. -/
def Command.protocol : Command → Receive.EntryPoint
  | .packetSend | .packetBroadcast => .ip
  | .arpSend | .arpResponseSend => .arp
  | .rarpSend => .rarp

def ethernetHeader (driver : NxIpDriver) : List (BitVec 8) :=
  physicalAddress driver.physicalAddressMsw driver.physicalAddressLsw ++
    (physicalAddress driver.interface.physicalAddressMsw driver.interface.physicalAddressLsw ++
      [Word.byte (driver.command.etherType driver.packet.ipVersion) 1,
        Word.byte (driver.command.etherType driver.packet.ipVersion) 0])

def Packet.bytes (memory : Memory (BitVec 8)) (p : Packet) : List (BitVec 8) :=
  memory.load p.prependPtr.toNat p.length.toNat

/-- The 14 bytes before the payload are the header, only they and 2 bytes more are written, and
whoever receives a frame with this header passes its payload to the same protocol. -/
structure HeaderAgrees (e : Endianness) (driver : NxIpDriver) (ethernetFramePtr : BitVec 32)
    (memory : Memory (BitVec 8)) : Prop where
  header : (addEthernetHeader e driver ethernetFramePtr memory).load
    (ethernetFramePtr.toNat + 2) 14 = ethernetHeader driver
  unchanged : ∀ x, ¬ (Region.mk ethernetFramePtr.toNat 16).Contains x →
    addEthernetHeader e driver ethernetFramePtr memory x = memory x
  received : ∀ (memory' : Memory (BitVec 8)) (packet : NxPacket) (payload : List (BitVec 8)),
    packet.prependPtr.toNat + packet.length.toNat ≤ 2 ^ 32 →
    packet.bytes memory' = ethernetHeader driver ++ payload →
    ∃ handed, transferToNetx memory' packet = some (driver.command.protocol, handed) ∧
      handed.bytes memory' = payload

/-! ## `add_ethernet_header` -/

theorem etherType_eq (driver : NxIpDriver) :
    etherType driver = driver.command.etherType driver.packet.ipVersion := by
  dsimp only [etherType]
  cases driver.command with
  | packetSend => rfl
  | packetBroadcast => rfl
  | arpSend => rfl
  | arpResponseSend => rfl
  | rarpSend => rfl

@[simp] theorem length_ethernetHeader (driver : NxIpDriver) :
    (ethernetHeader driver).length = 14 := rfl

/-- The four words are the upper half of an address word and the header. -/
theorem ethernetFrame_bytes (e : Endianness) (driver : NxIpDriver) :
    (ethernetFrame driver).flatMap (fun word => Word.littleEndian (e.changeUlong word)) =
      [Word.byte driver.physicalAddressMsw 3, Word.byte driver.physicalAddressMsw 2] ++
        ethernetHeader driver := by
  simp only [ethernetFrame, List.flatMap_cons, List.flatMap_nil, e.swaps, Word.bigEndian_halves,
    Word.bigEndian_low, etherType_eq]
  rfl

theorem addEthernetHeader_header (e : Endianness) (driver : NxIpDriver)
    (ethernetFramePtr : BitVec 32) (memory : Memory (BitVec 8)) :
    (addEthernetHeader e driver ethernetFramePtr memory).load (ethernetFramePtr.toNat + 2) 14 =
      ethernetHeader driver := by
  rw [addEthernetHeader, ethernetFrame_bytes]
  exact Memory.load_store_add rfl (length_ethernetHeader driver)

theorem addEthernetHeader_unchanged (e : Endianness) (driver : NxIpDriver)
    (ethernetFramePtr : BitVec 32) (memory : Memory (BitVec 8)) {x : ℕ}
    (h : ¬ (Region.mk ethernetFramePtr.toNat 16).Contains x) :
    addEthernetHeader e driver ethernetFramePtr memory x = memory x := by
  rw [addEthernetHeader, ethernetFrame_bytes]
  exact Memory.store_outside h

/-! ## `transfer_to_netx` -/

theorem transferToNetx_etherType (command : Command) (ipVersion : BitVec 8) :
    Receive.transferToNetx (command.etherType ipVersion) = some command.protocol := by
  have hip : Receive.transferToNetx (if ipVersion = 6#8 then 0x86dd#16 else 0x0800#16) =
      some .ip := by
    split
    · decide
    · decide
  have harp : Receive.transferToNetx 0x0806#16 = some .arp := by decide
  have hrarp : Receive.transferToNetx 0x8035#16 = some .rarp := by decide
  cases command with
  | packetSend => exact hip
  | packetBroadcast => exact hip
  | arpSend => exact harp
  | arpResponseSend => exact harp
  | rarpSend => exact hrarp

theorem memory_of_bytes {memory : Memory (BitVec 8)} {p : Packet} {i : ℕ} {byte : BitVec 8}
    (h : (p.bytes memory)[i]? = some byte) : memory (p.prependPtr.toNat + i) = byte := by
  have hi : i < p.length.toNat := by
    obtain ⟨hi, -⟩ := List.getElem?_eq_some_iff.mp h
    rwa [Packet.bytes, Memory.length_load] at hi
  rw [Packet.bytes, Memory.getElem?_load hi] at h
  exact Option.some.inj h

theorem bytes_removeHeader {memory : Memory (BitVec 8)} {p : Packet}
    {header payload : List (BitVec 8)} (hfits : p.prependPtr.toNat + p.length.toNat ≤ 2 ^ 32)
    (hheader : header.length = 14) (h : p.bytes memory = header ++ payload) :
    p.removeHeader.bytes memory = payload := by
  have hlength : p.length.toNat = 14 + payload.length := by
    have hcount := congrArg List.length h
    rwa [Packet.bytes, Memory.length_load, List.length_append, hheader] at hcount
  have hrest : memory.load (p.prependPtr.toNat + 14) payload.length = payload := by
    refine Memory.load_eq_of_reads fun i byte hread => ?_
    rw [Nat.add_assoc]
    apply memory_of_bytes
    rw [h, List.getElem?_append_right (by omega), hheader, Nat.add_sub_cancel_left, hread]
  have hlength' : p.removeHeader.length.toNat = payload.length := by
    simp only [Packet.removeHeader, ethernetFrameSize]
    bv_omega
  rw [Packet.bytes, hlength']
  cases payload with
  | nil => rfl
  | cons byte payload =>
      rw [List.length_cons] at hlength
      have hptr : p.removeHeader.prependPtr.toNat = p.prependPtr.toNat + 14 := by
        simp only [Packet.removeHeader, ethernetFrameSize]
        bv_omega
      rw [hptr]
      exact hrest

theorem transferToNetx_header {driver : NxIpDriver} {memory : Memory (BitVec 8)}
    {packet : NxPacket} {payload : List (BitVec 8)}
    (h : packet.bytes memory = ethernetHeader driver ++ payload) :
    transferToNetx memory packet =
      some (driver.command.protocol, { packet with toPacket := packet.removeHeader }) := by
  have hmsb : memory (packet.prependPtr.toNat + ethernetEtherTypeMsbPos) =
      Word.byte (driver.command.etherType driver.packet.ipVersion) 1 :=
    memory_of_bytes (by rw [h]; rfl)
  have hlsb : memory (packet.prependPtr.toNat + ethernetEtherTypeLsbPos) =
      Word.byte (driver.command.etherType driver.packet.ipVersion) 0 :=
    memory_of_bytes (by rw [h]; rfl)
  simp only [transferToNetx, hmsb, hlsb, Word.bytes_append, transferToNetx_etherType,
    Option.map_some]

/-- For all addresses, all commands and both versions. -/
theorem header_agrees (e : Endianness) (driver : NxIpDriver) (ethernetFramePtr : BitVec 32)
    (memory : Memory (BitVec 8)) : HeaderAgrees e driver ethernetFramePtr memory where
  header := addEthernetHeader_header e driver ethernetFramePtr memory
  unchanged := fun _ h => addEthernetHeader_unchanged e driver ethernetFramePtr memory h
  received := by
    intro memory' packet payload hfits h
    exact ⟨_, transferToNetx_header h, bytes_removeHeader hfits (length_ethernetHeader driver) h⟩

end OpenIotSdk.Netx
