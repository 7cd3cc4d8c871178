import OpenIotSdk.Verification.Netx.ReceiveBounds

/-! # A frame between two drivers

What one driver sends, another one hands over to its NetX Duo. -/

namespace OpenIotSdk.Netx

variable {Handle Handle' : Type} [DecidableEq Handle] [DecidableEq Handle']

/-! ## The specification -/

/-- NetX Duo gets the payload at one of its entry points, within the data area of the packet that
was allocated. -/
structure Delivered (protocol : Receive.EntryPoint) (payload : List (BitVec 8))
    (packet : NxPacket) (r : Reception) : Prop where
  handed : ∃ p, r.handed = some (protocol, p) ∧ p.bytes r.memory = payload ∧
    (Region.mk p.prependPtr.toNat p.length.toNat).Within packet.area
  kept : r.released = false

/-- What lies behind the data of the first packet is the data of the others. -/
def Chain.Behind (memory : Memory (BitVec 8)) (c : Chain) : Prop :=
  memory.load c.first.appendPtr.toNat (c.rest memory).length = c.rest memory

/-! ## The frame -/

/-- The data of the first packet, and as many bytes behind it as the others have. -/
def Chain.copied (memory : Memory (BitVec 8)) (c : Chain) : List (BitVec 8) :=
  c.first.data memory ++ memory.load c.first.appendPtr.toNat (c.rest memory).length

theorem Chain.length_copied (memory : Memory (BitVec 8)) (c : Chain) :
    (c.copied memory).length = c.first.length.toNat := by
  rw [Chain.copied, List.length_append, NxPacket.data, Memory.length_load, Memory.length_load,
    c.length_eq memory]

theorem Chain.copied_eq_iff (memory : Memory (BitVec 8)) (c : Chain) :
    c.copied memory = c.data memory ↔ c.Behind memory := by
  rw [Chain.copied, Chain.data, List.flatMap_cons, List.append_cancel_left_eq]
  exact Iff.rfl

theorem nxLinkPacketSend_frame {e : Endianness} {driver : NxIpDriver} {device : Device}
    {chain : Chain} {manager : MemoryManager.State Handle (BitVec 8)} {buffer : Handle}
    {block : Option ℕ} {t : Transmission Handle} {b : MemoryManager.PrivMemoryBuf}
    (hdriver : driver.packet = chain.first)
    (hlength : chain.first.length.toNat + 14 ≤ device.mtu.toNat)
    (h : nxLinkPacketSend e driver device manager buffer block = some t)
    (hb : t.manager.bufs t.buffer = some b) :
    t.manager.memory.load b.data b.length =
      ethernetHeader driver ++ chain.copied manager.memory := by
  rw [nxLinkPacketSend] at h
  obtain ⟨-, h⟩ := Option.ite_none_left_eq_some.mp h
  obtain ⟨-, h⟩ := Option.ite_none_left_eq_some.mp h
  obtain ⟨⟨b', hb', hload⟩, -⟩ := hardwareSendPacket_spec h
  cases hb'.symm.trans hb
  rw [hload, hdriver]
  exact bytes_addHeader e driver chain manager.memory hlength

/-! ## Reception -/

/-- The packet of `hardware_receive_packet` when it holds the frame. -/
def NxPacket.received (p : NxPacket) (n : ℕ) : NxPacket :=
  { p with
    prependPtr := p.prependPtr + ethernetFrameAlignmentBytesSize
    length := BitVec.ofNat 32 n
    appendPtr := p.prependPtr + ethernetFrameAlignmentBytesSize + BitVec.ofNat 32 n }

/-- The packet holds the whole frame, and goes where `transfer_to_netx` says. -/
structure Holds (frame : List (BitVec 8)) (packet : NxPacket) (r : Reception) : Prop where
  bytes : r.memory.load (packet.received frame.length).prependPtr.toNat frame.length = frame
  handed : r.handed = transferToNetx r.memory (packet.received frame.length)
  released : r.released = r.handed.isNone

theorem hardwareReceivePacket_holds {device : Device}
    {manager : MemoryManager.State Handle (BitVec 8)} {buffer : Handle} {block : Option ℕ}
    {frame : List (BitVec 8)} {packet : NxPacket} {r : Reception} (hpos : 0 < frame.length)
    (hmtu : frame.length ≤ device.mtu.toNat)
    (h : hardwareReceivePacket device manager buffer block (some frame) (some packet) = some r) :
    Holds frame packet r := by
  rw [hardwareReceivePacket] at h
  obtain ⟨address, -, h⟩ := Option.bind_eq_some_iff.mp h
  obtain ⟨allocated, halloc, h⟩ := Option.bind_eq_some_iff.mp h
  obtain ⟨_, hframe, h⟩ := Option.bind_eq_some_iff.mp h
  cases hframe
  obtain ⟨received, hreceive, h⟩ := Option.bind_eq_some_iff.mp h
  obtain ⟨_, hpacket, h⟩ := Option.bind_eq_some_iff.mp h
  cases hpacket
  obtain ⟨copied, hcopy, h⟩ := Option.bind_eq_some_iff.mp h
  obtain ⟨-, b, hb, hlength, hload⟩ := MemoryManager.filled halloc hreceive
    (by rwa [Nat.mod_eq_of_lt device.mtu.isLt])
  obtain ⟨hresult, hbufs⟩ := MemoryManager.copyFromBuf_spec hcopy hb
  have houtput := MemoryManager.copyFromBuf_output hcopy hb
  rw [hlength, Nat.min_eq_right hmtu] at hresult houtput
  rw [hload] at houtput
  rw [if_neg (by omega), hbufs, hb, houtput] at h
  cases h
  dsimp only [Option.map_some, Option.getD_some]
  rw [hlength]
  exact ⟨Memory.load_store rfl, rfl, rfl⟩

/-! ## From one driver to the other -/

section Wire

variable {frame : List (BitVec 8)} {packet : NxPacket} {payloadSize : ℕ} {r : Reception}

theorem received_prependPtr (hfresh : packet.Fresh payloadSize) {n : ℕ}
    (hfits : n + 2 ≤ payloadSize) :
    (packet.received n).prependPtr.toNat = packet.dataStart.toNat + 2 := by
  obtain ⟨hprepend, hsize⟩ := hfresh
  have hend := packet.dataEnd.isLt
  dsimp only [NxPacket.received, ethernetFrameAlignmentBytesSize]
  rw [hprepend]
  bv_omega

/-- A frame with the header of a driver goes to the protocol of its command, without the header. -/
theorem Holds.delivered {driver : NxIpDriver} {payload : List (BitVec 8)}
    (h : Holds (ethernetHeader driver ++ payload) packet r) (hfresh : packet.Fresh payloadSize)
    (hfits : payload.length + 16 ≤ payloadSize) :
    Delivered driver.command.protocol payload packet r := by
  have hlen : (ethernetHeader driver ++ payload).length = 14 + payload.length :=
    List.length_append
  obtain ⟨hbytes, hhanded, hreleased⟩ := h
  rw [hlen] at hbytes hhanded
  have hptr := received_prependPtr hfresh (n := 14 + payload.length) (by omega)
  have hend := hfresh.size ▸ packet.dataEnd.isLt
  have hlength : (packet.received (14 + payload.length)).length.toNat = 14 + payload.length := by
    dsimp only [NxPacket.received]
    bv_omega
  have hreceived : (packet.received (14 + payload.length)).bytes r.memory =
      ethernetHeader driver ++ payload := by
    rw [Packet.bytes, hlength]
    exact hbytes
  rw [transferToNetx_header hreceived] at hhanded
  refine ⟨⟨_, hhanded, ?_, ?_⟩, by rw [hreleased, hhanded]; rfl⟩
  · refine bytes_removeHeader ?_ (length_ethernetHeader driver) hreceived
    rw [hptr, hlength]
    omega
  · have hsize := hfresh.size
    dsimp only [Region.Within, NxPacket.area, Packet.removeHeader, ethernetFrameSize]
    bv_omega

theorem Delivered.payload_unique {protocol : Receive.EntryPoint}
    {payload payload' : List (BitVec 8)} (h : Delivered protocol payload packet r)
    (h' : Delivered protocol payload' packet r) : payload = payload' := by
  obtain ⟨p, hhanded, hbytes, -⟩ := h.handed
  obtain ⟨p', hhanded', hbytes', -⟩ := h'.handed
  cases hhanded.symm.trans hhanded'
  exact hbytes.symm.trans hbytes'

end Wire

/-- For all commands, addresses, chains and packets: what is handed over at the other end is the
data of the chain, for the protocol of the command, exactly if this data is copied. -/
theorem delivered_iff {e : Endianness} {driver : NxIpDriver} {sender receiver : Device}
    {chain : Chain} {manager : MemoryManager.State Handle (BitVec 8)} {buffer : Handle}
    {block : Option ℕ} {t : Transmission Handle} {b : MemoryManager.PrivMemoryBuf}
    {manager' : MemoryManager.State Handle' (BitVec 8)} {buffer' : Handle'} {block' : Option ℕ}
    {packet : NxPacket} {payloadSize : ℕ} {r : Reception} (hdriver : driver.packet = chain.first)
    (hlength : chain.first.length.toNat + 14 ≤ sender.mtu.toNat)
    (hsend : nxLinkPacketSend e driver sender manager buffer block = some t)
    (hb : t.manager.bufs t.buffer = some b) (hmtu : sender.mtu.toNat ≤ receiver.mtu.toNat)
    (hfresh : packet.Fresh payloadSize) (hfits : chain.first.length.toNat + 16 ≤ payloadSize)
    (hreceive : hardwareReceivePacket receiver manager' buffer' block'
      (some (t.manager.memory.load b.data b.length)) (some packet) = some r) :
    Delivered driver.command.protocol (chain.data manager.memory) packet r ↔
      chain.Behind manager.memory := by
  rw [nxLinkPacketSend_frame hdriver hlength hsend hb] at hreceive
  have hcopied := chain.length_copied manager.memory
  have hframe : (ethernetHeader driver ++ chain.copied manager.memory).length =
      14 + chain.first.length.toNat := by
    rw [List.length_append, length_ethernetHeader, hcopied]
  have hdelivered := (hardwareReceivePacket_holds (by omega) (by omega) hreceive).delivered hfresh
    (by omega)
  rw [← chain.copied_eq_iff]
  constructor
  · exact fun h => hdelivered.payload_unique h
  · exact fun h => h ▸ hdelivered

theorem delivered_iff_split : ∃ t b r,
    nxLinkPacketSend littleEndianTarget splitDriver splitDevice splitManager () (some 1000) =
        some t ∧
      t.manager.bufs t.buffer = some b ∧
      hardwareReceivePacket splitDevice (MemoryManager.init fun _ => 0#8) () (some 4000)
        (some (t.manager.memory.load b.data b.length)) (some largePacket) = some r ∧
      (Delivered splitDriver.command.protocol (splitChain.data splitManager.memory) largePacket r ↔
        splitChain.Behind splitManager.memory) := by
  obtain ⟨t, ht⟩ := splitChain_sent
  obtain ⟨b, hb⟩ : ∃ b, t.manager.bufs t.buffer = some b := by
    cases ht
    exact ⟨_, rfl⟩
  obtain ⟨r, hr⟩ : ∃ r, hardwareReceivePacket splitDevice (MemoryManager.init fun _ => 0#8) ()
      (some 4000) (some (t.manager.memory.load b.data b.length)) (some largePacket) = some r := by
    cases ht
    cases hb
    exact ⟨_, rfl⟩
  exact ⟨t, b, r, ht, hb, hr, delivered_iff rfl (by decide) ht hb (Nat.le_refl _) largePacket_fresh
    (by decide) hr⟩

end OpenIotSdk.Netx
