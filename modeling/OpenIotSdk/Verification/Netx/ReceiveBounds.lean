import OpenIotSdk.Verification.Netx.FrameContent

/-! # The bounds of a received frame

The driver checks neither that a frame has an Ethernet header nor that it fits the packet. -/

namespace OpenIotSdk.Netx

variable {Handle : Type} [DecidableEq Handle]

/-! ## The specification -/

/-- A packet for reception, of a pool with this payload size. -/
structure NxPacket.Fresh (p : NxPacket) (payloadSize : ℕ) : Prop where
  prepend : p.prependPtr = p.dataStart
  size : p.dataStart.toNat + payloadSize = p.dataEnd.toNat

/-- A frame of `n` bytes is written to the data area, its type is read from its own bytes, and
NetX Duo gets `n - 14` of them. A frame for which there is no way to do so is dropped. -/
structure Bounded (packet : NxPacket) (payloadSize n : ℕ) (r : Reception) : Prop where
  writes : ∀ w ∈ r.writes, w.Within packet.area
  reads : ∀ x ∈ r.reads, (Region.mk (packet.prependPtr.toNat + 2) n).Contains x
  handed : ∀ protocol p, r.handed = some (protocol, p) → p.length.toNat + 14 = n
  dropped : n < 14 ∨ payloadSize < n + 2 → r.handed = none ∧ r.released = true

/-! ## `hardware_receive_packet` -/

/-- The whole frame goes to the packet, two bytes after its start. -/
structure Receives (frame : List (BitVec 8)) (packet : NxPacket) (r : Reception) : Prop where
  writes : r.writes = [⟨(packet.prependPtr + 2#32).toNat, frame.length⟩]
  reads : r.reads = [(packet.prependPtr + 2#32).toNat + 12, (packet.prependPtr + 2#32).toNat + 13]
  handed : ∀ protocol p, r.handed = some (protocol, p) →
    p.length = BitVec.ofNat 32 frame.length - 14#32

theorem transferToNetx_length {memory : Memory (BitVec 8)} {packet p : NxPacket}
    {protocol : Receive.EntryPoint} (h : transferToNetx memory packet = some (protocol, p)) :
    p.length = packet.length - 14#32 := by
  obtain ⟨entryPoint, -, heq⟩ := Option.map_eq_some_iff.mp h
  cases heq
  rfl

theorem hardwareReceivePacket_spec {device : Device}
    {manager : MemoryManager.State Handle (BitVec 8)} {buffer : Handle} {block : Option ℕ}
    {frame : List (BitVec 8)} {packet : NxPacket} {r : Reception} (hpos : 0 < frame.length)
    (hmtu : frame.length ≤ device.mtu.toNat)
    (h : hardwareReceivePacket device manager buffer block (some frame) (some packet) = some r) :
    Receives frame packet r := by
  rw [hardwareReceivePacket] at h
  obtain ⟨address, -, h⟩ := Option.bind_eq_some_iff.mp h
  obtain ⟨allocated, halloc, h⟩ := Option.bind_eq_some_iff.mp h
  obtain ⟨_, hframe, h⟩ := Option.bind_eq_some_iff.mp h
  cases hframe
  obtain ⟨received, hreceive, h⟩ := Option.bind_eq_some_iff.mp h
  obtain ⟨_, hpacket, h⟩ := Option.bind_eq_some_iff.mp h
  cases hpacket
  obtain ⟨copied, hcopy, h⟩ := Option.bind_eq_some_iff.mp h
  obtain ⟨-, b, hb, hlength, -⟩ := MemoryManager.filled halloc hreceive
    (by rwa [Nat.mod_eq_of_lt device.mtu.isLt])
  obtain ⟨hresult, hbufs⟩ := MemoryManager.copyFromBuf_spec hcopy hb
  rw [hlength, Nat.min_eq_right hmtu] at hresult
  rw [if_neg (by omega), hresult, hbufs, hb] at h
  cases h
  refine ⟨rfl, rfl, fun protocol p hhanded => ?_⟩
  rw [transferToNetx_length hhanded, ← hlength]
  rfl

/-! ## The bounds -/

section Bounds

variable {frame : List (BitVec 8)} {packet : NxPacket} {payloadSize : ℕ} {r : Reception}

theorem Receives.fits_of_bounded (h : Receives frame packet r) (hfresh : packet.Fresh payloadSize)
    (hbounded : Bounded packet payloadSize frame.length r) :
    14 ≤ frame.length ∧ frame.length + 2 ≤ payloadSize := by
  obtain ⟨hprepend, hsize⟩ := hfresh
  have hwithin := hbounded.writes _ (h.writes ▸ List.mem_singleton_self _)
  have hread := hbounded.reads ((packet.prependPtr + 2#32).toNat + 13) (by rw [h.reads]; simp)
  dsimp only [Region.Within, Region.Contains, NxPacket.area] at hwithin hread
  rw [hprepend] at hwithin hread
  -- The pointer has not gone round: it is not before the data area.
  have hptr : (packet.dataStart + 2#32).toNat = packet.dataStart.toNat + 2 := by
    have hge := hwithin.1
    bv_omega
  rw [hptr] at hwithin hread
  omega

theorem Receives.bounded (h : Receives frame packet r) (hfresh : packet.Fresh payloadSize)
    (hword : frame.length < 2 ^ 32) (hheader : 14 ≤ frame.length)
    (hfits : frame.length + 2 ≤ payloadSize) : Bounded packet payloadSize frame.length r := by
  obtain ⟨hwrites, hreads, hhanded⟩ := h
  obtain ⟨hprepend, hsize⟩ := hfresh
  have hptr : (packet.dataStart + 2#32).toNat = packet.dataStart.toNat + 2 := by
    have hend := packet.dataEnd.isLt
    bv_omega
  rw [hprepend, hptr] at hwrites hreads
  refine ⟨fun w hw => ?_, fun x hx => ?_, fun protocol p hp => ?_, fun hnot => by omega⟩
  · rw [hwrites, List.mem_singleton] at hw
    subst hw
    dsimp only [Region.Within, NxPacket.area]
    omega
  · rw [hreads, List.mem_cons, List.mem_singleton] at hx
    rw [hprepend]
    dsimp only [Region.Contains]
    omega
  · rw [hhanded protocol p hp]
    bv_omega

end Bounds

/-! ## A frame of 13 bytes -/

/-- The type of the frame is cut after its first byte. -/
def runtFrame : List (BitVec 8) := List.replicate 12 0#8 ++ [8#8]

def largePacket : NxPacket := ⟨⟨100#32, 0#32⟩, 100#32, 100#32, 1636#32, 4#8⟩

theorem largePacket_fresh : largePacket.Fresh 1536 := ⟨rfl, by decide⟩

/-- The second byte of the type is read from the packet as it was, and NetX Duo gets a packet of
`2 ^ 32 - 1` bytes. -/
theorem runtFrame_received : ∃ r p, hardwareReceivePacket ⟨true, false, 1500#32, 4#32⟩
    (MemoryManager.init fun _ => 0#8) () (some 4000) (some runtFrame) (some largePacket) = some r ∧
      r.handed = some (.ip, p) ∧ p.length.toNat = 2 ^ 32 - 1 := ⟨_, _, rfl, rfl, by decide⟩

theorem runtFrame_not_bounded : ¬ ∀ (device : Device)
    (manager : MemoryManager.State Unit (BitVec 8)) (block : Option ℕ) (frame : List (BitVec 8))
    (packet : NxPacket) (payloadSize : ℕ) (r : Reception), packet.Fresh payloadSize →
    0 < frame.length → frame.length ≤ device.mtu.toNat →
    hardwareReceivePacket device manager () block (some frame) (some packet) = some r →
    Bounded packet payloadSize frame.length r := by
  intro hall
  obtain ⟨r, p, hr, hhanded, hlength⟩ := runtFrame_received
  have hbounded := hall _ _ _ _ _ _ r largePacket_fresh (by decide) (by decide) hr
  have hcount := hbounded.handed _ p hhanded
  rw [hlength] at hcount
  exact absurd hcount (by decide)

/-- A frame is received within bounds exactly if it has a header and fits the packet after the two
alignment bytes. -/
theorem bounded_iff {device : Device} {manager : MemoryManager.State Handle (BitVec 8)}
    {buffer : Handle} {block : Option ℕ} {frame : List (BitVec 8)} {packet : NxPacket}
    {payloadSize : ℕ} {r : Reception} (hfresh : packet.Fresh payloadSize)
    (hpos : 0 < frame.length) (hmtu : frame.length ≤ device.mtu.toNat)
    (h : hardwareReceivePacket device manager buffer block (some frame) (some packet) = some r) :
    Bounded packet payloadSize frame.length r ↔
      14 ≤ frame.length ∧ frame.length + 2 ≤ payloadSize := by
  have hreceives := hardwareReceivePacket_spec hpos hmtu h
  constructor
  · exact hreceives.fits_of_bounded hfresh
  · rintro ⟨hheader, hfits⟩
    exact hreceives.bounded hfresh (Nat.lt_of_le_of_lt hmtu device.mtu.isLt) hheader hfits

theorem bounded_iff_runt : ∃ r, hardwareReceivePacket ⟨true, false, 1500#32, 4#32⟩
    (MemoryManager.init fun _ => 0#8) () (some 4000) (some runtFrame) (some largePacket) = some r ∧
      (Bounded largePacket 1536 runtFrame.length r ↔
        14 ≤ runtFrame.length ∧ runtFrame.length + 2 ≤ 1536) := by
  obtain ⟨r, -, hr, -⟩ := runtFrame_received
  exact ⟨r, hr, bounded_iff largePacket_fresh (by decide) (by decide) hr⟩

end OpenIotSdk.Netx
