import OpenIotSdk.Verification.MemoryManager.Integrity
import OpenIotSdk.Verification.Netx.Header

/-! # The content of a transmitted frame

`nx_packet_length` counts the data of a whole chain, but the driver copies that many bytes from
the first packet. -/

namespace OpenIotSdk.Netx

variable {Handle : Type} [DecidableEq Handle]

/-! ## The specification -/

namespace NxPacket

def area (p : NxPacket) : Region := ⟨p.dataStart.toNat, p.dataEnd.toNat - p.dataStart.toNat⟩

def data (memory : Memory (BitVec 8)) (p : NxPacket) : List (BitVec 8) :=
  memory.load p.prependPtr.toNat (p.appendPtr.toNat - p.prependPtr.toNat)

/-- The data lies in the data area. -/
structure Sound (p : NxPacket) : Prop where
  start : p.dataStart.toNat ≤ p.prependPtr.toNat
  order : p.prependPtr.toNat ≤ p.appendPtr.toNat
  bound : p.appendPtr.toNat ≤ p.dataEnd.toNat

end NxPacket

/-- Packets that `nx_packet_next` links. The first one has the length of all the data, and room
for the Ethernet header. -/
structure Chain where
  first : NxPacket
  next : List NxPacket
  sound : ∀ p ∈ first :: next, p.Sound
  headroom : first.dataStart.toNat + 16 ≤ first.prependPtr.toNat
  length : first.length.toNat =
    ((first :: next).map fun p => p.appendPtr.toNat - p.prependPtr.toNat).sum

namespace Chain

/-- The data of all packets, and of those after the first one. -/
def data (memory : Memory (BitVec 8)) (c : Chain) : List (BitVec 8) :=
  (c.first :: c.next).flatMap (·.data memory)

def rest (memory : Memory (BitVec 8)) (c : Chain) : List (BitVec 8) :=
  c.next.flatMap (·.data memory)

/-- `x` is in the data area of a packet of the chain. -/
def Covers (c : Chain) (x : ℕ) : Prop := ∃ p ∈ c.first :: c.next, p.area.Contains x

/-- What lies directly behind the data of the first packet is in data areas of the chain, and
happens to be the data of the further packets. -/
structure Contiguous (memory : Memory (BitVec 8)) (c : Chain) : Prop where
  same : memory.load c.first.appendPtr.toNat (c.rest memory).length = c.rest memory
  covered : ∀ x, (Region.mk c.first.appendPtr.toNat (c.rest memory).length).Contains x → c.Covers x

end Chain

/-- The EMAC gets the header and the data of the chain, and nothing else was read. -/
structure FrameSent (driver : NxIpDriver) (chain : Chain) (memory : Memory (BitVec 8))
    (t : Transmission Handle) : Prop where
  content : ∃ b, t.manager.bufs t.buffer = some b ∧
    t.manager.memory.load b.data b.length = ethernetHeader driver ++ chain.data memory
  inside : ∀ r ∈ t.reads, ∀ x, r.Contains x → chain.Covers x

/-! ## The buffer -/

/-- The buffer gets as many bytes as the packet says, from where it begins. -/
theorem hardwareSendPacket_spec {device : Device} {packet : Packet}
    {manager : MemoryManager.State Handle (BitVec 8)} {buffer : Handle} {block : Option ℕ}
    {t : Transmission Handle}
    (h : hardwareSendPacket device packet manager buffer block = some t) :
    (∃ b, t.manager.bufs t.buffer = some b ∧
      t.manager.memory.load b.data b.length = packet.bytes manager.memory) ∧
    t.reads = [⟨packet.prependPtr.toNat, packet.length.toNat⟩] := by
  rw [hardwareSendPacket] at h
  split at h
  · cases h
  · obtain ⟨address, -, h⟩ := Option.bind_eq_some_iff.mp h
    obtain ⟨allocated, halloc, h⟩ := Option.bind_eq_some_iff.mp h
    obtain ⟨copied, hcopy, h⟩ := Option.bind_eq_some_iff.mp h
    cases h
    have hfits : packet.length.toNat % 2 ^ 32 = packet.length.toNat :=
      Nat.mod_eq_of_lt packet.length.isLt
    obtain ⟨hresult, b, hb, hlength, hload⟩ := MemoryManager.filled halloc hcopy
      (by rw [Memory.length_load, hfits])
    rw [Memory.length_load] at hresult
    refine ⟨⟨b, hb, ?_⟩, by rw [hresult]⟩
    rw [hlength, hload, (MemoryManager.alloc_spec halloc).1]
    rfl

/-! ## The header and the data -/

section Fields

variable {chain : Chain} {mtu : BitVec 32}

theorem addHeader_prependPtr (chain : Chain) :
    chain.first.addHeader.prependPtr.toNat = chain.first.prependPtr.toNat - 14 := by
  have := chain.headroom
  simp only [Packet.addHeader, ethernetFrameSize]
  bv_omega

theorem ethernetFramePtr_toNat (chain : Chain) :
    (chain.first.addHeader.prependPtr - ethernetFrameAlignmentBytesSize).toNat =
      chain.first.prependPtr.toNat - 16 := by
  have := chain.headroom
  simp only [Packet.addHeader, ethernetFrameSize, ethernetFrameAlignmentBytesSize]
  bv_omega

theorem addHeader_length (h : chain.first.length.toNat + 14 ≤ mtu.toNat) :
    chain.first.addHeader.length.toNat = 14 + chain.first.length.toNat := by
  simp only [Packet.addHeader, ethernetFrameSize]
  bv_omega

end Fields

theorem length_data (memory : Memory (BitVec 8)) (ps : List NxPacket) :
    (ps.flatMap (·.data memory)).length =
      (ps.map fun p => p.appendPtr.toNat - p.prependPtr.toNat).sum := by
  induction ps with
  | nil => rfl
  | cons p ps ih =>
      rw [List.flatMap_cons, List.length_append, ih, List.map_cons, List.sum_cons]
      simp only [NxPacket.data, Memory.length_load]

theorem Chain.length_eq (memory : Memory (BitVec 8)) (c : Chain) :
    c.first.length.toNat =
      c.first.appendPtr.toNat - c.first.prependPtr.toNat + (c.rest memory).length := by
  rw [c.length, List.map_cons, List.sum_cons, Chain.rest, length_data]

/-- The bytes that are copied: the header, the data of the first packet, and what lies behind. -/
theorem bytes_addHeader (e : Endianness) (driver : NxIpDriver) (chain : Chain)
    (memory : Memory (BitVec 8)) {mtu : BitVec 32}
    (h : chain.first.length.toNat + 14 ≤ mtu.toNat) :
    chain.first.addHeader.bytes (addEthernetHeader e driver
        (chain.first.addHeader.prependPtr - ethernetFrameAlignmentBytesSize) memory) =
      ethernetHeader driver ++ (chain.first.data memory ++
        memory.load chain.first.appendPtr.toNat (chain.rest memory).length) := by
  have hroom := chain.headroom
  have horder := (chain.sound _ List.mem_cons_self).order
  have hheader := addEthernetHeader_header e driver
    (chain.first.addHeader.prependPtr - ethernetFrameAlignmentBytesSize) memory
  have hframe := ethernetFramePtr_toNat chain
  have hstart : chain.first.prependPtr.toNat - 16 + 2 = chain.first.prependPtr.toNat - 14 := by
    omega
  have hdata : chain.first.prependPtr.toNat - 14 + 14 = chain.first.prependPtr.toNat := by omega
  rw [hframe, hstart] at hheader
  rw [Packet.bytes, addHeader_prependPtr, addHeader_length h, Memory.load_add, hheader, hdata,
    chain.length_eq memory, Memory.load_add, Nat.add_sub_cancel' horder]
  -- The header is written before the data.
  have hbehind (a n : ℕ) (ha : chain.first.prependPtr.toNat ≤ a) :
      Memory.load (addEthernetHeader e driver
        (chain.first.addHeader.prependPtr - ethernetFrameAlignmentBytesSize) memory) a n =
        memory.load a n := by
    refine Memory.load_congr fun i _ => addEthernetHeader_unchanged e driver _ memory ?_
    dsimp only [Region.Contains]
    omega
  rw [hbehind _ _ (Nat.le_refl _), hbehind _ _ horder]
  rfl

theorem covers_first (chain : Chain) {x : ℕ} (hstart : chain.first.prependPtr.toNat - 14 ≤ x)
    (hbound : x < chain.first.appendPtr.toNat) : chain.Covers x := by
  have hroom := chain.headroom
  have hsound := chain.sound _ List.mem_cons_self
  have hend := hsound.bound
  refine ⟨chain.first, List.mem_cons_self, ?_⟩
  dsimp only [NxPacket.area, Region.Contains]
  omega

/-! ## Transmissions -/

theorem frameSent_iff_contiguous {e : Endianness} {driver : NxIpDriver} {device : Device}
    {chain : Chain} {manager : MemoryManager.State Handle (BitVec 8)} {buffer : Handle}
    {block : Option ℕ} {t : Transmission Handle} (hdriver : driver.packet = chain.first)
    (hlength : chain.first.length.toNat + 14 ≤ device.mtu.toNat)
    (h : nxLinkPacketSend e driver device manager buffer block = some t) :
    FrameSent driver chain manager.memory t ↔ chain.Contiguous manager.memory := by
  rw [nxLinkPacketSend] at h
  split at h
  · cases h
  · dsimp only at h
    split at h
    · cases h
    · obtain ⟨⟨b, hb, hload⟩, hreads⟩ := hardwareSendPacket_spec h
      rw [hdriver, bytes_addHeader e driver chain manager.memory hlength] at hload
      rw [hdriver] at hreads
      have horder := (chain.sound _ List.mem_cons_self).order
      have hroom := chain.headroom
      have htotal := chain.length_eq manager.memory
      constructor
      · rintro ⟨⟨b', hb', hcontent⟩, hinside⟩
        cases hb.symm.trans hb'
        rw [hload, List.append_cancel_left_eq] at hcontent
        refine ⟨List.append_cancel_left hcontent, fun x hx => ?_⟩
        refine hinside _ (hreads ▸ List.mem_singleton_self _) x ?_
        dsimp only [Region.Contains] at hx ⊢
        rw [addHeader_prependPtr, addHeader_length hlength]
        omega
      · rintro ⟨hsame, hcovered⟩
        refine ⟨⟨b, hb, ?_⟩, fun r hr x hx => ?_⟩
        · rw [hload, hsame]
          rfl
        · rw [hreads, List.mem_singleton] at hr
          subst hr
          dsimp only [Region.Contains] at hx
          rw [addHeader_prependPtr, addHeader_length hlength] at hx
          by_cases hfirst : x < chain.first.appendPtr.toNat
          · exact covers_first chain hx.1 hfirst
          · refine hcovered x ?_
            dsimp only [Region.Contains]
            omega

theorem Chain.Contiguous.of_rest_nil {memory : Memory (BitVec 8)} {c : Chain}
    (h : c.rest memory = []) : c.Contiguous memory := by
  refine ⟨by rw [h]; rfl, fun x hx => ?_⟩
  dsimp only [Region.Contains] at hx
  rw [h, List.length_nil] at hx
  omega

/-! ## A chain of two packets -/

def splitChain : Chain where
  first := ⟨⟨116#32, 3#32⟩, 118#32, 100#32, 120#32, 4#8⟩
  next := [⟨⟨200#32, 1#32⟩, 201#32, 200#32, 204#32, 4#8⟩]
  sound := by
    simp only [List.mem_cons, List.not_mem_nil, or_false, forall_eq_or_imp, forall_eq]
    exact ⟨⟨by decide, by decide, by decide⟩, by decide, by decide, by decide⟩
  headroom := by decide
  length := by decide

def splitDriver : NxIpDriver :=
  ⟨.packetSend, 0x1122#32, 0x33445566#32, ⟨0#32, 0#32⟩, splitChain.first⟩

def splitDevice : Device := ⟨true, false, 1500#32, 4#32⟩

def splitManager : MemoryManager.State Unit (BitVec 8) :=
  MemoryManager.init fun x => if x = 200 then 9#8 else 0#8

/-- The word-swapping macro of a little-endian target. -/
def littleEndianTarget : Endianness := ⟨Word.swap, Word.littleEndian_swap⟩

theorem splitChain_sent : ∃ t, nxLinkPacketSend littleEndianTarget splitDriver splitDevice
    splitManager () (some 1000) = some t := ⟨_, rfl⟩

/-- The last byte of the frame is what lies behind the first packet's data. -/
theorem splitChain_not_sent : ¬ ∀ (e : Endianness) (driver : NxIpDriver) (device : Device)
    (chain : Chain) (manager : MemoryManager.State Unit (BitVec 8)) (block : Option ℕ)
    (t : Transmission Unit), driver.packet = chain.first →
    chain.first.length.toNat + 14 ≤ device.mtu.toNat →
    nxLinkPacketSend e driver device manager () block = some t →
    FrameSent driver chain manager.memory t := by
  intro hall
  obtain ⟨t, ht⟩ := splitChain_sent
  have hlength : splitChain.first.length.toNat + 14 ≤ splitDevice.mtu.toNat := by decide
  have hsent := hall _ _ _ splitChain _ _ t rfl hlength ht
  have hsame := ((frameSent_iff_contiguous rfl hlength ht).mp hsent).same
  exact absurd hsame (by decide)

/-- For every chain that fits: the frame is right exactly if all the data is in the first packet,
or what lies behind it happens to be the data of the others. -/
theorem frameSent_iff {e : Endianness} {driver : NxIpDriver} {device : Device}
    {chain : Chain} {manager : MemoryManager.State Handle (BitVec 8)} {buffer : Handle}
    {block : Option ℕ} {t : Transmission Handle} (hdriver : driver.packet = chain.first)
    (hlength : chain.first.length.toNat + 14 ≤ device.mtu.toNat)
    (h : nxLinkPacketSend e driver device manager buffer block = some t) :
    FrameSent driver chain manager.memory t ↔
      chain.rest manager.memory = [] ∨ chain.Contiguous manager.memory := by
  rw [frameSent_iff_contiguous hdriver hlength h]
  exact ⟨.inr, fun hcases => hcases.elim .of_rest_nil id⟩

theorem frameSent_iff_split : ∃ t,
    nxLinkPacketSend littleEndianTarget splitDriver splitDevice splitManager () (some 1000) =
        some t ∧
      (FrameSent splitDriver splitChain splitManager.memory t ↔
        splitChain.rest splitManager.memory = [] ∨ splitChain.Contiguous splitManager.memory) := by
  obtain ⟨t, ht⟩ := splitChain_sent
  exact ⟨t, ht, frameSent_iff rfl (by decide) ht⟩

end OpenIotSdk.Netx
