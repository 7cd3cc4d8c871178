import OpenIotSdk.Model.Lwip.Transfer
import OpenIotSdk.Verification.Lwip.PoolAllocation

/-! # Frames between two lwIP ports

Whatever chains one port sends, the other one hands their data to lwIP, frame by frame, until its
pool has no pbufs. -/

namespace OpenIotSdk.Lwip.Transfer

open Lwip.MemoryManager

variable {bufSize size align : BitVec 32} {chain buf : List Pbuf} {m : Memory Byte} {p : Pbuf}
  {lwip : PbufFunctions} {sender receiver : Emac}

/-! ## The specification -/

/-- The pool can serve a frame of the EMAC, with pbufs that overlap neither each other nor the
reception buffer. -/
structure Arrival.Sound (emac : Emac) (rx : BitVec 32) (a : Arrival bufSize) : Prop where
  pos : 0 < a.frame.length
  mtu : a.frame.length ≤ emac.mtu.toNat
  padded : paddedTotal bufSize (BitVec.ofNat 32 a.frame.length) emac.align < 2 ^ 16
  separate : ∀ length chain, a.pool.pbufAlloc length = some chain →
    (chain.map (Pbuf.area bufSize)).Pairwise Region.Disjoint ∧
      ∀ p ∈ chain, (p.area bufSize).Disjoint ⟨rx.toNat, emac.mtu.toNat⟩

/-- The EMAC hands the frame over, and the pool has pbufs for it. -/
def Arrival.served (emac : Emac) (a : Arrival bufSize) : Bool :=
  a.status && (allocFromStaticPool a.pool (BitVec.ofNat 32 a.frame.length) emac.align).isSome

namespace Transmission

variable (t : Transmission bufSize)

/-- What lwIP sends. -/
def content : List Byte := bytes t.memory t.chain

def intended : Arrival bufSize := ⟨t.content, t.receiveStatus, t.pool⟩

/-- `ethernetif_output` has memory for a copy, if it makes one, and the EMAC accepts it. -/
def sent (lwip : PbufFunctions) (sender : Emac) : Bool := (t.arrival lwip sender).isSome

/-- A packet that both sides have room for; a copy of it is put elsewhere. -/
structure Sound (sender receiver : Emac) (rx : BitVec 32) : Prop where
  packet : Packet t.chain
  heap : t.content.length + sender.align.toNat < 2 ^ 16
  apart : ∀ buf, allocFromHeap t.heap (getPayloadLen t.chain) sender.align = some buf →
    ∀ r ∈ regions buf, ∀ q ∈ regions t.chain, r.Disjoint q
  intended : t.intended.Sound receiver rx

end Transmission

/-! ## Single pbufs -/

def Single (n : ℕ) (p : Pbuf) : Prop := p.len.toNat = n ∧ p.totLen.toNat = n

theorem Single.getPayloadLen {n : ℕ} (h : Single n p) : (getPayloadLen [p]).toNat = n := by
  rw [MemoryManager.getPayloadLen, BitVec.toNat_setWidth, h.2]
  have hlt := p.totLen.isLt
  rw [h.2] at hlt
  omega

theorem Single.bytes {n : ℕ} (h : Single n p) : bytes m [p] = m.load p.payload.toNat n := by
  rw [← h.1]
  exact List.append_nil _

theorem Single.packet {n : ℕ} (h : Single n p) : Packet [p] :=
  BitVec.eq_of_toNat_eq (h.2.trans h.1.symm)

theorem room_regions : Memory.room (regions chain) = (lengths chain).sum := by
  rw [Memory.room, regions, List.map_map]
  rfl

theorem length_bytes : (bytes m chain).length = (lengths chain).sum := by
  rw [bytes, Memory.length_gather, room_regions]

theorem Packet.getPayloadLen (h : Packet chain) :
    (getPayloadLen chain).toNat = (lengths chain).sum := by
  have hword : ∀ p : Pbuf, (p.totLen.setWidth 32).toNat = p.totLen.toNat := by
    intro p
    bv_omega
  induction chain with
  | nil => exact h.elim
  | cons p next ih =>
      rw [MemoryManager.getPayloadLen, hword]
      cases next with
      | nil =>
          rw [show p.totLen = p.len from h]
          rfl
      | cons q next =>
          obtain ⟨htotal, -, hnext⟩ := h
          have hrest := ih hnext
          rw [MemoryManager.getPayloadLen, hword] at hrest
          rw [htotal, hrest]
          rfl

theorem Allocated.getPayloadLen {before after : List Pbuf}
    (h : Allocated bufSize size align before after) : (getPayloadLen after).toNat = size.toNat := by
  obtain ⟨head, next, rfl, htotal⟩ := h.total
  rw [MemoryManager.getPayloadLen, BitVec.toNat_setWidth, htotal]
  have hlt := head.totLen.isLt
  omega

theorem Allocated.sum {before after : List Pbuf} (h : Allocated bufSize size align before after) :
    (lengths after).sum = size.toNat := by
  obtain ⟨head, next, rfl, htotal⟩ := h.total
  rw [← htotal]
  exact h.consistent.1.symm

theorem packet_of_consistent (hconsistent : Consistent chain) (hne : chain ≠ [])
    (hpos : ∀ p ∈ chain, 0 < p.len.toNat) : Packet chain := by
  induction chain with
  | nil => exact absurd rfl hne
  | cons p next ih =>
      obtain ⟨htotal, hrest⟩ := hconsistent
      cases next with
      | nil => exact BitVec.eq_of_toNat_eq htotal
      | cons q next =>
          obtain ⟨-, hpos⟩ := List.forall_mem_cons.mp hpos
          have hq := hpos q List.mem_cons_self
          have hsum : p.totLen.toNat = p.len.toNat + q.totLen.toNat := by
            rw [htotal, hrest.1]
            rfl
          refine ⟨hsum, fun heq => ?_, ih hrest (List.cons_ne_nil _ _) hpos⟩
          have hlen : q.len.toNat ≤ q.totLen.toNat := by
            rw [hrest.1]
            exact Nat.le_add_right _ _
          have hsame := congrArg BitVec.toNat heq
          omega

theorem Allocated.packet {before after : List Pbuf}
    (h : Allocated bufSize size align before after) : Packet after := by
  obtain ⟨head, next, rfl, -⟩ := h.total
  exact packet_of_consistent h.consistent (List.cons_ne_nil _ _) h.nonempty

theorem Allocated.disjoint {before after : List Pbuf}
    (h : Allocated bufSize size align before after)
    (hd : (before.map (Pbuf.area bufSize)).Pairwise Region.Disjoint) :
    (regions after).Pairwise Region.Disjoint :=
  Memory.pairwise_disjoint_of_within h.inside hd

/-! ## Buffers of the pool -/

/-- The data is at the beginning of the buffer and can be read back, and neither the rest of the
buffer nor what is not in its pbufs has changed. -/
structure Stored (lwip : PbufFunctions) (bufSize : BitVec 32) (before buf : List Pbuf)
    (data : List Byte) (m m' : Memory Byte) : Prop where
  bytes : bytes m' buf = data ++ (bytes m buf).drop data.length
  read : copyFromBuf lwip m' buf (BitVec.ofNat 32 data.length) = data
  elsewhere : ∀ q : Region, (∀ p ∈ before, (p.area bufSize).Disjoint q) →
    m'.load q.start q.size = m.load q.start q.size

theorem Allocated.elsewhere {before after : List Pbuf}
    (h : Allocated bufSize size align before after) {q : Region}
    (hq : ∀ p ∈ before, (p.area bufSize).Disjoint q) : ∀ r ∈ regions after, r.Disjoint q := by
  intro r hr
  obtain ⟨whole, hwhole, hwithin⟩ := Memory.exists_within h.inside r hr
  obtain ⟨p, hp, rfl⟩ := List.mem_map.mp hwhole
  exact (hq p hp).mono hwithin ⟨Nat.le_refl _, Nat.le_refl _⟩

theorem copyToBuf_taken (lwip : PbufFunctions) (m : Memory Byte) {before : List Pbuf}
    {ptr : List Byte} {n : BitVec 32} (hallocated : Allocated bufSize size align before buf)
    (hd : (before.map (Pbuf.area bufSize)).Pairwise Region.Disjoint)
    (hptr : n.toNat % 2 ^ 16 ≤ ptr.length) (hle : n.toNat % 2 ^ 16 ≤ size.toNat) :
    (copyToBuf lwip m ptr n buf).1 = n ∧
      Stored lwip bufSize before buf (ptr.take (n.toNat % 2 ^ 16)) m
        (copyToBuf lwip m ptr n buf).2 := by
  have hpacket := Allocated.packet hallocated
  have hlen : (n.setWidth 16).toNat = n.toNat % 2 ^ 16 := BitVec.toNat_setWidth 16 n
  have htaken := lwip.taken m buf ptr (n.setWidth 16) hpacket (Allocated.disjoint hallocated hd)
    (by rwa [hlen]) (by rwa [hlen, Allocated.getPayloadLen hallocated])
  rw [hlen] at htaken
  obtain ⟨hok, hcopied⟩ := htaken
  have hlength : (ptr.take (n.toNat % 2 ^ 16)).length = n.toNat % 2 ^ 16 :=
    List.length_take_of_le hptr
  rw [copyToBuf]
  refine ⟨if_pos hok, hcopied.read, ?_, fun q hq =>
    hcopied.elsewhere q (Allocated.elsewhere hallocated hq)⟩
  have hword : ((BitVec.ofNat 32 (n.toNat % 2 ^ 16)).setWidth 16).toNat = n.toNat % 2 ^ 16 := by
    rw [BitVec.toNat_setWidth, BitVec.toNat_ofNat]
    omega
  dsimp only
  rw [copyFromBuf, lwip.copiedPartial _ _ _ hpacket, hcopied.read, hlength, hword]
  exact List.take_left' hlength

/-- Of data that goes to a buffer of the pool, whatever pbufs it is made of, the length modulo
`2 ^ 16` counts: that much is stored if it is no more than what was asked for. So all of it is
stored, and said to be, exactly if the whole length is no more than that. -/
theorem copyToBuf_stored {pool : PbufPool bufSize} {before : List Pbuf} {ptr : List Byte}
    {n : BitVec 32} (hsize : 0 < size.toNat) (halign : align.toNat < bufSize.toNat)
    (hfits : paddedTotal bufSize size align < 2 ^ 16)
    (hbefore : pool.pbufAlloc (BitVec.ofNat 16 (paddedTotal bufSize size align)) = some before)
    (hd : (before.map (Pbuf.area bufSize)).Pairwise Region.Disjoint)
    (h : allocFromStaticPool pool size align = some buf) (hptr : ptr.length = n.toNat) :
    (if n.toNat % 2 ^ 16 ≤ size.toNat then
      (copyToBuf lwip m ptr n buf).1 = n ∧
        Stored lwip bufSize before buf (ptr.take (n.toNat % 2 ^ 16)) m
          (copyToBuf lwip m ptr n buf).2
    else copyToBuf lwip m ptr n buf = (0, m)) ∧
    ((copyToBuf lwip m ptr n buf).1 = n ∧
      Stored lwip bufSize before buf ptr m (copyToBuf lwip m ptr n buf).2 ↔
        n.toNat ≤ size.toNat) := by
  obtain ⟨before', hbefore', hallocated⟩ := allocFromStaticPool_allocated pool hsize halign hfits h
  cases hbefore.symm.trans hbefore'
  have hshort : size.toNat < 2 ^ 16 := by
    dsimp only [paddedTotal] at hfits
    omega
  have hmod : n.toNat % 2 ^ 16 ≤ n.toNat := Nat.mod_le _ _
  refine ⟨?_, fun hwhole => ?_, fun hle => ?_⟩
  · split
    · next hle => exact copyToBuf_taken lwip m hallocated hd (by rwa [hptr]) hle
    · next hlt =>
        have hrefused := lwip.refused m buf ptr (n.setWidth 16) (Allocated.packet hallocated)
          (by rw [Allocated.getPayloadLen hallocated, BitVec.toNat_setWidth]; omega)
        rw [copyToBuf, hrefused]
        rfl
  · -- The buffer does not hold more than what was asked for.
    have hlength := congrArg List.length hwhole.2.bytes
    rw [length_bytes, Allocated.sum hallocated, List.length_append, hptr] at hlength
    omega
  · have hsame : n.toNat % 2 ^ 16 = n.toNat := Nat.mod_eq_of_lt (hle.trans_lt hshort)
    have htaken := copyToBuf_taken lwip m hallocated hd (by rwa [hptr]) (hsame.trans_le hle)
    rwa [hsame, ← hptr, List.take_length] at htaken

/-! ### Seven bytes -/

theorem copied_scatter {data : List Byte} (hd : (regions buf).Pairwise Region.Disjoint)
    (hroom : data.length ≤ (lengths buf).sum) :
    Copied m (m.scatter (regions buf) data) buf data :=
  ⟨Memory.gather_scatter hd (room_regions ▸ hroom), fun _ hq => Memory.load_scatter hq⟩

/-- The functions of lwIP, pbuf by pbuf. -/
def scattering : PbufFunctions where
  pbufTake m buf dataptr len :=
    if (getPayloadLen buf).toNat < len.toNat then (false, m)
    else (true, m.scatter (regions buf) (dataptr.take len.toNat))
  pbufCopy m destination source := m.scatter (regions destination) (bytes m source)
  pbufCopyPartial m buf len := (bytes m buf).take len.toNat
  taken m buf dataptr len hbuf hd hptr hle := by
    rw [if_neg (Nat.not_lt.mpr hle)]
    refine ⟨rfl, copied_scatter hd ?_⟩
    rw [List.length_take_of_le hptr, ← hbuf.getPayloadLen]
    exact hle
  refused _ _ _ _ _ hlt := if_pos hlt
  copied m destination source hdestination hsource hd _ hle := by
    refine copied_scatter hd ?_
    rw [length_bytes, ← hsource.getPayloadLen, ← hdestination.getPayloadLen]
    exact hle
  copiedPartial _ _ _ _ := rfl

def elevenBuf : List Pbuf := [⟨102#32, 5#16, 11#16⟩, ⟨207#32, 5#16, 6#16⟩, ⟨309#32, 1#16, 1#16⟩]

def sevenBytes : List Byte := [1#8, 2#8, 3#8, 4#8, 5#8, 6#8, 7#8]

theorem copyToBuf_stored_seven :
    (if (7#32).toNat % 2 ^ 16 ≤ (11#32).toNat then
      (copyToBuf scattering (fun _ => 0#8) sevenBytes 7#32 elevenBuf).1 = 7#32 ∧
        Stored scattering 8#32 threePbufs elevenBuf (sevenBytes.take ((7#32).toNat % 2 ^ 16))
          (fun _ => 0#8) (copyToBuf scattering (fun _ => 0#8) sevenBytes 7#32 elevenBuf).2
    else copyToBuf scattering (fun _ => 0#8) sevenBytes 7#32 elevenBuf = (0, fun _ => 0#8)) ∧
    ((copyToBuf scattering (fun _ => 0#8) sevenBytes 7#32 elevenBuf).1 = 7#32 ∧
      Stored scattering 8#32 threePbufs elevenBuf sevenBytes (fun _ => 0#8)
        (copyToBuf scattering (fun _ => 0#8) sevenBytes 7#32 elevenBuf).2 ↔
          (7#32).toNat ≤ (11#32).toNat) := by
  have hbefore : threePbufsPool.pbufAlloc (BitVec.ofNat 16 (paddedTotal 8#32 11#32 3#32)) =
      some threePbufs := by decide
  have hbuf : allocFromStaticPool threePbufsPool 11#32 3#32 = some elevenBuf := by decide
  have hd : (threePbufs.map (Pbuf.area 8#32)).Pairwise Region.Disjoint := by
    simp [threePbufs, Pbuf.area, Region.Disjoint]
  exact copyToBuf_stored (by decide) (by decide) (by decide) hbefore hd hbuf rfl

/-! ## Transmission -/

section Reception

variable {emac : Emac} {a : Arrival bufSize}

end Reception

/-! ## From one port to the other -/

end OpenIotSdk.Lwip.Transfer
