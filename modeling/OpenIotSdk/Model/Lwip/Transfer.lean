import OpenIotSdk.Library.Scattered
import OpenIotSdk.Model.Lwip.MemoryManager

/-! # Frames through the lwIP port

The data path of `lwip_emac_netif.c`: `ethernetif_output` up to the frame that the EMAC transmits,
and the loop of `ethernetif_process_input` from the frames that the EMAC has received to what
`input` is called with. The functions of lwIP that copy and the EMAC are parameters. -/

namespace OpenIotSdk.Lwip.Transfer

open Lwip.MemoryManager

abbrev Byte := BitVec 8

/-! ## Pbufs -/

/-- Where the data of a chain lies. -/
def regions (chain : List Pbuf) : List Region :=
  chain.map fun p => ⟨p.payload.toNat, p.len.toNat⟩

/-- The data of a chain. -/
def bytes (m : Memory Byte) (chain : List Pbuf) : List Byte := m.gather (regions chain)

/-- A chain that is one packet, as `pbuf.h` describes it: `tot_len` is `len` and the `tot_len` of
the next pbuf, and equals `len` in the last pbuf only. -/
def Packet : List Pbuf → Prop
  | [] => False
  | [p] => p.totLen = p.len
  | p :: q :: next =>
      p.totLen.toNat = p.len.toNat + q.totLen.toNat ∧ p.totLen ≠ p.len ∧ Packet (q :: next)

/-- The data has been copied to the beginning of a buffer, and nowhere else. -/
structure Copied (m m' : Memory Byte) (buf : List Pbuf) (data : List Byte) : Prop where
  read : bytes m' buf = data ++ (bytes m buf).drop data.length
  elsewhere : ∀ q : Region, (∀ r ∈ regions buf, r.Disjoint q) →
    m'.load q.start q.size = m.load q.start q.size

/-- The functions of lwIP that copy, as they are documented for buffers whose pbufs do not
overlap. -/
structure PbufFunctions where
  /-- Whether it answers `ERR_OK`, and the memory then; `dataptr` is what can be read there. -/
  pbufTake : Memory Byte → (buf : List Pbuf) → (dataptr : List Byte) → (len : BitVec 16) →
    Bool × Memory Byte
  /-- The memory then, whatever it answers. -/
  pbufCopy : Memory Byte → (destination source : List Pbuf) → Memory Byte
  /-- What is copied, with the offset 0. -/
  pbufCopyPartial : Memory Byte → (buf : List Pbuf) → (len : BitVec 16) → List Byte
  taken : ∀ m buf dataptr len, Packet buf → (regions buf).Pairwise Region.Disjoint →
    len.toNat ≤ dataptr.length → len.toNat ≤ (getPayloadLen buf).toNat →
    (pbufTake m buf dataptr len).1 = true ∧
      Copied m (pbufTake m buf dataptr len).2 buf (dataptr.take len.toNat)
  /-- The buffer is not large enough. -/
  refused : ∀ m buf dataptr len, Packet buf → (getPayloadLen buf).toNat < len.toNat →
    pbufTake m buf dataptr len = (false, m)
  copied : ∀ m destination source, Packet destination → Packet source →
    (regions destination).Pairwise Region.Disjoint →
    (∀ r ∈ regions destination, ∀ q ∈ regions source, r.Disjoint q) →
    (getPayloadLen source).toNat ≤ (getPayloadLen destination).toNat →
    Copied m (pbufCopy m destination source) destination (bytes m source)
  copiedPartial : ∀ m buf len, Packet buf →
    pbufCopyPartial m buf len = (bytes m buf).take len.toNat

/-! ## The memory manager -/

section

variable (lwip : PbufFunctions)

/-- `lwip_mm_copy`. -/
def copy (m : Memory Byte) (source destination : List Pbuf) : Memory Byte :=
  lwip.pbufCopy m destination source

/-- `lwip_mm_copy_to_buf`: `pbuf_take` gets the low 16 bits of the size. -/
def copyToBuf (m : Memory Byte) (ptr : List Byte) (size : BitVec 32) (buf : List Pbuf) :
    BitVec 32 × Memory Byte :=
  let (ok, m) := lwip.pbufTake m buf ptr (size.setWidth 16)
  (if ok then size else 0, m)

/-- What `lwip_mm_copy_from_buf` copies; its length is returned. -/
def copyFromBuf (m : Memory Byte) (buf : List Pbuf) (size : BitVec 32) : List Byte :=
  lwip.pbufCopyPartial m buf (size.setWidth 16)

end

/-! ## The EMAC -/

/-- The EMAC, with the answers of `mdh_emac_get_mtu` and `mdh_emac_get_align`. Whether a call
fails is not decided here. -/
structure Emac where
  mtu : BitVec 32
  align : BitVec 32
  /-- The frame that `mdh_emac_transmit` sends of a buffer, unless it fails. -/
  transmit : Memory Byte → (buf : List Pbuf) → List Byte
  /-- The memory and the buffer that `mdh_emac_receive` leaves for a frame, unless it fails. -/
  receive : (frame : List Byte) → Memory Byte → (buf : List Pbuf) → Memory Byte × List Pbuf
  transmitted : ∀ m p, p.totLen = p.len → transmit m [p] = m.load p.payload.toNat p.len.toNat
  received : ∀ frame m p, frame.length ≤ p.len.toNat →
    (receive frame m [p]).2 = setPayloadLen [p] (BitVec.ofNat 32 frame.length) ∧
      (receive frame m [p]).1.load p.payload.toNat frame.length = frame

/-! ## Transmission -/

/-- The frame of `ethernetif_output`, unless it fails; `status` is whether `mdh_emac_transmit`
answers `MDH_EMAC_STATUS_NO_ERROR`. -/
def ethernetifOutput (lwip : PbufFunctions) (emac : Emac) (heap : PbufHeap) (status : Bool)
    (m : Memory Byte) : List Pbuf → Option (List Byte)
  | [p] => if status then some (emac.transmit m [p]) else none
  | chain =>
      match allocFromHeap heap (getPayloadLen chain) emac.align with
      | none => none
      | some buf => if status then some (emac.transmit (copy lwip m chain buf) buf) else none

/-! ## Reception -/

/-- `context->rx_buffer` after `ethernetif_init`. -/
def rxBuffer (emac : Emac) (heap : PbufHeap) : Option (List Pbuf) :=
  allocFromHeap heap emac.mtu emac.align

/-- A frame that the EMAC holds, and what is answered when it is fetched. -/
structure Arrival (bufSize : BitVec 32) where
  frame : List Byte
  status : Bool -- `mdh_emac_receive` answers `MDH_EMAC_STATUS_NO_ERROR`
  pool : PbufPool bufSize

/-- `ethernetif_process_input`: the data of the pbufs that `input` is called with, in order. An
error status, an empty frame and a pool without pbufs end the loop. -/
def processInput {bufSize : BitVec 32} (lwip : PbufFunctions) (emac : Emac) (m : Memory Byte)
    (rx : List Pbuf) : List (Arrival bufSize) → List (List Byte)
  | [] => []
  | a :: arrivals =>
      if a.status = false then []
      else
        let (m, rx) := emac.receive a.frame m (setPayloadLen rx emac.mtu)
        if getPayloadLen rx = 0 then []
        else match allocFromStaticPool a.pool (getPayloadLen rx) emac.align with
          | none => []
          | some buf =>
              let m := copy lwip m rx buf
              bytes m buf :: processInput lwip emac m rx arrivals

/-! ## From one port to another -/

/-- What one port sends, and what both ports are answered. -/
structure Transmission (bufSize : BitVec 32) where
  memory : Memory Byte
  chain : List Pbuf
  heap : PbufHeap
  transmitStatus : Bool
  receiveStatus : Bool
  pool : PbufPool bufSize

variable {bufSize : BitVec 32}

/-- What the EMAC of the other port gets of it. -/
def Transmission.arrival (lwip : PbufFunctions) (sender : Emac) (t : Transmission bufSize) :
    Option (Arrival bufSize) :=
  (ethernetifOutput lwip sender t.heap t.transmitStatus t.memory t.chain).map
    (⟨·, t.receiveStatus, t.pool⟩)

end OpenIotSdk.Lwip.Transfer
