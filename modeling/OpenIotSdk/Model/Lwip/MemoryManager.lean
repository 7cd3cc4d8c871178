import Mathlib.Data.BitVec

/-! # The memory manager of lwIP

`lwip_memory_manager.c`, on a target with 32-bit pointers. A chain that `next` links is a list. -/

namespace OpenIotSdk.Lwip.MemoryManager

/-- The fields of a `struct pbuf` that are read or changed here. -/
structure Pbuf where
  payload : BitVec 32
  len : BitVec 16
  totLen : BitVec 16 -- `tot_len`
  deriving DecidableEq

/-- What `pbuf_alloc` makes of pool pbufs: it fills each one before it takes the next, and counts
in `tot_len` what is from there on. -/
inductive Filled (bufSize : ℕ) : ℕ → List Pbuf → Prop where
  | last {p n} : n ≤ bufSize → p.len.toNat = n → p.totLen.toNat = n →
      p.payload.toNat + bufSize ≤ 2 ^ 32 → Filled bufSize n [p]
  | next {p n chain} : bufSize < n → p.len.toNat = bufSize → p.totLen.toNat = n →
      p.payload.toNat + bufSize ≤ 2 ^ 32 → Filled bufSize (n - bufSize) chain →
      Filled bufSize n (p :: chain)

/-- `pbuf_alloc` with `PBUF_RAW` and `PBUF_POOL`, where `bufSize` is
`LWIP_MEM_ALIGN_SIZE(PBUF_POOL_BUFSIZE)`. -/
structure PbufPool (bufSize : BitVec 32) where
  pbufAlloc : BitVec 16 → Option (List Pbuf)
  filled : ∀ length chain, pbufAlloc length = some chain →
    Filled bufSize.toNat length.toNat chain

/-- `pbuf_alloc` with `PBUF_RAW` and `PBUF_RAM`, which answers one pbuf of the length asked for. -/
structure PbufHeap where
  pbufAlloc : BitVec 16 → Option Pbuf
  filled : ∀ length p, pbufAlloc length = some p → p.len = length ∧ p.totLen = length

/-! ## Alignment -/

def countTotalAlign (bufSize size align : BitVec 32) : BitVec 32 :=
  let buffers := size / (bufSize - align)
  let buffers := if size % (bufSize - align) ≠ 0 then buffers + 1 else buffers
  buffers * align

/-- The inner loop of `set_total_len`. -/
def addTailing (totalLen : BitVec 32) : List Pbuf → BitVec 32
  | [] => totalLen
  | pbuf :: next => addTailing (totalLen + pbuf.len.setWidth 32) next

/-- The outer loop of `set_total_len`. -/
def setTotalLens : List Pbuf → List Pbuf
  | [] => []
  | pbuf :: next =>
      { pbuf with totLen := (addTailing (pbuf.len.setWidth 32) next).setWidth 16 } ::
        setTotalLens next

def setTotalLen : List Pbuf → List Pbuf
  | [pbuf] => [{ pbuf with totLen := pbuf.len }]
  | chain => setTotalLens chain

/-- One round of the loop of `align_memory`. -/
def alignPbuf (align : BitVec 32) (pbuf : Pbuf) : Pbuf :=
  let remainder := pbuf.payload % align
  let offset := align - remainder
  let offset := if align ≤ offset then align else offset
  { pbuf with
    payload := if remainder ≠ 0 then pbuf.payload + offset else pbuf.payload
    len := (pbuf.len.setWidth 32 - align).setWidth 16 }

def alignMemory (chain : List Pbuf) (align : BitVec 32) : List Pbuf :=
  if align = 0 then chain else setTotalLen (chain.map (alignPbuf align))

/-! ## Allocation -/

/-- `lwip_mm_alloc_from_heap`. -/
def allocFromHeap (heap : PbufHeap) (size align : BitVec 32) : Option (List Pbuf) :=
  (heap.pbufAlloc ((size + align).setWidth 16)).map fun pbuf => alignMemory [pbuf] align

variable {bufSize : BitVec 32}

/-- `lwip_mm_alloc_from_static_pool`. The length that `pbuf_alloc` takes has 16 bits. -/
def allocFromStaticPool (pool : PbufPool bufSize) (size align : BitVec 32) : Option (List Pbuf) :=
  let totalAlign := countTotalAlign bufSize size align
  (pool.pbufAlloc ((size + totalAlign).setWidth 16)).map (alignMemory · align)

/-! ## The length of the payload -/

/-- `lwip_mm_get_payload_len`; a buffer is no empty chain. -/
def getPayloadLen : List Pbuf → BitVec 32
  | [] => 0
  | pbuf :: _ => pbuf.totLen.setWidth 32

/-- `lwip_mm_set_payload_len`, which stores the length in the first pbuf. -/
def setPayloadLen (chain : List Pbuf) (size : BitVec 32) : List Pbuf :=
  match chain with
  | [] => []
  | pbuf :: next => setTotalLen ({ pbuf with len := size.setWidth 16 } :: next)

end OpenIotSdk.Lwip.MemoryManager
