import Mathlib.Data.BitVec
import Mathlib.Data.List.Basic

/-! # `alloc_from_heap` in 32 bits

`iotsdk_memory_manager.c` where `size_t` and pointers have 32 bits, with both calls of
`iotsdk_alloc_malloc`. -/

namespace OpenIotSdk.MemoryManager.Heap

/-- A block of the heap. -/
structure Block where
  address : BitVec 32
  size : BitVec 32
  deriving DecidableEq

/-- `iotsdk_alloc_malloc`: where it finds a block of a size, if it does. -/
structure Malloc where
  answer : BitVec 32 → Option (BitVec 32)
  fits : ∀ size address, answer size = some address → address.toNat + size.toNat ≤ 2 ^ 32

/-- `priv_memory_buf_t`. -/
structure PrivMemoryBuf where
  allocatedMemory : BitVec 32
  data : BitVec 32
  capacity : BitVec 32
  length : BitVec 32
  deriving DecidableEq

/-- `sizeof(priv_memory_buf_t)`. -/
def sizeofPrivMemoryBuf : BitVec 32 := 16

/-- The address from which on the data is aligned. -/
def alignedData (data align : BitVec 32) : BitVec 32 :=
  if align = 0 then data
  else
    let remainder := data % align
    if remainder = 0 then data
    else
      let offset := align - remainder
      data + if align ≤ offset then align else offset

/-- `alloc_from_heap`, with the blocks that are allocated before and after it. The two calls of
`iotsdk_alloc_malloc` are answered by `header` and `memory`. -/
def allocFromHeap (header memory : Malloc) (size align : BitVec 32) (live : List Block) :
    Option PrivMemoryBuf × List Block :=
  if size = 0 then (none, live)
  else
    match header.answer sizeofPrivMemoryBuf with
    | none => (none, live)
    | some buf =>
        let live := ⟨buf, sizeofPrivMemoryBuf⟩ :: live
        match memory.answer (size + align) with
        | none => (none, live.erase ⟨buf, sizeofPrivMemoryBuf⟩)
        | some allocatedMemory =>
            let live := ⟨allocatedMemory, size + align⟩ :: live
            (some
              { allocatedMemory := allocatedMemory
                data := alignedData allocatedMemory align
                capacity := size
                length := size }, live)

end OpenIotSdk.MemoryManager.Heap
