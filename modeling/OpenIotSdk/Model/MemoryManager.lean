import OpenIotSdk.Library.Memory
import Mathlib.Algebra.Group.Nat.Defs
import Mathlib.Logic.Function.Basic

/-! # The memory manager of the SDK

`iotsdk_memory_manager.c`. The buffers lie in one memory; what an operation reads and writes there
is noted. A buffer that is null is `none`. -/

namespace OpenIotSdk.MemoryManager

/-- `priv_memory_buf_t`, and the size of the block that it has allocated. -/
structure PrivMemoryBuf where
  allocatedMemory : ℕ
  allocatedSize : ℕ
  data : ℕ
  capacity : ℕ
  length : ℕ

namespace PrivMemoryBuf

def block (b : PrivMemoryBuf) : Region := ⟨b.allocatedMemory, b.allocatedSize⟩

/-- Where the data can be. -/
def payload (b : PrivMemoryBuf) : Region := ⟨b.data, b.capacity⟩

end PrivMemoryBuf

structure State (Handle β : Type*) where
  memory : Memory β
  bufs : Handle → Option PrivMemoryBuf -- the live buffers
  reads : List Region -- by the last operation, in the memory
  writes : List Region
  output : List β -- what it has written to the user's `ptr`
  result : ℕ

inductive Action (Handle β : Type*) where
  | allocFromHeap (buf : Handle) (memory size align : ℕ) -- `iotsdk_alloc_malloc` answers `memory`
  | free (buf : Option Handle)
  | copy (source destination : Option Handle)
  | copyToBuf (ptr : Option (List β)) (buf : Option Handle)
  | copyFromBuf (buf : Option Handle) (ptr : Bool) (size : ℕ)
  | setPayloadLen (buf : Option Handle) (size : ℕ)

/-- The address from which on the data is aligned. -/
def alignedData (memory align : ℕ) : ℕ :=
  if align = 0 then memory
  else
    let remainder := memory % align
    if remainder = 0 then memory
    else
      let offset := align - remainder
      memory + if align ≤ offset then align else offset

/-- The buffer that `alloc_from_heap` makes of the block that it gets, where `size_t` has 32
bits. -/
def allocFromHeap (memory size align : ℕ) : Option PrivMemoryBuf :=
  if size = 0 then none
  else some
    { allocatedMemory := memory
      allocatedSize := (size + align) % 2 ^ 32
      data := alignedData memory align
      capacity := size % 2 ^ 32
      length := size % 2 ^ 32 }

variable {Handle β : Type*} [DecidableEq Handle]

/-- There is no buffer yet. -/
def init (memory : Memory β) : State Handle β := ⟨memory, fun _ => none, [], [], [], 0⟩

namespace State

/-- An operation that does nothing, or has not done anything yet. -/
def start (s : State Handle β) : State Handle β :=
  { s with reads := [], writes := [], output := [], result := 0 }

def setLength (s : State Handle β) (buf : Handle) (b : PrivMemoryBuf) (length : ℕ) :
    State Handle β :=
  { s with bufs := Function.update s.bufs buf (some { b with length := length }) }

/-- `memcpy` between buffers. -/
def memcpy (s : State Handle β) (dst src size : ℕ) : State Handle β :=
  { s with
    memory := s.memory.store dst (s.memory.load src size)
    reads := [⟨src, size⟩]
    writes := [⟨dst, size⟩] }

/-- `copy`. -/
def copy (s : State Handle β) (src : PrivMemoryBuf) (destination : Handle) (dst : PrivMemoryBuf) :
    State Handle β :=
  if dst.capacity < src.capacity then s.start
  else (s.start.memcpy dst.data src.data src.length).setLength destination dst src.length

/-- `copy_to_buf`. -/
def copyToBuf (s : State Handle β) (bytes : List β) (buf : Handle) (dst : PrivMemoryBuf) :
    State Handle β :=
  if bytes.length > dst.capacity then s.start
  else
    { s.start with
      memory := s.memory.store dst.data bytes
      writes := [⟨dst.data, bytes.length⟩]
      result := bytes.length }.setLength buf dst bytes.length

/-- `copy_from_buf`. -/
def copyFromBuf (s : State Handle β) (src : PrivMemoryBuf) (size : ℕ) : State Handle β :=
  let size := if size > src.length then src.length else size
  { s.start with
    reads := [⟨src.data, size⟩]
    output := s.memory.load src.data size
    result := size }

/-- `set_payload_len`. -/
def setPayloadLen (s : State Handle β) (buf : Handle) (b : PrivMemoryBuf) (size : ℕ) :
    State Handle β :=
  if size > b.capacity then s.start else s.start.setLength buf b size

/-- An operation on a live buffer, or on none. -/
def withBuf (s : State Handle β) (buf : Option Handle)
    (op : Handle → PrivMemoryBuf → Option (State Handle β)) : Option (State Handle β) :=
  match buf with
  | none => some s.start
  | some buf =>
      match s.bufs buf with
      | none => none
      | some b => op buf b

end State

/-- One operation; an allocation gets a new buffer. -/
def step (s : State Handle β) : Action Handle β → Option (State Handle β)
  | .allocFromHeap buf memory size align =>
      match s.bufs buf, allocFromHeap memory size align with
      | none, some b => some { s.start with bufs := Function.update s.bufs buf (some b) }
      | _, _ => none
  | .free buf =>
      s.withBuf buf fun buf _ => some { s.start with bufs := Function.update s.bufs buf none }
  | .copy source destination =>
      s.withBuf source fun _ src => s.withBuf destination fun destination dst =>
        some (s.copy src destination dst)
  | .copyToBuf ptr buf =>
      match ptr with
      | none => some s.start
      | some bytes => s.withBuf buf fun buf dst => some (s.copyToBuf bytes buf dst)
  | .copyFromBuf buf ptr size =>
      if ptr then s.withBuf buf fun _ src => some (s.copyFromBuf src size) else some s.start
  | .setPayloadLen buf size => s.withBuf buf fun buf b => some (s.setPayloadLen buf b size)

end OpenIotSdk.MemoryManager
