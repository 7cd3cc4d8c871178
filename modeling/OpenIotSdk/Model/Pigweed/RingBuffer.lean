import Mathlib.Data.BitVec

/-! # `RingBuffer` of `pw_sys_io_mcu_driver_hal`

The ring buffer of `sys_io_mdh.cc`, which overwrites old data when full. Each operation
is one critical section. -/

namespace OpenIotSdk.SysIo

/-- How the program can end inside an operation. -/
inductive Fault where
  | abort -- `abort()` under `PW_SYS_IO_MDH_ABORT_ON_OVERFLOW`
  | assert -- `assert(val <= Size)`
  | outOfBounds -- an access outside `buffer_`
  deriving DecidableEq

structure RingBuffer (T : Type) (Size : ℕ) where
  buffer : Fin Size → T
  head : ℕ
  tail : ℕ
  full : Bool

namespace RingBuffer

variable {T : Type} {Size : ℕ}

/-- `RingBuffer()`; the elements of `buffer_` may be anything. -/
def empty (buffer : Fin Size → T) : RingBuffer T Size := ⟨buffer, 0, 0, false⟩

/-- `std::copy` of `src` to `buffer_ + offset`. -/
def copy (src : List T) (offset : ℕ) (buffer : Fin Size → T) : Except Fault (Fin Size → T) :=
  if offset + src.length ≤ Size then
    .ok fun i => if offset ≤ i then src.getD (i - offset) (buffer i) else buffer i
  else .error .outOfBounds

/-- `increment(val)`. -/
def increment (Size val : ℕ) : Except Fault ℕ :=
  if Size < val + 1 then .error .assert
  else .ok (if val + 1 = Size then 0 else val + 1)

/-- `increment(val, incr)`. -/
def incrementBy (Size val incr : ℕ) : ℕ :=
  if Size ≤ val + incr then val + incr - Size else val + incr

def isEmpty (r : RingBuffer T Size) : Bool := r.head == r.tail && !r.full

def size (r : RingBuffer T Size) : ℕ :=
  if r.full then Size
  else if r.head < r.tail then Size - (r.tail - r.head)
  else r.head - r.tail

def capacity (r : RingBuffer T Size) : ℕ := Size - r.size

/-- `abort()`, in a build that has it. -/
def overflow (abortOnOverflow : Bool) : Except Fault Unit :=
  if abortOnOverflow then .error .abort else .ok ()

/-- `put(const T &)`. -/
def put (abortOnOverflow : Bool) (r : RingBuffer T Size) (data : T) :
    Except Fault (RingBuffer T Size) := do
  let buffer ← copy [data] r.head r.buffer
  let head ← increment Size r.head
  if r.full then
    overflow abortOnOverflow
    return { r with buffer := buffer, head := head, tail := head }
  else if head = r.tail then
    return { r with buffer := buffer, head := head, full := true }
  else
    return { r with buffer := buffer, head := head }

/-- The copies of `put(pw::span<const T>)`: what fits to the right of the head, and the
rest to the start of the buffer. Also gives the new head. -/
def copyIn (r : RingBuffer T Size) (src : List T) : Except Fault ((Fin Size → T) × ℕ) := do
  let firstWriteSize := if Size < r.head + src.length then Size - r.head else src.length
  let buffer ← copy (src.take firstWriteSize) r.head r.buffer
  if firstWriteSize = src.length then
    return (buffer, incrementBy Size r.head firstWriteSize)
  else
    let buffer ← copy (src.drop firstWriteSize) 0 buffer
    return (buffer, src.length - firstWriteSize)

/-- The critical section of `put(pw::span<const T>)`. -/
def putMany (abortOnOverflow : Bool) (r : RingBuffer T Size) (src : List T) :
    Except Fault (RingBuffer T Size) := do
  if Size < src.length then
    overflow abortOnOverflow
    let buffer ← copy (src.drop (src.length - Size)) 0 r.buffer
    return { buffer := buffer, head := 0, tail := 0, full := true }
  else
    let adjustTail := Size - r.size ≤ src.length
    let (buffer, head) ← r.copyIn src
    if adjustTail then
      overflow abortOnOverflow
      return { buffer := buffer, head := head, tail := head, full := true }
    else
      return { r with buffer := buffer, head := head }

/-- `put(pw::span<const T>)`. -/
def putSpan (abortOnOverflow : Bool) (r : RingBuffer T Size) (src : List T) :
    Except Fault (RingBuffer T Size) :=
  match src with
  | [] => .ok r
  | [data] => r.put abortOnOverflow data
  | src => r.putMany abortOnOverflow src

/-- `get(T &)`: the element, if there is one, and the buffer left. -/
def get (r : RingBuffer T Size) : Except Fault (Option T × RingBuffer T Size) :=
  if r.isEmpty then .ok (none, r)
  else if h : r.tail < Size then do
    let tail ← increment Size r.tail
    return (some (r.buffer ⟨r.tail, h⟩), { r with tail := tail, full := false })
  else .error .outOfBounds

/-- `std::copy` from `buffer_ + first` to `buffer_ + last`: the elements that are copied. No range
ends before it starts. -/
def copyOut (buffer : Fin Size → T) (first last : ℕ) : Except Fault (List T) :=
  if h : first ≤ last ∧ last ≤ Size then
    .ok (List.ofFn fun i : Fin (last - first) => buffer ⟨first + i, by omega⟩)
  else .error .outOfBounds

/-- `get(pw::span<T>)` for a span of `n` elements: what it writes to the start of the span, what
it returns, and the buffer left. -/
def getSpan (r : RingBuffer T Size) (n : ℕ) : Except Fault (List T × ℕ × RingBuffer T Size) :=
  if n = 0 then .ok ([], 0, r)
  else if n = 1 then do
    let (data, r) ← r.get
    return (data.toList, if data.isSome then 1 else 0, r)
  else if r.isEmpty then .ok ([], 0, r)
  else
    let n := min r.size n
    if r.tail + n > Size then do
      let right ← copyOut r.buffer r.tail Size
      let tail := n - (Size - r.tail)
      let left ← copyOut r.buffer 0 tail
      return (right ++ left, n, { r with tail := tail, full := false })
    else do
      let written ← copyOut r.buffer r.tail n
      return (written, n, { r with tail := incrementBy Size r.tail n, full := false })

end RingBuffer

end OpenIotSdk.SysIo
