import OpenIotSdk.Model.Pigweed.RingBuffer

/-! # Transmission in `pw_sys_io_mcu_driver_hal`

`sys_io_mdh.cc` from the write functions to `mdh_serial_put_data`. The write lock admits
one call at a time, so the calls form a sequence. A critical section is one step, and so is
the handler of a TX interrupt, which can come between any two of them. -/

namespace OpenIotSdk.SysIo

abbrev Byte := BitVec 8

/-- `std::byte('\n')`. -/
def newline : Byte := 10#8

/-- Where the writer is. A constructor names the statement that runs next, with the bytes
that the calls under way still have to put; `line` says that `WriteByte('\n')` follows. -/
inductive Pc where
  | idle -- outside every call
  | full (data : Byte) -- `BufferManager::put(std::byte)`: `tx_buffer_.full()`
  | put (data : Byte) -- `BufferManager::put(std::byte)`: `tx_buffer_.put(data)`
  | trigger -- `BufferManager::put(std::byte)`: `trigger_send()`
  | loop (bytes : List Byte) (line : Bool) -- `WriteBytes`: `while (bytes.size())`
  /-- `BufferManager::put(span)`: `tx_buffer_.capacity()`. -/
  | capacity (bytes : List Byte) (line : Bool)
  /-- `BufferManager::put(span)`: `tx_buffer_.put(data)`; the rest is for the next rounds. -/
  | putSpan (data rest : List Byte) (line : Bool)
  | triggerSpan (rest : List Byte) (line : Bool) -- `BufferManager::put(span)`: `trigger_send()`
  deriving DecidableEq

structure State (Size : ℕ) where
  buffer : RingBuffer Byte Size -- `tx_buffer_`
  sending : Bool -- `tx_sending_`
  pc : Pc
  fault : Option Fault -- how the program ended, if it did
  sent : List Byte -- the arguments of `mdh_serial_put_data`, in order
  due : Bool -- a transmission was started whose interrupt has not come yet
  written : List Byte -- the bytes given to the write functions, in order

variable {Size : ℕ}

def init (buffer : Fin Size → Byte) : State Size where
  buffer := .empty buffer
  sending := false
  pc := .idle
  fault := none
  sent := []
  due := false
  written := []

/-- `writable` is how often in a row `mdh_serial_is_writable` answers true. -/
inductive Action where
  | writeByte (data : Byte)
  | writeBytes (data : List Byte)
  | writeLine (s : List Byte)
  | advance (writable : ℕ) -- the writer runs its next statement
  | interrupt (writable : ℕ) -- a TX interrupt
  deriving DecidableEq

namespace State

def goto (s : State Size) (pc : Pc) : State Size := { s with pc := pc }

/-- The operation on `tx_buffer_` ends the program, or the writer goes on to `pc`. -/
def store (s : State Size) (result : Except Fault (RingBuffer Byte Size)) (pc : Pc) :
    State Size :=
  match result with
  | .ok buffer => { s with buffer := buffer, pc := pc }
  | .error fault => { s with fault := some fault }

/-- `tx_sending_ = true` and `mdh_serial_put_data`. -/
def putData (s : State Size) (c : Byte) (buffer : RingBuffer Byte Size) : State Size :=
  { s with buffer := buffer, sending := true, sent := s.sent ++ [c], due := true }

/-- The loop that `trigger_send` and `serial_irq_tx_cb` share. -/
def send (s : State Size) (writable : ℕ) : State Size :=
  match s.buffer.get with
  | .error fault => { s with fault := some fault }
  | .ok (none, _) => s
  | .ok (some c, buffer) =>
      match writable with
      | 0 => s.putData c buffer
      | writable + 1 => (s.putData c buffer).send writable

/-- `serial_irq_tx_cb`. -/
def serialIrqTxCb (s : State Size) (writable : ℕ) : State Size :=
  if s.buffer.isEmpty then { s with sending := false, due := false }
  else { s with due := false }.send writable

/-- `trigger_send`. -/
def triggerSend (s : State Size) (writable : ℕ) : State Size :=
  if s.sending then s else s.send writable

/-- The statement at which the writer stands. -/
def advance (abortOnOverflow : Bool) (s : State Size) (writable : ℕ) : Option (State Size) :=
  match s.pc with
  | .idle => none
  | .full data => some (s.goto (if s.buffer.full then .full data else .put data))
  | .put data => some (s.store (s.buffer.put abortOnOverflow data) .trigger)
  | .trigger => some ((s.triggerSend writable).goto .idle)
  | .loop bytes line =>
      some (s.goto (if bytes ≠ [] then .capacity bytes line
        else if line then .full newline
        else .idle))
  | .capacity bytes line =>
      let count := min s.buffer.capacity bytes.length
      some (s.goto (.putSpan (bytes.take count) (bytes.drop count) line))
  | .putSpan data rest line =>
      some (s.store (s.buffer.putSpan abortOnOverflow data) (.triggerSpan rest line))
  | .triggerSpan rest line => some ((s.triggerSend writable).goto (.loop rest line))

/-- A write function is called with these bytes. -/
def call (s : State Size) (data : List Byte) (pc : Pc) : Option (State Size) :=
  if s.pc = .idle then some { s with pc := pc, written := s.written ++ data } else none

end State

def step (abortOnOverflow : Bool) (s : State Size) (a : Action) : Option (State Size) :=
  if s.fault.isSome then none
  else match a with
    | .writeByte data => s.call [data] (.full data)
    | .writeBytes data => s.call data (.loop data false)
    | .writeLine data => s.call (data ++ [newline]) (.loop data true)
    | .advance writable => s.advance abortOnOverflow writable
    | .interrupt writable => some (s.serialIrqTxCb writable)

end OpenIotSdk.SysIo
