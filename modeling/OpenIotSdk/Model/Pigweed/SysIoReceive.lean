import Mathlib.Logic.Function.Basic
import OpenIotSdk.Model.Pigweed.SysIo

/-! # Reception in `pw_sys_io_mcu_driver_hal`

`sys_io_mdh.cc` from the RX interrupt to the read functions. The handler of an interrupt and
a critical section are one step each. Any number of threads call the read functions, with
either kind of lock: a recursive mutex only rules out some of their orders. -/

namespace OpenIotSdk.SysIo.Receive

structure State (ι : Type*) (Size : ℕ) where
  buffer : RingBuffer Byte Size -- `rx_buffer_`
  reading : ι → Bool -- the threads in the loop of `ReadByte`
  fault : Option Fault -- how the program ended, if it did
  /-- What the read functions returned, in order; `none` is `Status::Unavailable()`. -/
  results : List (ι × Option Byte)

variable {ι : Type*} {Size : ℕ}

def init (buffer : Fin Size → Byte) : State ι Size where
  buffer := .empty buffer
  reading := fun _ => false
  fault := none
  results := []

inductive Action (ι : Type*) where
  /-- An RX interrupt; `mdh_serial_get_data` gives these bytes until the serial is not readable
  any more. -/
  | interrupt (bytes : List Byte)
  | tryReadByte (i : ι)
  | readByte (i : ι)
  | poll (i : ι) -- a round of the loop of `ReadByte`
  deriving DecidableEq

/-- The loop of `serial_irq_rx_cb`, when `i` is the length of `buf`. -/
def serialIrqRxCb (chunk : ℕ) (abortOnOverflow : Bool) (r : RingBuffer Byte Size)
    (buf : List Byte) : List Byte → Except Fault (RingBuffer Byte Size)
  | [] => r.putSpan abortOnOverflow buf
  | data :: bytes =>
      if chunk ≤ buf.length then .error .outOfBounds
      else if buf.length + 1 = chunk then do
        let r ← r.putSpan abortOnOverflow (buf ++ [data])
        serialIrqRxCb chunk abortOnOverflow r [] bytes
      else serialIrqRxCb chunk abortOnOverflow r (buf ++ [data]) bytes

namespace State

variable [DecidableEq ι]

/-- A read function returns. -/
def ret (s : State ι Size) (i : ι) (result : Option Byte) (buffer : RingBuffer Byte Size) :
    State ι Size :=
  { s with
    buffer := buffer
    reading := Function.update s.reading i false
    results := s.results ++ [(i, result)] }

def tryReadByte (s : State ι Size) (i : ι) : State ι Size :=
  match s.buffer.get with
  | .error fault => { s with fault := some fault }
  | .ok (result, buffer) => s.ret i result buffer

/-- The loop of `ReadByte` goes on as long as no byte is available. -/
def readByte (s : State ι Size) (i : ι) : State ι Size :=
  match s.buffer.get with
  | .error fault => { s with fault := some fault }
  | .ok (none, buffer) => { s with buffer := buffer }
  | .ok (some data, buffer) => s.ret i (some data) buffer

end State

def step [DecidableEq ι] (chunk : ℕ) (abortOnOverflow : Bool) (s : State ι Size)
    (a : Action ι) : Option (State ι Size) :=
  if s.fault.isSome then none
  else match a with
    | .interrupt bytes =>
        match serialIrqRxCb chunk abortOnOverflow s.buffer [] bytes with
        | .error fault => some { s with fault := some fault }
        | .ok buffer => some { s with buffer := buffer }
    | .tryReadByte i => if s.reading i then none else some (s.tryReadByte i)
    | .readByte i =>
        if s.reading i then none
        else some { s with reading := Function.update s.reading i true }
    | .poll i => if s.reading i then some (s.readByte i) else none

end OpenIotSdk.SysIo.Receive
