import OpenIotSdk.Library.Tagged
import OpenIotSdk.Library.Transition
import Mathlib.Data.Int.Notation
import Mathlib.Logic.Function.Basic

/-! # Standard streams on the serial port

`serial_retarget.c` with `gcc_retarget.c` and `armclang_retarget.c`: any number of threads read and
write the standard streams, statement by statement. The serial port keeps the bytes that have
arrived until they are taken. -/

namespace OpenIotSdk.Retarget

abbrev Byte := BitVec 8

/-- What `len` becomes as an `int`. -/
def toInt (len : ℕ) : ℤ := (BitVec.ofNat 32 len).toInt

/-- The C library whose stubs are called. -/
inductive Toolchain where
  | gcc
  | armclang
  deriving DecidableEq

def stdinFileno : ℤ := 0
def stdoutFileno : ℤ := 1
def stderrFileno : ℤ := 2

/-- What a stub makes of the result of `iotsdk_serial_out` or `iotsdk_serial_in`. -/
def Toolchain.result (len : ℕ) (res : ℤ) : Toolchain → ℤ
  | .gcc => res
  | .armclang =>
      if res < 0 then -1
      else if BitVec.ofInt 32 res ≠ BitVec.ofNat 32 len then -1
      else 0

/-- A call of `iotsdk_serial_out` with the text at `str`, or of `iotsdk_serial_in`. -/
inductive Request where
  | out (str : Option (List Byte))
  | inp (str : Bool) (len : ℕ) -- `str` is not NULL
  deriving DecidableEq

/-- What follows `iotsdk_serial_setup`. -/
inductive Next where
  | request (request : Request) -- of `_write` and `_read`
  | opened (fd : ℤ) -- of `_sys_open`
  deriving DecidableEq

/-- The statement that a thread runs next. -/
inductive Pc where
  | idle (res : ℤ) -- outside, with the result of the last call
  | upTest (request : Request) -- `if (!serial_up)`
  | setupTest (next : Next) -- `if (serial_obj != NULL)`
  | setupGet (next : Next) -- `serial_obj = get_example_serial()`
  | setupNull (next : Next) -- `if (serial_obj == NULL)`
  | setupBaud (next : Next) -- `mdh_serial_set_baud`
  | up (request : Request) -- `serial_up = 1`
  | test (lib : Toolchain) (request : Request) -- `if (serial_obj == NULL)`
  | put (lib : Toolchain) (len : ℕ) (str : List Byte) -- the loop of `iotsdk_serial_out`
  | readable (lib : Toolchain) (len : ℕ) -- `mdh_serial_is_readable`
  | get (lib : Toolchain) (len : ℕ) (str : List Byte) -- the loop of `iotsdk_serial_in`
  deriving DecidableEq

/-- A call of a stub. -/
inductive Call where
  | write (fd : ℤ) (str : Option (List Byte))
  | read (fd : ℤ) (str : Bool) (len : ℕ)
  | sysOpen (stdioName w a : Bool) -- the name is ":tt", and the bits of `openmode`
  | sysWrite (fd : ℤ) (str : Option (List Byte))
  | sysRead (fd : ℤ) (str : Bool) (len : ℕ)

structure State (ι : Type) where
  serialObj : Bool -- not NULL
  serialUp : Bool
  input : List Byte -- at the port, the oldest byte first
  pc : ι → Pc
  sent : List (ι × Byte) -- `mdh_serial_put_data`
  taken : List (ι × Byte) -- `mdh_serial_get_data`
  arrived : List Byte
  texts : ι → List (List Byte) -- those that `iotsdk_serial_out` did not refuse
  reads : ι → List (List Byte) -- what `iotsdk_serial_in` has filled in

inductive Action (ι : Type) where
  | call (i : ι) (call : Call)
  | advance (i : ι)
  | serial (i : ι) (found : Bool) -- `get_example_serial` answers
  | receive (b : Byte)

variable {ι : Type}

def init : State ι where
  serialObj := false
  serialUp := false
  input := []
  pc := fun _ => .idle 0
  sent := []
  taken := []
  arrived := []
  texts := fun _ => []
  reads := fun _ => []

/-- Where a call starts; wrong file descriptors and arguments end it at once. -/
def Call.start : Call → Pc
  | .write fd str =>
      if fd ≠ stdoutFileno ∧ fd ≠ stderrFileno then .idle (-1) else .upTest (.out str)
  | .read fd str len => if fd ≠ stdinFileno then .idle (-1) else .upTest (.inp str len)
  | .sysOpen stdioName w a =>
      if !stdioName then .idle (-1)
      else if w then .setupTest (.opened stdoutFileno)
      else if a then .setupTest (.opened stderrFileno)
      else .setupTest (.opened stdinFileno)
  | .sysWrite fd str =>
      if fd ≠ stdoutFileno ∧ fd ≠ stderrFileno then .idle (-1)
      else if str.getD [] = [] then .idle (-1)
      else .test .armclang (.out str)
  | .sysRead fd str len =>
      if fd ≠ stdinFileno then .idle (-1)
      else if str = false ∨ len = 0 then .idle (-1)
      else .test .armclang (.inp str len)

/-- `iotsdk_serial_setup` returns 0. -/
def Next.pc : Next → Pc
  | .request req => .up req
  | .opened fd => .idle fd

variable [DecidableEq ι]

namespace State

variable (s : State ι)

def goto (i : ι) (pc : Pc) : State ι := { s with pc := Function.update s.pc i pc }

/-- `iotsdk_serial_out` and `iotsdk_serial_in` after the test of the port. -/
def request (i : ι) (lib : Toolchain) : Request → State ι
  | .out none => s.goto i (.idle (lib.result 0 (-1)))
  | .out (some []) => s.goto i (.idle (lib.result 0 (-1)))
  | .out (some str) =>
      { s with texts := Function.update s.texts i (s.texts i ++ [str]) }.goto i
        (.put lib str.length str)
  | .inp str len =>
      if str = false ∨ len = 0 then s.goto i (.idle (lib.result len (-1)))
      else s.goto i (.readable lib len)

/-- One statement of `i`; the port is called only where there is one. -/
def advance (i : ι) : Option (State ι) :=
  match s.pc i with
  | .idle _ | .setupGet _ => none
  | .upTest request =>
      some (s.goto i (if s.serialUp then .test .gcc request else .setupTest (.request request)))
  | .setupTest next => some (s.goto i (if s.serialObj then next.pc else .setupGet next))
  | .setupNull next => some (s.goto i (if s.serialObj then .setupBaud next else .idle (-1)))
  | .setupBaud next => if s.serialObj then some (s.goto i next.pc) else none
  | .up request => some ({ s with serialUp := true }.goto i (.test .gcc request))
  | .test lib request =>
      some (if s.serialObj then s.request i lib request
        else s.goto i (.idle (lib.result 0 (-1))))
  | .put lib len [] => some (s.goto i (.idle (lib.result len (toInt len))))
  | .put lib len (b :: str) =>
      if s.serialObj then some ({ s with sent := s.sent ++ [(i, b)] }.goto i (.put lib len str))
      else none
  | .readable lib len =>
      if s.serialObj then
        some (s.goto i (if s.input.isEmpty then .idle (lib.result len 0) else .get lib len []))
      else none
  | .get lib len str =>
      if str.length < len then
        (match s.serialObj, s.input with
          | true, b :: input =>
              some ({ s with input := input, taken := s.taken ++ [(i, b)] }.goto i
                (.get lib len (str ++ [b])))
          | _, _ => none)
      else
        some ({ s with reads := Function.update s.reads i (s.reads i ++ [str]) }.goto i
          (.idle (lib.result len (toInt len))))

end State

def step (s : State ι) : Action ι → Option (State ι)
  | .call i call =>
      match s.pc i with
      | .idle _ => some (s.goto i call.start)
      | _ => none
  | .advance i => s.advance i
  | .serial i found =>
      match s.pc i with
      | .setupGet next => some ({ s with serialObj := found }.goto i (.setupNull next))
      | _ => none
  | .receive b => some { s with input := s.input ++ [b], arrived := s.arrived ++ [b] }

end OpenIotSdk.Retarget
