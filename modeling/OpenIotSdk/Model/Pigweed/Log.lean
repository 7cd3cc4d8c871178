import Mathlib.Data.BitVec
import OpenIotSdk.Library.Turns

/-! # `pw_log_mcu_driver_hal`

`_pw_log_mdh` of `pw_log_mdh_backend.c`, with the locks of `cmsis_rtos_lock.c`, and the file name
of `util.h`. What `vsnprintf` makes of a message and its arguments is the text of a call. -/

namespace OpenIotSdk.Log

abbrev Byte := BitVec 8

/-- `PW_LOG_MDH_LINE_LENGTH`. -/
def lineLength : ℕ := 150

/-- What `vsnprintf` leaves in a buffer of `lineLength` characters. -/
def vsnprintf (buffer : Fin lineLength → Byte) (text : List Byte) : Fin lineLength → Byte :=
  fun i => (text.take (lineLength - 1) ++ [0#8]).getD i (buffer i)

/-- A call of `_pw_log_mdh`. -/
structure Call where
  garbage : Fin lineLength → Byte -- what its `buffer` holds at first
  text : Option (List Byte) -- the formatted message, or `vsnprintf` returns an error

/-- The call under way, and the serial. -/
structure Output where
  buffer : Fin lineLength → Byte
  ptr : ℕ -- the index in `buffer` of `ptr`
  fault : Bool -- `ptr` was read outside of `buffer`
  sent : List Byte -- the arguments of `mdh_serial_put_data`, in order

def Output.init : Output := ⟨fun _ => 0#8, 0, false, []⟩

namespace Output

variable (s : Output)

/-- `*ptr == '\0'`. -/
def atEnd : Bool := if h : s.ptr < lineLength then s.buffer ⟨s.ptr, h⟩ == 0#8 else false

/-- The body of the loop: `mdh_serial_put_data(log_serial, *ptr++)`. -/
def putData : Output :=
  if h : s.ptr < lineLength then
    { s with ptr := s.ptr + 1, sent := s.sent ++ [s.buffer ⟨s.ptr, h⟩] }
  else { s with fault := true }

/-- The buffer of a call, with `ptr` at its start. -/
def enter (call : Call) : Output :=
  { s with buffer := vsnprintf call.garbage (call.text.getD []), ptr := 0 }

end Output

/-- `_pw_log_mdh`: nothing is sent if `vsnprintf` fails. -/
def script (call : Call) : List (Turns.Op Call Output) :=
  match call.text with
  | none => []
  | some _ => [.lock, .enter call, .work Output.atEnd, .unlock]

/-- `PW_LOG_MDH_FILE_NAME_HELPER(INDEX)`: a pointer into `__FILE__`, as an index, or the next
condition. `file` is `__FILE__` without its final zero. -/
def fileNameHelper (file : List Char) (index : ℕ) (next : ℕ) : ℕ :=
  if file.length + 1 ≤ index then 0
  else if file[file.length + 1 - index]? = some '/' then file.length + 1 - index + 1
  else next

/-- The helpers from `index` on; there are `count` of them. -/
def fileNameFrom (file : List Char) (index : ℕ) : (count : ℕ) → ℕ
  | 0 => 0
  | count + 1 => fileNameHelper file index (fileNameFrom file (index + 1) count)

/-- The helpers 1 to 39 of `PW_LOG_MDH_FILE_NAME`, and what the pointer points to. Only where the
compiler has no `__FILE_NAME__`: it stands for the macro where there is one. -/
def fileName (file : List Char) : List Char := file.drop (fileNameFrom file 1 39)

end OpenIotSdk.Log
