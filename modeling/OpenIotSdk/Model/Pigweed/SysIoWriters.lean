import OpenIotSdk.Library.Turns
import OpenIotSdk.Model.Pigweed.Log
import OpenIotSdk.Model.Pigweed.SysIo

/-! # Writers in `pw_sys_io_mcu_driver_hal`

The write functions of `sys_io_mdh.cc` as threads call them, each under its `TxLockGuard`s and the
write lock of `cmsis_rtos_lock.c`. `_pw_log_sys_io_mdh` of `pw_log_sys_io_mdh` is one caller. -/

namespace OpenIotSdk.SysIo

/-- The `std::string_view` of a `const char *`. -/
def stringView {n : ℕ} (buffer : Fin n → Byte) : List Byte :=
  (List.ofFn buffer).takeWhile (· ≠ 0#8)

inductive WriterCall where
  | writeByte (b : Byte)
  | writeBytes (data : List Byte)
  | writeLine (s : List Byte)
  | pwLogSysIoMdh (call : Log.Call)

namespace WriterCall

/-- What is called once the locks are taken. -/
def action : WriterCall → Action
  | .writeByte b => .writeByte b
  | .writeBytes data => .writeBytes data
  | .writeLine s => .writeLine s
  | .pwLogSysIoMdh call =>
      .writeLine (stringView (Log.vsnprintf call.garbage (call.text.getD [])))

variable {Size : ℕ}

/-- `WriteByte` and `WriteBytes`. -/
def writeScript (call : WriterCall) : List (Turns.Op WriterCall (State Size)) :=
  [.lock, .enter call, .work fun s => decide (s.pc = .idle), .unlock]

/-- `WriteLine`: `WriteBytes` and `WriteByte` have guards of their own. -/
def writeLineScript (call : WriterCall) : List (Turns.Op WriterCall (State Size)) :=
  [.lock,
    .lock, .enter call, .work fun s => decide (s.pc = .loop [] true), .unlock,
    .lock, .work fun s => decide (s.pc = .idle), .unlock,
    .unlock]

def script (call : WriterCall) : List (Turns.Op WriterCall (State Size)) :=
  match call with
  | .writeByte _ | .writeBytes _ => call.writeScript
  | .writeLine _ => call.writeLineScript
  | .pwLogSysIoMdh ⟨_, none⟩ => []
  | .pwLogSysIoMdh ⟨_, some _⟩ => call.writeLineScript

end WriterCall

end OpenIotSdk.SysIo
