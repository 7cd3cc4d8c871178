import OpenIotSdk.Model.Ntp.Task

/-! # One task of `iot_ntp_client.c`

An `ntp_task` with the sockets of the stack. Between its steps, the others do whatever they like
with what is shared, and with their own sockets. -/

namespace OpenIotSdk.Ntp

structure Worker where
  shared : Shared
  task : Task
  stack : Stack
  held : Option ℤ -- the socket that the task has created last and not closed
  received : Option (BitVec 32) -- the last full reply since the last START was taken
  written : Option ℕ -- what the task has written last to `ntp_context.time` since then

namespace Worker

/-- A task that has just been created. -/
def new (shared : Shared) (stack : Stack) : Worker where
  shared := shared
  task := Task.init
  stack := stack
  held := none
  received := none
  written := none

inductive Action where
  | task (res : ℤ) (seconds : BitVec 32) -- as in `Task.advance`
  | others (shared : Shared) (stack : Stack)

variable (w : Worker)

/-- The answer of the call at which the task stands: on a socket that is not open, calls fail. -/
def answer (res : ℤ) : ℤ :=
  match w.task.pc with
  | .create => w.stack.created res
  | .startClose | .setOpt | .connect | .send | .recv | .stopClose | .exitClose =>
      w.stack.answer w.task.socket res
  | _ => res

/-- The sockets after that call. -/
def sockets (res : ℤ) : Stack :=
  match w.task.pc with
  | .create => w.stack.iotSocketCreate res
  | .connect => w.stack.iotSocketConnect w.task.socket res
  | .startClose | .stopClose | .exitClose => w.stack.iotSocketClose w.task.socket res
  | _ => w.stack

/-- The socket that the task holds then. -/
def holds (res : ℤ) : Option ℤ :=
  match w.task.pc with
  | .create => if 0 ≤ w.answer res then some (w.answer res) else w.held
  | .startClose | .stopClose | .exitClose =>
      if w.answer res = 0 ∧ w.held = some w.task.socket then none else w.held
  | _ => w.held

/-- The full reply that has been received then, in a step that leads to `next`. -/
def receives (res : ℤ) (seconds : BitVec 32) (next : Shared × Task) : Option (BitVec 32) :=
  match w.task.pc with
  | .get => if next.2.event = .start then none else w.received
  | .recv => if w.answer res = 48 then some seconds else w.received
  | _ => w.received

/-- The time that has been written then. -/
def writes (res : ℤ) (next : Shared × Task) : Option ℕ :=
  match w.task.pc with
  | .get => if next.2.event = .start then none else w.written
  | .timeAcquire time => if w.shared.MutexOk res then some time else w.written
  | _ => w.written

/-- The socket is not closed by others. -/
def Keeps (stack : Stack) : Prop := ∀ id ∈ w.held, stack.isOpen id = true

instance (stack : Stack) : Decidable (w.Keeps stack) :=
  inferInstanceAs (Decidable (∀ id ∈ w.held, _))

def step (w : Worker) : Action → Option Worker
  | .task res seconds =>
      (w.task.advance w.shared (w.answer res) seconds).map fun next =>
        { shared := next.1
          task := next.2
          stack := w.sockets res
          held := w.holds res
          received := w.receives res seconds next
          written := w.writes res next }
  | .others shared stack =>
      if w.Keeps stack then some { w with shared := shared, stack := stack } else none

end Worker

end OpenIotSdk.Ntp
