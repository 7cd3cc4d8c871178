import OpenIotSdk.Model.Pigweed.ThreadNotification

/-! # The thread context of `pw_thread_cmsis_rtos`

`thread.cc` for one `Thread`: its creator, which constructs it and later joins or
detaches it, and the new thread. A section with the kernel locked is one step. An access
to the `Context` after its deletion is counted and the run goes on. -/

namespace OpenIotSdk.Thread

/-- The build and the options of the thread. -/
structure Config where
  /-- `PW_THREAD_CMSIS_RTOS_HAVE_JOIN_DETACH`; without it the build has its own join. -/
  haveJoinDetach : Bool
  attrDetached : Bool -- `thread_attr.attr_bits == osThreadDetached`
  deriving DecidableEq

/-! ## `Context::bits_` -/

def completedBit : BitVec 8 := 1#8 <<< 1

def detachedBit : BitVec 8 := 1#8 <<< 2

def completed (bits : BitVec 8) : Bool := (bits &&& completedBit) == completedBit

def detached (bits : BitVec 8) : Bool := (bits &&& detachedBit) == detachedBit

def setCompleted (bits : BitVec 8) : BitVec 8 := bits ||| completedBit

def setDetached (bits : BitVec 8) : BitVec 8 := bits ||| detachedBit

@[simp] theorem detached_setDetached (bits : BitVec 8) : detached (setDetached bits) = true := by
  revert bits
  decide

@[simp] theorem detached_setCompleted (bits : BitVec 8) :
    detached (setCompleted bits) = detached bits := by
  revert bits
  decide

@[simp] theorem completed_setCompleted (bits : BitVec 8) :
    completed (setCompleted bits) = true := by
  revert bits
  decide

/-! ## The two threads -/

/-- Where the creator is. -/
inductive Creator where
  | construct -- `new Context(...)`
  | test -- `if (native_type_->detached())` in the constructor of `Thread`
  | ready -- the constructor has returned
  | joinCheck -- `join()`: the checks
  | joinCall -- `join()`: the call of `osThreadJoin` or of `Context::join`
  | osJoin -- `join()`: inside `osThreadJoin`
  | acquire -- `join()`: inside `join_notification_.acquire()`
  | joinDelete -- `join()`: `delete native_type_`
  | detachCheck -- `detach()`: the checks
  | detachBody -- `detach()`: the locked section
  | done -- `join()` or `detach()` has returned
  deriving DecidableEq

/-- Where the new thread is. -/
inductive Worker where
  | absent -- `osThreadNew` has not been called
  | entry -- `context->invoke()`: the reads of the function and its argument
  | body -- the function of the user
  | exiting -- `osThreadExit`
  | terminated
  deriving DecidableEq

structure State where
  bits : BitVec 8 -- `Context::bits_`
  /-- `Context::join_notification_`, with the creator as its subscriber. -/
  notification : ThreadNotification.State
  deletions : ℕ
  staleAccesses : ℕ
  native : Bool -- `native_type_ != nullptr`
  creator : Creator
  worker : Worker
  halted : Bool -- a `PW_CHECK` has failed
  deriving DecidableEq

def init : State where
  bits := 0#8
  notification := ThreadNotification.init
  deletions := 0
  staleAccesses := 0
  native := false
  creator := .construct
  worker := .absent
  halted := false

inductive Action where
  | creator -- the creator runs its next statement
  | join
  | detach
  | notification (a : ThreadNotification.Action) -- a step inside `join_notification_.acquire()`
  | worker -- the new thread runs its next statement
  deriving DecidableEq

namespace State

/-- A read or write of the `Context`. -/
def touch (s : State) : State :=
  { s with staleAccesses := s.staleAccesses + if s.deletions = 0 then 0 else 1 }

/-- `delete` of the `Context`. -/
def delete (s : State) : State := { s.touch with deletions := s.deletions + 1 }

/-- A failed `PW_CHECK`. -/
def halt (s : State) : State := { s with halted := true }

/-- `Context::Context`, with the kernel locked up to the call of `osThreadNew`. -/
def construct (config : Config) (s : State) : State :=
  { s with
    bits := if config.attrDetached then setDetached 0#8 else 0#8
    native := true
    creator := .test
    worker := .entry }

/-- The checks at the start of `join()` and `detach()`. -/
def checked (s : State) (next : Creator) : State :=
  if s.native = false then s.halt
  else if detached s.bits then s.touch.halt
  else { s.touch with creator := next }

/-- The locked section of `detach()`. -/
def detachBody (s : State) : State :=
  if completed s.bits then { s.touch.delete with native := false, creator := .done }
  else { s.touch with bits := setDetached s.bits, native := false, creator := .done }

/-- The next statement of the creator. -/
def creatorStep (config : Config) (s : State) : Option State :=
  match s.creator with
  | .construct => some (s.construct config)
  | .test => some { s.touch with native := !detached s.bits, creator := .ready }
  | .ready | .done => none
  | .joinCheck => some (s.checked .joinCall)
  | .joinCall =>
      if config.haveJoinDetach then some { s.touch with creator := .osJoin }
      else (ThreadNotification.step s.notification .acquire).map fun notification =>
        { s.touch with notification := notification, creator := .acquire }
  | .osJoin => if s.worker = .terminated then some { s with creator := .joinDelete } else none
  | .acquire =>
      if s.notification.pc = .idle then some { s with creator := .joinDelete } else none
  | .joinDelete => some { s.delete with native := false, creator := .done }
  | .detachCheck => some (s.checked .detachBody)
  | .detachBody => some s.detachBody

/-- `set_completed()`, with the release that only the custom join needs. -/
def complete (config : Config) (s : State) : Option State :=
  if config.haveJoinDetach then some { s with bits := setCompleted s.bits }
  else (ThreadNotification.step s.notification (.release .thread)).bind fun released =>
    (ThreadNotification.step released .signal).map fun signalled =>
      { s with bits := setCompleted s.bits, notification := signalled }

/-- The next statement of the new thread. -/
def workerStep (config : Config) (s : State) : Option State :=
  match s.worker with
  | .absent | .terminated => none
  | .entry => some { s.touch with worker := .body }
  | .body =>
      if detached s.bits then some { s.touch.delete with worker := .exiting }
      else (s.touch.complete config).map fun s => { s with worker := .exiting }
  | .exiting => some { s with worker := .terminated }

end State

/-- One step. The threads do not switch while the creator has the kernel locked, and the
creator joins or detaches at most once. -/
def step (config : Config) (s : State) (a : Action) : Option State :=
  if s.halted then none
  else match a with
    | .creator => s.creatorStep config
    | .join => if s.creator = .ready then some { s with creator := .joinCheck } else none
    | .detach => if s.creator = .ready then some { s with creator := .detachCheck } else none
    | .notification a =>
        if s.creator = .acquire ∧ (a = .advance ∨ a = .timeout) then
          (ThreadNotification.step s.notification a).map fun notification =>
            { s.touch with notification := notification }
        else none
    | .worker => if s.notification.pc.kernelLocked then none else s.workerStep config

end OpenIotSdk.Thread
