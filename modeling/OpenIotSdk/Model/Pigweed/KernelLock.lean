import Mathlib.Data.Int.Order.Basic
import Mathlib.Logic.Function.Basic

/-! # `KernelLock`

`kernel_lock.cc`, one step for each access to a shared variable and for each kernel call. The
running thread is only switched while the kernel is not locked. -/

namespace OpenIotSdk.KernelLock

/-- `osKernelLock` returns the previous state. -/
def osKernelLock (locked : Bool) : ℤ := if locked then 1 else 0

/-- The state after `osKernelRestoreLock`, and what it returns: the new state, or `osError`. -/
def osKernelRestoreLock (locked : Bool) (lock : ℤ) : Bool × ℤ :=
  if lock = 1 then (true, 1) else if lock = 0 then (false, 0) else (locked, -1)

/-- Where a thread is. A constructor names what runs next, and carries the local variables. -/
inductive Pc (Obj : Type*) where
  | idle -- outside every call
  | lockTest (lock : Obj) -- `lock()`: `if (counter_ == 0)`
  | lockKernel (lock : Obj) -- `lock()`: `osKernelLock()`
  | lockStore (lock : Obj) (state : ℤ) -- `lock()`: `prev_lock_` is assigned
  | lockCheck (lock : Obj) -- `lock()`: the check of `prev_lock_`
  | lockRead (lock : Obj) -- `lock()`: `counter_++` reads
  | lockWrite (lock : Obj) (value : ℤ) -- `lock()`: `counter_++` writes
  | unlockRead -- `unlock()`: `counter_--` reads
  | unlockWrite (value : ℤ) -- `unlock()`: `counter_--` writes
  | unlockTest -- `unlock()`: `if (counter_ == 0)`
  | unlockLoad -- `unlock()`: `prev_lock_` is read
  | unlockRestore (state : ℤ) -- `unlock()`: `osKernelRestoreLock`
  | unlockCheck (res : ℤ) -- `unlock()`: the check of its result
  deriving DecidableEq

structure State (Tid Obj : Type*) where
  current : Tid -- the thread that runs
  locked : Bool -- the kernel lock
  /-- `counter_`, an `int`. It is unbounded here, so fewer than `2 ^ 31` locks are to be nested. -/
  counter : ℤ
  prevLock : ℤ -- `prev_lock_`
  pc : Tid → Pc Obj
  held : Tid → List Obj -- the objects that a thread has locked, the last one first
  found : Tid → Bool -- the kernel lock when the thread called its outermost `lock()`
  halted : Bool -- a `PW_CHECK` has failed

inductive Action (Tid Obj : Type*) where
  | lock (lock : Obj)
  | unlock -- of the object locked last
  | advance -- the thread runs its next statement
  | switch (next : Tid)
  | kernel (locked : Bool) -- other code of the thread, outside its locks, locks the kernel or not

variable {Tid Obj : Type*} [DecidableEq Tid]

/-- The kernel may be locked from the start. -/
def init (current : Tid) (locked : Bool) : State Tid Obj where
  current := current
  locked := locked
  counter := 0
  prevLock := -1
  pc := fun _ => .idle
  held := fun _ => []
  found := fun _ => false
  halted := false

namespace State

def goto (s : State Tid Obj) (pc : Pc Obj) : State Tid Obj :=
  { s with pc := Function.update s.pc s.current pc }

/-- A failed `PW_CHECK`. -/
def halt (s : State Tid Obj) : State Tid Obj := { s with halted := true }

def setHeld (s : State Tid Obj) (held : List Obj) : State Tid Obj :=
  { s with held := Function.update s.held s.current held }

/-- `lock()` is called. -/
def enter (s : State Tid Obj) (lock : Obj) : State Tid Obj :=
  match s.held s.current with
  | [] => { s with found := Function.update s.found s.current s.locked }.goto (.lockTest lock)
  | _ :: _ => s.goto (.lockTest lock)

/-- The statement at which the running thread stands. -/
def advance (s : State Tid Obj) : Option (State Tid Obj) :=
  match s.pc s.current with
  | .idle => none
  | .lockTest lock => some (s.goto (if s.counter = 0 then .lockKernel lock else .lockRead lock))
  | .lockKernel lock =>
      some ({ s with locked := true }.goto (.lockStore lock (osKernelLock s.locked)))
  | .lockStore lock state => some ({ s with prevLock := state }.goto (.lockCheck lock))
  | .lockCheck lock => some (if s.prevLock < 0 then s.halt else s.goto (.lockRead lock))
  | .lockRead lock => some (s.goto (.lockWrite lock s.counter))
  | .lockWrite lock value =>
      some (({ s with counter := value + 1 }.setHeld (lock :: s.held s.current)).goto .idle)
  | .unlockRead => some (s.goto (.unlockWrite s.counter))
  | .unlockWrite value =>
      some (({ s with counter := value - 1 }.setHeld (s.held s.current).tail).goto .unlockTest)
  | .unlockTest => some (s.goto (if s.counter = 0 then .unlockLoad else .idle))
  | .unlockLoad => some (s.goto (.unlockRestore s.prevLock))
  | .unlockRestore state =>
      let (locked, res) := osKernelRestoreLock s.locked state
      some ({ s with locked := locked }.goto (.unlockCheck res))
  | .unlockCheck res => some (if res < 0 then s.halt else s.goto .idle)

end State

/-- One step of the system. A thread calls `unlock()` only for what it has locked. -/
def step (s : State Tid Obj) (a : Action Tid Obj) : Option (State Tid Obj) :=
  if s.halted then none
  else match a with
    | .lock lock =>
        match s.pc s.current with
        | .idle => some (s.enter lock)
        | _ => none
    | .unlock =>
        match s.pc s.current, s.held s.current with
        | .idle, _ :: _ => some (s.goto .unlockRead)
        | _, _ => none
    | .advance => s.advance
    | .switch next => if s.locked then none else some { s with current := next }
    | .kernel locked =>
        match s.pc s.current, s.held s.current with
        | .idle, [] => some { s with locked := locked }
        | _, _ => none

end OpenIotSdk.KernelLock
