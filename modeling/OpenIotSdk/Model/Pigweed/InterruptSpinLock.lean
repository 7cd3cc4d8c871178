import Mathlib.Data.Int.Order.Basic
import Mathlib.Logic.Function.Basic

/-! # `NativeInterruptSpinLock`

`native_interrupt_spin_lock.cc`. Each call of `try_lock` and `unlock` is one step, from a thread or
from an interrupt handler. -/

namespace OpenIotSdk.InterruptSpinLock

/-- `USER_NMI_PRIORITY`, the masking level. -/
def userNmiPriority : ℕ := 16

/-- What `InInterruptContext` tells apart. -/
inductive Context where
  | thread
  | interrupt
  deriving DecidableEq

structure NativeInterruptSpinLock where
  locked : Bool
  savedIrqState : ℕ

structure State (Id : Type*) where
  basepri : ℕ
  /-- An `int`. It is unbounded here, so fewer than `2 ^ 31` locks are to be held at a time. -/
  nestedCriticalSections : ℤ
  locks : Id → NativeInterruptSpinLock
  held : List Id -- the locks that are held, the last one first
  found : ℕ -- `BASEPRI` before the first of them was taken, or while none is held
  eldest : Option Id -- the one that was taken when none was held, if it still is

inductive Action (Id : Type*) where
  | tryLock (id : Id) (context : Context)
  | unlock (id : Id) (context : Context)
  | setBasepri (value : ℕ) -- by other code, while no lock is held

variable {Id : Type*} [DecidableEq Id]

def init (basepri : ℕ) : State Id where
  basepri := basepri
  nestedCriticalSections := 0
  locks := fun _ => ⟨false, 0⟩
  held := []
  found := basepri
  eldest := none

namespace State

def setTargetIrqState (s : State Id) (id : Id) : State Id :=
  { s with
    locks := Function.update s.locks id { s.locks id with savedIrqState := s.basepri }
    basepri := userNmiPriority }

def clearIrqState (s : State Id) : State Id := { s with basepri := 0 }

def restoreSavedIrqState (s : State Id) (id : Id) : State Id :=
  { s with basepri := (s.locks id).savedIrqState }

def enterCriticalSection (s : State Id) (id : Id) : State Id :=
  let s := s.setTargetIrqState id
  { s with nestedCriticalSections := s.nestedCriticalSections + 1 }

def exitCriticalSection (s : State Id) (id : Id) : State Id :=
  let s := { s with nestedCriticalSections := s.nestedCriticalSections - 1 }
  if s.nestedCriticalSections = 0 then s.restoreSavedIrqState id else s

/-- `try_lock`. -/
def tryLock (s : State Id) (id : Id) (context : Context) : State Id :=
  let s := match context with
    | .interrupt => s.setTargetIrqState id
    | .thread => s.enterCriticalSection id
  { s with locks := Function.update s.locks id { s.locks id with locked := true } }

/-- `unlock`. -/
def unlock (s : State Id) (id : Id) (context : Context) : State Id :=
  let s := { s with locks := Function.update s.locks id { s.locks id with locked := false } }
  match context with
  | .interrupt => s.clearIrqState
  | .thread => s.exitCriticalSection id

/-- Another lock is held. -/
def noteLock (s : State Id) (id : Id) (basepri : ℕ) : State Id :=
  match s.held with
  | [] => { s with held := [id], found := basepri, eldest := some id }
  | _ :: _ => { s with held := id :: s.held }

/-- One lock fewer is held. -/
def noteUnlock (s : State Id) (id : Id) : State Id :=
  { s with
    held := s.held.erase id
    eldest := if s.eldest = some id then none else s.eldest }

end State

/-- One call, of `try_lock` on a lock that is not held or of `unlock` on one that is. -/
def step (s : State Id) : Action Id → Option (State Id)
  | .tryLock id context =>
      if (s.locks id).locked then none else some ((s.tryLock id context).noteLock id s.basepri)
  | .unlock id context =>
      if (s.locks id).locked then some ((s.unlock id context).noteUnlock id) else none
  | .setBasepri value =>
      match s.held with
      | [] => some { s with basepri := value, found := value }
      | _ :: _ => none

end OpenIotSdk.InterruptSpinLock
