import Mathlib.Data.Nat.Notation
import Mathlib.Logic.Function.Basic

/-! # The mutex of the TF-M interface on ThreadX

`os_wrapper_threadx.c`: any threads create, acquire, release and delete the one mutex that there is.
A flag says whether it has been created, and ThreadX knows it too. -/

namespace OpenIotSdk.Tfm.OsWrapper

variable {Tid : Type}

/-- What a function returns. -/
inductive Result where
  | handle -- `&mutex`
  | null
  | success -- `OS_WRAPPER_SUCCESS`
  | error -- `OS_WRAPPER_ERROR`
  deriving DecidableEq

/-- What a thread does next. -/
inductive Pc where
  | idle (res : Result) -- outside, with the result of the last call
  | create -- `tx_mutex_create`
  | created -- `was_mutex_created = true`
  | get (forever : Bool) -- `tx_mutex_get`
  | suspended (forever : Bool) -- within `tx_mutex_get`
  | put -- `tx_mutex_put`
  | delete -- `tx_mutex_delete`
  | deleted -- `was_mutex_created = false`
  deriving DecidableEq

/-- A call; a handle may be another pointer than `&mutex`. -/
inductive Call where
  | create
  | acquire (handle : Bool) (timeout : BitVec 32)
  | release (handle : Bool)
  | delete (handle : Bool)

structure State (Tid : Type) where
  wasMutexCreated : Bool
  live : Bool -- the control block is a mutex of ThreadX
  owner : Option (Tid × ℕ) -- its owner, and how often it was taken again
  pc : Tid → Pc

inductive Action (Tid : Type) where
  | call (i : Tid) (call : Call)
  | advance (i : Tid) (ok : Bool) -- ThreadX refuses the operation, or gives up waiting, unless `ok`

def init : State Tid where
  wasMutexCreated := false
  live := false
  owner := none
  pc := fun _ => .idle .null

/-- `OS_WRAPPER_WAIT_FOREVER`. -/
def osWrapperWaitForever : BitVec 32 := 0xFFFFFFFF

/-- A function up to its call of ThreadX: the flag is read. -/
def Call.start (wasMutexCreated : Bool) : Call → Pc
  | .create => if !wasMutexCreated then .create else .idle .null
  | .acquire handle timeout =>
      if handle && wasMutexCreated then .get (timeout == osWrapperWaitForever) else .idle .error
  | .release handle => if handle && wasMutexCreated then .put else .idle .error
  | .delete handle => if handle && wasMutexCreated then .delete else .idle .error

variable [DecidableEq Tid]

namespace State

variable (s : State Tid) (i : Tid)

def goto (pc : Pc) : State Tid := { s with pc := Function.update s.pc i pc }

/-- ThreadX gives the mutex to `i`, if it is free or has been taken by `i`. -/
def take : Option (State Tid) :=
  match s.owner with
  | none => some ({ s with owner := some (i, 0) }.goto i (.idle .success))
  | some (j, again) =>
      if j = i then some ({ s with owner := some (i, again + 1) }.goto i (.idle .success)) else none

/-- `tx_mutex_put`, by its owner. -/
def give : State Tid :=
  match s.owner with
  | some (j, 0) =>
      if j = i then { s with owner := none }.goto i (.idle .success) else s.goto i (.idle .error)
  | some (j, again + 1) =>
      if j = i then { s with owner := some (i, again) }.goto i (.idle .success)
      else s.goto i (.idle .error)
  | none => s.goto i (.idle .error)

/-- `tx_mutex_delete`: the threads that wait for the mutex get an error. -/
def txMutexDelete : State Tid :=
  { s with
    live := false
    owner := none
    pc := fun j => match s.pc j with
      | .suspended _ => .idle .error
      | pc => pc }

def advance (ok : Bool) : Option (State Tid) :=
  match s.pc i with
  | .idle _ => none
  | .create =>
      some (if s.live = false ∧ ok = true then
        { s with live := true, owner := none }.goto i .created
      else s.goto i (.idle .null))
  | .created => some ({ s with wasMutexCreated := true }.goto i (.idle .handle))
  | .get forever =>
      some (if s.live = false ∨ ok = false ∧ forever = false then s.goto i (.idle .error)
        else (s.take i).getD (s.goto i (.suspended forever)))
  | .suspended forever =>
      if ok then s.take i else if forever then none else some (s.goto i (.idle .error))
  | .put => some (if s.live = false then s.goto i (.idle .error) else s.give i)
  | .delete =>
      some (if s.live = true ∧ ok = true then s.txMutexDelete.goto i .deleted
        else s.goto i (.idle .error))
  | .deleted => some ({ s with wasMutexCreated := false }.goto i (.idle .success))

end State

def step (s : State Tid) : Action Tid → Option (State Tid)
  | .call i call =>
      match s.pc i with
      | .idle _ => some (s.goto i (call.start s.wasMutexCreated))
      | _ => none
  | .advance i ok => s.advance i ok

end OpenIotSdk.Tfm.OsWrapper
