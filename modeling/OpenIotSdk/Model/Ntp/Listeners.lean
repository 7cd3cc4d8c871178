import Mathlib.Data.Finset.Erase
import Mathlib.Logic.Function.Basic
import OpenIotSdk.Model.Ntp.Context

/-! # The listeners of `iot_ntp_client.c`

The first node of the list is part of `ntp_context`, and the others are allocated. The calls of
the RTOS are arguments, and so are the blocks that `malloc` gives, with their contents. -/

namespace OpenIotSdk.Ntp

/-- The address of a node. -/
inductive Ref where
  | head -- `&ntp_context.listeners`
  | block (address : ℕ)
  deriving DecidableEq

/-- `iotNtpClientListener_t`. -/
structure Listener (β γ : Type*) where
  cb : Option β
  ctx : Option γ
  next : Option Ref

/-- A block that `malloc` gives. -/
structure Block (β γ : Type*) where
  address : ℕ
  contents : Listener β γ

structure Registry (β γ : Type*) where
  node : Ref → Listener β γ
  live : Finset ℕ -- the blocks that are allocated
  mallocs : ℕ -- how many blocks have been allocated so far
  misfreed : List Ref -- what was passed to `free` and was no block that is allocated
  registered : List (β × Option γ) -- since the last clear
  invoked : List (β × Option γ) -- by the last update
  result : Result -- of the last call

namespace Registry

variable {β γ : Type*}

/-- After the initialization; the heap is as it happens to be. -/
def new (heap : ℕ → Listener β γ) : Registry β γ where
  node
    | .head => ⟨none, none, none⟩
    | .block address => heap address
  live := ∅
  mallocs := 0
  misfreed := []
  registered := []
  invoked := []
  result := .ok

variable (s : Registry β γ)

def set (r : Ref) (listener : Listener β γ) : Registry β γ :=
  { s with node := Function.update s.node r listener }

def setNext (r : Ref) (next : Option Ref) : Registry β γ := s.set r { s.node r with next := next }

def malloc (block : Block β γ) : Registry β γ :=
  { s.set (.block block.address) block.contents with
    live := insert block.address s.live
    mallocs := s.mallocs + 1 }

def free : Ref → Registry β γ
  | .head => { s with misfreed := .head :: s.misfreed }
  | .block address =>
      if address ∈ s.live then { s with live := s.live.erase address }
      else { s with misfreed := .block address :: s.misfreed }

def ret (result : Result) : Registry β γ := { s with result := result }

/-- A new node after `r`. -/
def extend (r : Ref) (block : Block β γ) : Registry β γ :=
  ((s.malloc block).setNext r (some (.block block.address))).setNext (.block block.address) none

/-- The loop of `iotNtpClientAddListener`, which ends at a node without a callback. -/
def findEnd : ℕ → List (Block β γ) → Ref → Registry β γ → Option (Registry β γ × Ref)
  | 0, _, _, _ => none
  | fuel + 1, blocks, r, s =>
      if (s.node r).cb.isNone then some (s, r)
      else
        match (s.node r).next, blocks with
        | some next, blocks => findEnd fuel blocks next s
        | none, [] => none
        | none, block :: blocks =>
            if block.address ∈ s.live then none
            else findEnd fuel blocks (.block block.address) (s.extend r block)

/-- The node gets the callback, and the context if there is one. -/
def put (r : Ref) (callback : β) (context : Option γ) : Registry β γ :=
  { s.set r { s.node r with cb := some callback, ctx := context.or (s.node r).ctx } with
    registered := s.registered ++ [(callback, context)] }

/-- The fuel is enough for all the nodes there are or can be. -/
def iotNtpClientAddListener (state : ClientState) (callback : Option β) (context : Option γ)
    (acquire release : ℤ) (blocks : List (Block β γ)) : Option (Registry β γ) :=
  match callback with
  | none => some (s.ret .errInvalidArg)
  | some callback =>
      if state = .uninitialised then some (s.ret .errWrongState)
      else if acquire ≠ 0 then some (s.ret .errMutex)
      else
        (findEnd (s.mallocs + blocks.length + 1) blocks .head s).map fun (s, r) =>
          (s.put r callback context).ret (if release ≠ 0 then .errMutex else .ok)

/-- The loop of `iotNtpClientClearListeners`. -/
def freeAll : ℕ → Ref → Registry β γ → Registry β γ
  | 0, _, s => s
  | fuel + 1, r, s =>
      match (s.node r).next with
      | none => s
      | some next => freeAll fuel next (s.free r)

def iotNtpClientClearListeners (state : ClientState) (acquire release : ℤ) : Registry β γ :=
  if state = .uninitialised then s.ret .errWrongState
  else if acquire ≠ 0 then s.ret .errMutex
  else
    let s := s.set .head { s.node .head with cb := none, ctx := none }
    { freeAll (s.mallocs + 1) .head s with registered := [] }.ret
      (if release ≠ 0 then .errMutex else .ok)

/-- The callbacks that an update invokes, from a node on. -/
def notifyFrom : ℕ → Option Ref → List (β × Option γ)
  | 0, _ | _, none => []
  | fuel + 1, some r =>
      match (s.node r).cb with
      | none => []
      | some cb => (cb, (s.node r).ctx) :: notifyFrom fuel (s.node r).next

/-- The listeners are called in `ntp_task`. -/
def notify : List (β × Option γ) := s.notifyFrom (s.mallocs + 1) (some .head)

inductive Action (β γ : Type*) where
  | add (state : ClientState) (callback : Option β) (context : Option γ) (acquire release : ℤ)
      (blocks : List (Block β γ))
  | clear (state : ClientState) (acquire release : ℤ)
  | update -- `ntp_task` has acquired the mutex, and has a new time

def step (s : Registry β γ) : Action β γ → Option (Registry β γ)
  | .add state callback context acquire release blocks =>
      s.iotNtpClientAddListener state callback context acquire release blocks
  | .clear state acquire release => some (s.iotNtpClientClearListeners state acquire release)
  | .update => some { s with invoked := s.notify }

end Registry

end OpenIotSdk.Ntp
