import OpenIotSdk.Library.Sharing
import OpenIotSdk.Model.Pigweed.InternalMutex
import OpenIotSdk.Model.Pigweed.ThreadNotification

/-! # The flag words of threads with a mutex and notifications

The threads of `internal_mutex.cc` each have a notification of `native_thread_notification.cc` too,
and other code. All of it works on one flag word for each thread. More interleavings are allowed
than the kernel lock and the calls of a thread leave. -/

namespace OpenIotSdk.SharedFlags

open Cmsis

variable {Tid : Type}

/-- What works on the flag words. -/
inductive Part (Tid : Type) where
  | mutex
  | notification (subscriber : Tid)
  | other
  deriving DecidableEq

/-- The state of a part; the flag words in it are those of its last step. -/
def Part.State : Part Tid → Type
  | .mutex => InternalMutex.State Tid
  | .notification _ => ThreadNotification.State
  | .other => Unit

def Part.Action : Part Tid → Type
  | .mutex => InternalMutex.Action Tid
  | .notification _ => ThreadNotification.Action
  | .other => Tid × Flags

/-- The action is one of `internal_mutex.cc`. -/
def mutexAct : InternalMutex.Action Tid → Bool
  | .other _ _ => false
  | _ => true

/-- The action is one of `native_thread_notification.cc`. -/
def notificationAct : ThreadNotification.Action → Bool
  | .other _ => false
  | _ => true

variable [DecidableEq Tid]

def mutexPart : Sharing.Component (Tid → Flags) (InternalMutex.State Tid)
    (InternalMutex.Action Tid) where
  step words s a :=
    if mutexAct a then (InternalMutex.step { s with flags := words } a).map fun t => (t.flags, t)
    else none
  stops s := s.halted

def notificationPart (subscriber : Tid) : Sharing.Component (Tid → Flags)
    ThreadNotification.State ThreadNotification.Action where
  step words s a :=
    if notificationAct a then
      (ThreadNotification.step { s with flags := words subscriber } a).map fun t =>
        (Function.update words subscriber t.flags, t)
    else none
  stops s := s.halted

/-- Other code leaves the two wait flags alone. -/
def otherPart : Sharing.Component (Tid → Flags) Unit (Tid × Flags) where
  step words s a :=
    if isBitSet a.2 InternalMutex.mutexWaitFlag =
        isBitSet (words a.1) InternalMutex.mutexWaitFlag
      ∧ isBitSet a.2 ThreadNotification.waitFlag =
        isBitSet (words a.1) ThreadNotification.waitFlag
      ∧ isOsFlagsError a.2 = false then some (Function.update words a.1 a.2, s)
    else none
  stops _ := false

def parts : ∀ i : Part Tid, Sharing.Component (Tid → Flags) i.State i.Action
  | .mutex => mutexPart
  | .notification subscriber => notificationPart subscriber
  | .other => otherPart

abbrev State (Tid : Type) := Sharing.State (Tid → Flags) fun i : Part Tid => i.State

/-- Nobody has called anything yet. -/
def init : State Tid :=
  Sharing.init (fun _ => 0#32) fun
    | .mutex => InternalMutex.init
    | .notification _ => ThreadNotification.init
    | .other => ()

end OpenIotSdk.SharedFlags
