import Mathlib.Data.Nat.Notation

/-! # EMAC events in `lwip_emac_netif.c`

An event says that the link changed, not which way. `emac_state_change` infers the way from
the netif and posts a callback, which the tcpip thread executes between any two of its
statements. -/

namespace OpenIotSdk.Lwip.EmacEvent

/-- The callbacks that `emac_state_change` posts. -/
inductive Callback where
  | netifSetLinkUp
  | netifSetLinkDown
  deriving DecidableEq

/-- The link flag that a callback leaves. -/
def Callback.flag : Callback → Bool
  | .netifSetLinkUp => true
  | .netifSetLinkDown => false

structure State where
  linkUp : Bool -- `netif_is_link_up(&context->lwip_netif)`
  physical : Bool -- the physical link is up
  posting : Option Callback -- what `emac_state_change` has still to post
  queue : List Callback -- the posted callbacks, the oldest first

/-- The netif says what the physical link is, and nothing is posted. -/
def init (link : Bool) : State where
  linkUp := link
  physical := link
  posting := none
  queue := []

inductive Action where
  | event -- `MDH_EMAC_EVENT_LINK_STATUS_CHANGE`: the link changes, and the handler reads the flag
  | post (ok : Bool) -- the handler calls `tcpip_callback_with_block` and ignores the result
  | execute -- the tcpip thread executes the oldest callback
  deriving DecidableEq

namespace State

/-- `emac_state_change` up to its call of `tcpip_callback_with_block`. -/
def emacStateChange (s : State) : Option State :=
  if s.posting = none then
    some { s with
      physical := !s.physical
      posting := some (if s.linkUp then .netifSetLinkDown else .netifSetLinkUp) }
  else none

/-- `tcpip_callback_with_block`, which waits for room in the queue but may lack memory. -/
def post (s : State) (ok : Bool) : Option State :=
  s.posting.map fun callback =>
    { s with posting := none, queue := if ok then s.queue ++ [callback] else s.queue }

def execute (s : State) : Option State :=
  match s.queue with
  | [] => none
  | callback :: queue => some { s with linkUp := callback.flag, queue := queue }

end State

def step (s : State) (a : Action) : Option State :=
  match a with
  | .event => s.emacStateChange
  | .post ok => s.post ok
  | .execute => s.execute

end OpenIotSdk.Lwip.EmacEvent
