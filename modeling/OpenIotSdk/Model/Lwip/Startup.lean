import OpenIotSdk.Model.Lwip.EmacEvent
import OpenIotSdk.Model.Lwip.Stack

/-! # The start of the lwIP port

`lwip_task` with `ethernetif_init`, statement by statement. Once the EMAC is powered up, it
interrupts between any two of them, and the tcpip thread executes the callbacks that are queued. -/

namespace OpenIotSdk.Lwip.Startup

open EmacEvent (Callback)

/-- The statement at which `lwip_task` stands. -/
inductive Pc where
  | semNew -- `sys_sem_new(&lwip_context.receive_semaphore, 0)`
  | networkInit -- `lwip_network_init`, and the beginning of `netif_add`
  | allocFromHeap -- `ethernetif_init`: the allocation of `rx_buffer`
  | powerUp -- `mdh_emac_power_up`
  | getMacAddr -- `mdh_emac_get_mac_addr`
  | setMacAddr -- `mdh_emac_set_mac_addr`
  | setLinkCallback -- `netif_set_link_callback`
  | setStatusCallback -- `netif_set_status_callback`, and `netif_set_default`
  | bringup -- `ethernet_interface_bringup`, up to its last assignment
  | connecting -- `context->connected = CONNECTION_STATUS_CONNECTING`
  | callback -- `tcpip_callback_with_block` for `netif_set_link_up`
  | semWait -- `sys_arch_sem_wait`
  | processInput -- `ethernetif_process_input`
  | asserted -- an assertion has failed
  deriving DecidableEq

/-- `rx_buffer`. -/
inductive RxBuffer where
  | null
  | live
  | freed
  deriving DecidableEq

structure State where
  pc : Pc
  stack : Stack.State
  linkCallback : Bool -- `netif_link_irq` is set
  receiveSemaphore : Option Bool -- its count, once it has been created
  rxBuffer : RxBuffer
  poweredUp : Bool -- the EMAC has the callbacks
  posting : Option Callback -- what `emac_state_change` has still to post
  queue : List Callback -- of the tcpip thread, the oldest first

/-- Before `lwip_task` runs. -/
def init (cfg : Stack.Config) : State where
  pc := .semNew
  stack := { Stack.init cfg [] with connected := .disconnected, dhcpHasToBeSet := false }
  linkCallback := false
  receiveSemaphore := none
  rxBuffer := .null
  poweredUp := false
  posting := none
  queue := []

inductive Action where
  | advance (ok : Bool) -- `lwip_task`; `ok` is the answer, if it asks for one
  | bringup (ipv6 : List Stack.Slot) -- `lwip_task`, with the link-local address
  | receive (done : Bool) -- `ethernetif_input`
  | event -- `emac_state_change` up to its call of `tcpip_callback_with_block`
  | post (ok : Bool) -- this call
  | execute (answers : Stack.Answers) -- the tcpip thread executes the oldest callback

namespace State

variable (cfg : Stack.Config) (s : State)

def goto (pc : Pc) : State := { s with pc := pc }

/-- `ethernetif_init` returns `ERR_IF`, and `netif_add` null: `lwip_task` goes on. -/
def initFails (rxBuffer : RxBuffer) : State := { s with rxBuffer := rxBuffer, pc := .bringup }

/-- One statement of `lwip_task`. -/
def advance (ok : Bool) : Option State :=
  match s.pc with
  | .semNew =>
      some (if ok then { s with receiveSemaphore := some false }.goto .networkInit
        else s.goto .asserted)
  | .networkInit => some (s.goto (if ok then .allocFromHeap else .asserted))
  | .allocFromHeap =>
      some (if ok then { s with rxBuffer := .live }.goto .powerUp else s.initFails .null)
  | .powerUp =>
      some (if ok then { s with poweredUp := true }.goto .getMacAddr else s.initFails .freed)
  | .getMacAddr => some (s.goto (if ok then .setLinkCallback else .setMacAddr))
  | .setMacAddr => some (if ok then s.goto .setLinkCallback else s.initFails .freed)
  | .setLinkCallback => some ({ s with linkCallback := true }.goto .setStatusCallback)
  | .setStatusCallback => some (s.goto .bringup)
  | .connecting =>
      some ({ s with stack := { s.stack with connected := .connecting } }.goto .callback)
  | .callback =>
      let queue := if ok then s.queue ++ [Callback.netifSetLinkUp] else s.queue
      some ({ s with queue := queue }.goto .semWait)
  | .semWait =>
      if s.receiveSemaphore = some true then
        some ({ s with receiveSemaphore := some false }.goto .processInput)
      else none
  | .processInput => some (s.goto .semWait)
  | .bringup | .asserted => none

/-- `ethernet_interface_bringup`. -/
def interfaceBringup (ipv6 : List Stack.Slot) : Option State :=
  if s.pc = .bringup then
    some (if s.stack.connected = .globalUp ∨ s.stack.connected = .connecting then s.goto .callback
      else
        { s with
          stack :=
            { s.stack with
              dhcpHasToBeSet := s.stack.dhcpHasToBeSet || cfg.dhcp
              netif := { s.stack.netif with ipv6 := ipv6 } } }.goto .connecting)
  else none

/-- `netif_set_link_up` and `netif_set_link_down` call `netif_link_irq` once it is set. -/
def setLink (answers : Stack.Answers) (callback : Callback) : Stack.State :=
  match callback, s.linkCallback with
  | .netifSetLinkUp, true => s.stack.netifSetLinkUp cfg answers
  | .netifSetLinkDown, true => s.stack.netifSetLinkDown cfg answers
  | callback, false => s.stack.setLinkUp callback.flag

/-- `emac_state_change`. -/
def emacStateChange : Option State :=
  if s.poweredUp = true ∧ s.posting = none then
    some { s with
      posting := some (if s.stack.netif.linkUp then .netifSetLinkDown else .netifSetLinkUp) }
  else none

end State

def step (cfg : Stack.Config) (s : State) : Action → Option State
  | .advance ok => s.advance ok
  | .bringup ipv6 => s.interfaceBringup cfg ipv6
  | .receive done =>
      if s.poweredUp then
        some (if done then { s with receiveSemaphore := s.receiveSemaphore.map fun _ => true }
          else s)
      else none
  | .event => s.emacStateChange
  | .post ok =>
      s.posting.map fun callback =>
        { s with posting := none, queue := if ok then s.queue ++ [callback] else s.queue }
  | .execute answers =>
      match s.queue with
      | [] => none
      | callback :: queue => some { s with stack := s.setLink cfg answers callback, queue := queue }

end OpenIotSdk.Lwip.Startup
