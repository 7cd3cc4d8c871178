import Mathlib.Data.BitVec
import OpenIotSdk.Library.Ledger

/-! # Reception in `nx_driver_mdh.c`

The EMAC calls `on_receive_complete` once for each frame, between any two statements of the
IP thread. The callback sets a bit and asks the IP thread for the deferred command of the
driver, which fetches one frame if it finds the bit set. -/

namespace OpenIotSdk.Netx.Receive

/-- The functions of NetX Duo that take a received packet. -/
inductive EntryPoint where
  | ip -- `_nx_ip_packet_deferred_receive`
  | arp -- `_nx_arp_packet_deferred_receive`
  | rarp -- `_nx_rarp_packet_deferred_receive`
  deriving DecidableEq

def etherPacketTypeIp : BitVec 16 := 0x0800#16
def etherPacketTypeIpv6 : BitVec 16 := 0x86dd#16
def etherPacketTypeArp : BitVec 16 := 0x0806#16
def etherPacketTypeRarp : BitVec 16 := 0x8035#16

/-- `transfer_to_netx`: who gets the packet, or `none` where the function returns `false`. -/
def transferToNetx (packetType : BitVec 16) : Option EntryPoint :=
  if packetType = etherPacketTypeIp ∨ packetType = etherPacketTypeIpv6 then some .ip
  else if packetType = etherPacketTypeArp then some .arp
  else if packetType = etherPacketTypeRarp then some .rarp
  else none

/-- Where the IP thread is in `nx_link_deferred_processing`. -/
inductive Pc where
  | idle -- outside the command
  | test (event : Bool) -- `if (deferred_events & DEFERRED_EVENT_PACKET_RECEIVED)`
  | alloc -- `hardware_receive_packet`: the allocation of the buffer
  | receive (buffer : ℕ) -- `mdh_emac_receive`
  | discard (buffer : ℕ) -- the buffer is freed and the function returns an error
  | allocate (buffer : ℕ) -- `nx_packet_allocate`
  | copy (buffer packet : ℕ) -- `mdh_network_stack_memory_manager_copy_from_buf`
  /-- The buffer is freed; a packet that was copied has a type. -/
  | free (buffer packet : ℕ) (packetType : Option (BitVec 16))
  | transfer (packet : ℕ) (packetType : BitVec 16) -- `transfer_to_netx`
  | release (packet : ℕ) -- `nx_packet_release`
  deriving DecidableEq

structure State where
  deferredEvent : Bool -- `device->deferred_event & DEFERRED_EVENT_PACKET_RECEIVED`
  callbacks : ℕ -- the calls of `on_receive_complete` that have still to ask for the command
  requested : Bool -- the IP thread has still to run the deferred command
  pc : Pc
  failed : Bool -- the status of the last command is `NX_DRIVER_ERROR`
  received : ℕ -- how often `on_receive_complete` was called
  fetched : ℕ -- how often `mdh_emac_receive` succeeded
  memory : Ledger -- the buffers of the memory manager, which are settled when they are freed
  /-- The packets for reception, which are settled when NetX Duo takes or releases them. -/
  pool : Ledger

def init : State where
  deferredEvent := false
  callbacks := 0
  requested := false
  pc := .idle
  failed := false
  received := 0
  fetched := 0
  memory := .empty
  pool := .empty

inductive Action where
  | receiveComplete -- `on_receive_complete` up to its request
  | request -- `_nx_ip_driver_deferred_processing`
  | process (again : Bool) -- the IP thread runs the deferred command, and maybe once more later
  /-- The IP thread runs its next statement; `ok` is the answer of the memory manager, the
  EMAC or the packet pool, if it asks one, and `packetType` what a copied frame says. -/
  | advance (ok : Bool) (packetType : BitVec 16)

namespace State

def goto (s : State) (pc : Pc) : State := { s with pc := pc }

/-- The command will return with an error status. -/
def fail (s : State) (pc : Pc) : State := { s with pc := pc, failed := true }

/-- The statement at which the IP thread stands. -/
def advance (s : State) (ok : Bool) (packetType : BitVec 16) : Option State :=
  match s.pc with
  | .idle => none
  | .test event => some (s.goto (if event then .alloc else .idle))
  | .alloc =>
      some (if ok then { s with memory := s.memory.issue }.goto (.receive s.memory.issued)
        else s.fail .idle)
  | .receive buffer =>
      some (if ok then { s with fetched := s.fetched + 1 }.goto (.allocate buffer)
        else s.fail (.discard buffer))
  | .discard buffer => some ({ s with memory := s.memory.settle buffer }.goto .idle)
  | .allocate buffer =>
      some (if ok then { s with pool := s.pool.issue }.goto (.copy buffer s.pool.issued)
        else s.fail (.discard buffer))
  | .copy buffer packet =>
      some (if ok then s.goto (.free buffer packet (some packetType))
        else s.fail (.free buffer packet none))
  | .free buffer packet copied =>
      some ({ s with memory := s.memory.settle buffer }.goto
        (match copied with
          | some packetType => .transfer packet packetType
          | none => .release packet))
  | .transfer packet packetType =>
      some (match transferToNetx packetType with
        | some _ => { s with pool := s.pool.settle packet }.goto .idle
        | none => s.goto (.release packet))
  | .release packet => some ({ s with pool := s.pool.settle packet }.goto .idle)

end State

/-- One step. The deferred command reads and clears the bit with interrupts disabled. -/
def step (s : State) (a : Action) : Option State :=
  match a with
  | .receiveComplete =>
      some { s with
        received := s.received + 1
        deferredEvent := true
        callbacks := s.callbacks + 1 }
  | .request =>
      if 0 < s.callbacks then some { s with callbacks := s.callbacks - 1, requested := true }
      else none
  | .process again =>
      if s.pc = .idle ∧ s.requested = true then
        some { s with
          requested := again
          pc := .test s.deferredEvent
          deferredEvent := false
          failed := false }
      else none
  | .advance ok packetType => s.advance ok packetType

end OpenIotSdk.Netx.Receive
