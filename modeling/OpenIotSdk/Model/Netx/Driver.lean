import OpenIotSdk.Model.Netx.Receive
import OpenIotSdk.Model.Netx.Transmit

/-! # The buffers of `nx_driver_mdh.c`

Transmission and reception take their buffers from one memory manager. The IP thread runs
one command at a time, and the callbacks of the EMAC come between any two of its
statements. -/

namespace OpenIotSdk.Netx.Driver

structure State where
  transmit : Netx.State
  receive : Receive.State
  sending : Option ℕ -- `buffer` in `hardware_send_packet`, as long as the function uses it
  flying : List ℕ -- the buffers of the transmissions that the EMAC accepted, in their order
  freeing : Option ℕ -- `buffer` in `on_transmit_complete`, once the packet is released

/-- An initialized driver whose link is up. -/
def init (mtu : ℕ) (packets : ℕ → Packet) : State where
  transmit := Netx.init mtu packets
  receive := Receive.init
  sending := none
  flying := []
  freeing := none

inductive Action where
  | transmit (action : Netx.Action) -- a step of a send command or of `on_transmit_complete`
  | free -- `on_transmit_complete`: `mdh_network_stack_memory_manager_free`
  | receive (action : Receive.Action) -- a step of `on_receive_complete` or of the deferred command

namespace State

def setMemory (s : State) (memory : Ledger) : State :=
  { s with receive := { s.receive with memory := memory } }

/-- What a statement of `hardware_send_packet` does with its buffer. -/
def advance (s : State) (ok : Bool) : State :=
  match s.transmit.pc with
  | .alloc _ =>
      if ok then
        { s.setMemory s.receive.memory.issue with sending := some s.receive.memory.issued }
      else s
  -- The function ends after `mdh_emac_transmit` without another use of the buffer.
  | .transmit _ =>
      if ok then { s with sending := none, flying := s.flying ++ s.sending.toList }
      else { s with sending := none }
  | _ => s

/-- What a statement of `on_transmit_complete` before the last one does with its buffer. -/
def transmitComplete (s : State) : State :=
  match s.transmit.callback with
  | .release => { s with flying := s.flying.tail, freeing := s.flying.head? }
  | _ => s

/-- What a step of the transmission does with the buffers. -/
def track (s : State) (a : Netx.Action) : State :=
  match a with
  | .advance ok => s.advance ok
  | .callback => s.transmitComplete
  | _ => s

/-- The IP thread is at no other command, and the callback not at its last statement. -/
def Ready (s : State) : Action → Prop
  | .transmit (.send _ _) | .transmit (.link _) => s.receive.pc = .idle
  | .transmit .callback => s.freeing = none
  | .receive (.process _) => s.transmit.pc = .idle
  | _ => True

instance (s : State) (a : Action) : Decidable (s.Ready a) :=
  match a with
  | .transmit (.send _ _) | .transmit (.link _) | .transmit .callback | .receive (.process _) =>
      inferInstanceAs (Decidable (_ = _))
  | .transmit (.advance _) | .free | .receive .receiveComplete | .receive .request
  | .receive (.advance _ _) => isTrue trivial

end State

def step (s : State) (a : Action) : Option State :=
  if s.Ready a then
    match a with
    | .transmit action =>
        (Netx.step s.transmit action).map fun transmit =>
          { s.track action with transmit := transmit }
    | .free =>
        s.freeing.map fun buffer =>
          { s.setMemory (s.receive.memory.settle buffer) with freeing := none }
    | .receive action =>
        (Receive.step s.receive action).map fun receive => { s with receive := receive }
  else none

end OpenIotSdk.Netx.Driver
