import Mathlib.Data.Nat.Notation
import Mathlib.Logic.Function.Basic

/-! # The link in `nx_driver_mdh.c`

NetX Duo runs the link commands one at a time, and the EMAC calls `on_event` between any two
statements of them. The driver writes `nx_interface_link_up` of the interface that a command
names, and `on_event` that of interface 0. -/

namespace OpenIotSdk.Netx.Link

/-- The values of `device->state`, which has static storage. -/
inductive DriverState where
  | zero -- before the first command
  | notInitialized -- `NX_DRIVER_STATE_NOT_INITIALIZED`
  | initializeFailed -- `NX_DRIVER_STATE_INITIALIZE_FAILED`
  | initialized -- `NX_DRIVER_STATE_INITIALIZED`
  | linkEnabled -- `NX_DRIVER_STATE_LINK_ENABLED`
  deriving DecidableEq

def DriverState.value : DriverState → ℕ
  | .zero => 0
  | .notInitialized => 1
  | .initializeFailed => 2
  | .initialized => 3
  | .linkEnabled => 4

/-- `nx_ip_driver_status`. -/
inductive Status where
  | success -- `NX_SUCCESS`
  | driverError -- `NX_DRIVER_ERROR`
  | alreadyEnabled -- `NX_ALREADY_ENABLED`
  deriving DecidableEq

/-- An interface is an entry of `nx_ip_interface` of an IP instance. -/
abbrev Interface (I : Type*) := I × ℕ

/-- Where a link command is that has called the EMAC with success. -/
inductive Pc (I : Type*) where
  | idle -- outside the commands
  | linkUp (interface : Interface I) -- `nx_link_enable`: `nx_interface_link_up = NX_TRUE`
  | linkDown (interface : Interface I) -- `nx_link_disable`: `nx_interface_link_up = NX_FALSE`
  deriving DecidableEq

structure State (I : Type*) where
  state : DriverState -- `device->state`
  interface : Option (Interface I) -- `device->nx_driver->interface`
  ip : Option I -- `device->nx_driver->ip`
  linkUp : Interface I → Bool -- `nx_interface_link_up`
  physical : Bool -- the physical link is up
  pc : Pc I
  status : Status -- of the last command

/-- The driver before its first command; the interfaces of a new IP instance are down. -/
def init (I : Type*) : State I where
  state := .zero
  interface := none
  ip := none
  linkUp := fun _ => false
  physical := false
  pc := .idle
  status := .success

inductive Action (I : Type*) where
  | linkInterfaceAttach (interface : Interface I) (ip : I) -- `NX_LINK_INTERFACE_ATTACH`
  /-- `NX_LINK_INITIALIZE`, with the answers of `mdh_emac_power_up` and
  `mdh_emac_get_mac_addr`. -/
  | linkInitialize (powerUp macAddr : Bool)
  | linkEnable (interface : Interface I) (powerUp : Bool) -- `NX_LINK_ENABLE`
  | linkDisable (interface : Interface I) (powerDown : Bool) -- `NX_LINK_DISABLE`
  | resume -- the rest of the command under way
  | event -- `MDH_EMAC_EVENT_LINK_STATUS_CHANGE`

namespace State

variable {I : Type*} [DecidableEq I]

/-- `nx_link_interface_attach`. -/
def nxLinkInterfaceAttach (s : State I) (interface : Interface I) (ip : I) : State I :=
  { s with interface := some interface, ip := some ip, status := .success }

/-- `hardware_enable`: an EMAC that is powered up has its link up. -/
def hardwareEnable (s : State I) (powerUp : Bool) : State I :=
  if powerUp then { s with physical := true } else s

/-- `nx_link_initialize` with `hardware_initialize`. From the call of `mdh_emac_power_up` on,
the driver touches nothing that an event does. -/
def nxLinkInitialize (s : State I) (powerUp macAddr : Bool) : State I :=
  let s := { s with state := .notInitialized }.hardwareEnable powerUp
  if powerUp && macAddr then { s with state := .initialized, status := .success }
  else { s with status := .driverError }

/-- `nx_link_enable` up to its call of the EMAC. -/
def nxLinkEnable (s : State I) (interface : Interface I) (powerUp : Bool) : State I :=
  if s.state.value < DriverState.initialized.value then { s with status := .driverError }
  else if s.state = .linkEnabled then { s with status := .alreadyEnabled }
  else if powerUp then { s.hardwareEnable powerUp with pc := .linkUp interface }
  else { s with status := .driverError }

/-- `nx_link_disable` up to its call of the EMAC. -/
def nxLinkDisable (s : State I) (interface : Interface I) (powerDown : Bool) : State I :=
  if s.state ≠ .linkEnabled then { s with status := .driverError }
  else if powerDown then { s with pc := .linkDown interface }
  else { s with status := .driverError }

/-- What `nx_link_enable` and `nx_link_disable` do after the EMAC succeeded. -/
def resume (s : State I) : Option (State I) :=
  match s.pc with
  | .idle => none
  | .linkUp interface =>
      some { s with
        linkUp := Function.update s.linkUp interface true
        state := .linkEnabled
        pc := .idle
        status := .success }
  | .linkDown interface =>
      some { s with
        linkUp := Function.update s.linkUp interface false
        state := .initialized
        pc := .idle
        status := .success }

/-- `on_event`, which needs an IP instance. -/
def onEvent (s : State I) : Option (State I) :=
  s.ip.map fun ip =>
    { s with
      physical := !s.physical
      linkUp := Function.update s.linkUp (ip, 0) (!s.linkUp (ip, 0)) }

end State

variable {I : Type*} [DecidableEq I]

/-- One step: `nx_driver_mdh_ip_link_fsm` for the link commands, and the event. -/
def step (s : State I) (a : Action I) : Option (State I) :=
  match a with
  | .linkInterfaceAttach interface ip =>
      if s.pc = .idle then some (s.nxLinkInterfaceAttach interface ip) else none
  | .linkInitialize powerUp macAddr =>
      if s.pc = .idle then some (s.nxLinkInitialize powerUp macAddr) else none
  | .linkEnable interface powerUp =>
      if s.pc = .idle then some (s.nxLinkEnable interface powerUp) else none
  | .linkDisable interface powerDown =>
      if s.pc = .idle then some (s.nxLinkDisable interface powerDown) else none
  | .resume => s.resume
  | .event => s.onEvent

end OpenIotSdk.Netx.Link
