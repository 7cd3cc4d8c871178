import Mathlib.Data.BitVec

/-! # The network state in `lwip_stack.c`

lwIP calls `netif_link_irq` and `netif_status_irq` on its own thread, one outermost callback
at a time. The link callback sets the interface up or down, which calls the status callback
before it returns. -/

namespace OpenIotSdk.Lwip.Stack

/-! ## The interface -/

/-- The address families that are compiled in; at least one is. -/
inductive Families where
  | ipv4 -- `LWIP_IPV4` alone
  | ipv6 -- `LWIP_IPV6` alone
  | both (prefIpv4 : Bool) -- `IP_VERSION_PREF == PREF_IPV4`
  deriving DecidableEq

structure Config where
  families : Families
  prefAddrTimeout : Bool -- `PREF_ADDR_TIMEOUT`
  bothAddrTimeout : Bool -- `BOTH_ADDR_TIMEOUT`
  dhcp : Bool -- `LWIP_DHCP`
  networkStateCallback : Bool -- `context->network_state_callback` is no null pointer

inductive IpAddr where
  | v4 (addr : BitVec 32)
  | v6 (addr : BitVec 128)
  deriving DecidableEq

/-- `ip4_addr_islinklocal`: 169.254/16. -/
def ip4AddrIsLinkLocal (addr : BitVec 32) : Bool := addr.extractLsb' 16 16 == 0xa9fe#16

/-- `ip6_addr_islinklocal`: fe80/10. -/
def ip6AddrIsLinkLocal (addr : BitVec 128) : Bool := addr.extractLsb' 118 10 == 0x3fa#10

/-- `ip_addr_islinklocal`. -/
def IpAddr.isLinkLocal : IpAddr → Bool
  | .v4 addr => ip4AddrIsLinkLocal addr
  | .v6 addr => ip6AddrIsLinkLocal addr

/-- One of the `LWIP_IPV6_NUM_ADDRESSES` IPv6 addresses. -/
structure Slot where
  addr : BitVec 128 -- `netif_ip6_addr`
  valid : Bool -- `ip6_addr_isvalid(netif_ip6_addr_state(netif, i))`
  deriving DecidableEq

structure Netif where
  up : Bool -- `netif_is_up`
  linkUp : Bool -- `netif_is_link_up`
  ipv4 : BitVec 32 -- `netif_ip4_addr`, zero for any address
  ipv6 : List Slot
  deriving DecidableEq

namespace Netif

/-- `get_ipv4_addr`. -/
def getIpv4Addr (n : Netif) : Option IpAddr :=
  if !n.up then none
  else if n.ipv4 ≠ 0 then some (.v4 n.ipv4)
  else none

/-- `get_ipv6_addr`, with a loop over the slots for each kind of address. -/
def getIpv6Addr (n : Netif) : Option IpAddr :=
  if !n.up then none
  else
    match n.ipv6.find? fun slot => slot.valid && !ip6AddrIsLinkLocal slot.addr with
    | some slot => some (.v6 slot.addr)
    | none => (n.ipv6.find? fun slot => slot.valid).map fun slot => .v6 slot.addr

/-- `pref_ip_addr` in `get_ip_addr`. -/
def prefIpAddr (n : Netif) : Families → Option IpAddr
  | .ipv4 | .both true => n.getIpv4Addr
  | .ipv6 | .both false => n.getIpv6Addr

/-- `npref_ip_addr` in `get_ip_addr`. -/
def nprefIpAddr (n : Netif) : Families → Option IpAddr
  | .ipv4 | .ipv6 => none
  | .both true => n.getIpv6Addr
  | .both false => n.getIpv4Addr

/-- `get_ip_addr`. -/
def getIpAddr (n : Netif) (families : Families) (anyAddr : Bool) : Option IpAddr :=
  match n.prefIpAddr families with
  | some addr => some addr
  | none => if anyAddr then n.nprefIpAddr families else none

end Netif

/-! ## The context -/

/-- `connection_status_t`. -/
inductive ConnectionStatus where
  | disconnected
  | connecting
  | globalUp
  | localUp
  deriving DecidableEq

/-- `network_state_callback_event_t`. -/
inductive NetworkEvent where
  | networkUp
  | networkDown
  deriving DecidableEq

/-- What the status callback found and left when it reported `NETWORK_UP`. -/
structure Decision where
  netif : Netif -- the interface at that moment
  addr : Option IpAddr -- the pointer passed to `ip_addr_islinklocal`
  connected : ConnectionStatus

structure State where
  netif : Netif
  connected : ConnectionStatus
  dhcpHasToBeSet : Bool
  dhcpStarted : Bool
  hasAnyAddr : Bool -- `has_addr_state & ADDRESS_STATUS_HAS_ANY_ADDR`
  hasPrefAddr : Bool -- `has_addr_state & ADDRESS_STATUS_HAS_PREF_ADDR`
  hasBothAddr : Bool -- `has_addr_state & ADDRESS_STATUS_HAS_BOTH_ADDR`
  reported : Option NetworkEvent -- the last event passed to `network_state_callback`
  decisions : List Decision -- the newest first

/-- After `ethernet_interface_bringup`, which creates the link-local IPv6 address. -/
def init (cfg : Config) (ipv6 : List Slot) : State where
  netif := ⟨false, false, 0, ipv6⟩
  connected := .connecting
  dhcpHasToBeSet := cfg.dhcp
  dhcpStarted := false
  hasAnyAddr := false
  hasPrefAddr := false
  hasBothAddr := false
  reported := none
  decisions := []

/-- What the code outside this file answers during a callback. -/
structure Answers where
  dhcpStart : Bool -- `dhcp_start` returns `ERR_OK`
  nullIsLinkLocal : Bool -- what `ip_addr_islinklocal` makes of a null pointer
  deriving DecidableEq

/-- What happens to the interface. -/
inductive Event where
  | linkUp -- `netif_set_link_up`
  | linkDown -- `netif_set_link_down`
  | up -- `netif_set_up`
  | down -- `netif_set_down`
  | address (ipv4 : BitVec 32) (ipv6 : List Slot) -- the addresses become these
  deriving DecidableEq

structure Action where
  event : Event
  answers : Answers
  deriving DecidableEq

namespace State

def setUp (s : State) (up : Bool) : State := { s with netif := { s.netif with up := up } }

def setLinkUp (s : State) (linkUp : Bool) : State :=
  { s with netif := { s.netif with linkUp := linkUp } }

def setAddresses (s : State) (ipv4 : BitVec 32) (ipv6 : List Slot) : State :=
  { s with netif := { s.netif with ipv4 := ipv4, ipv6 := ipv6 } }

variable (cfg : Config) (answers : Answers)

/-- `network_state_callback`, if there is one. -/
def report (s : State) (event : NetworkEvent) : State :=
  if cfg.networkStateCallback then { s with reported := some event } else s

/-- `set_dhcp`, whose result nobody reads. -/
def setDhcp (s : State) : State :=
  if cfg.dhcp && s.dhcpHasToBeSet then
    if answers.dhcpStart then { s with dhcpHasToBeSet := false, dhcpStarted := true }
    else { s with connected := .disconnected }
  else s

/-- The bits of `has_addr_state` are set here, and cleared nowhere. -/
def remember (s : State) : State :=
  { s with
    hasAnyAddr := s.hasAnyAddr || (s.netif.getIpAddr cfg.families true).isSome
    hasPrefAddr := s.hasPrefAddr ||
      (cfg.prefAddrTimeout && (s.netif.getIpAddr cfg.families false).isSome)
    hasBothAddr := s.hasBothAddr ||
      (cfg.bothAddrTimeout && s.netif.getIpv4Addr.isSome && s.netif.getIpv6Addr.isSome) }

/-- `netif_status_irq` where it finds `ADDRESS_STATUS_HAS_ANY_ADDR` set. -/
def connect (s : State) : State :=
  let addr := s.netif.getIpAddr cfg.families true
  let connected := if addr.elim answers.nullIsLinkLocal IpAddr.isLinkLocal
    then ConnectionStatus.localUp else .globalUp
  { s with
    connected := connected
    decisions := ⟨s.netif, addr, connected⟩ :: s.decisions }.report cfg .networkUp

/-- `netif_status_irq`. -/
def netifStatusIrq (s : State) : State :=
  if s.netif.up && s.netif.linkUp then
    if s.dhcpHasToBeSet then s.setDhcp cfg answers
    else
      let s := s.remember cfg
      if s.hasAnyAddr then s.connect cfg answers else s
  else if !s.netif.up && s.netif.linkUp then
    { s with connected := .disconnected }.report cfg .networkDown
  else s

/-- `netif_set_up`. -/
def netifSetUp (s : State) : State :=
  if s.netif.up then s else (s.setUp true).netifStatusIrq cfg answers

/-- `netif_set_down`. -/
def netifSetDown (s : State) : State :=
  if s.netif.up then (s.setUp false).netifStatusIrq cfg answers else s

/-- `netif_link_irq`. -/
def netifLinkIrq (s : State) : State :=
  if s.netif.linkUp ∧ s.connected = .connecting then s.netifSetUp cfg answers
  else if s.netif.up then { s with connected := .connecting }.netifSetDown cfg answers
  else s.netifSetDown cfg answers

/-- `netif_set_link_up`. -/
def netifSetLinkUp (s : State) : State :=
  if s.netif.linkUp then s else (s.setLinkUp true).netifLinkIrq cfg answers

/-- `netif_set_link_down`. -/
def netifSetLinkDown (s : State) : State :=
  if s.netif.linkUp then (s.setLinkUp false).netifLinkIrq cfg answers else s

end State

/-- One outermost callback, with the change of the interface that it follows. -/
def step (cfg : Config) (s : State) (a : Action) : Option State :=
  some (match a.event with
    | .linkUp => s.netifSetLinkUp cfg a.answers
    | .linkDown => s.netifSetLinkDown cfg a.answers
    | .up => s.netifSetUp cfg a.answers
    | .down => s.netifSetDown cfg a.answers
    | .address ipv4 ipv6 => (s.setAddresses ipv4 ipv6).netifStatusIrq cfg a.answers)

end OpenIotSdk.Lwip.Stack
