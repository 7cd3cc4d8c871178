import Mathlib.Data.BitVec
import OpenIotSdk.Library.Subscription

/-! # The multicast filters in `lwip_emac_netif.c`

lwIP calls the filter of an address family when the interface joins its first group of an address,
and when it leaves it for good; it does not look at the result. The EMAC keeps a set of
addresses. -/

namespace OpenIotSdk.Lwip.Multicast

abbrev Byte := BitVec 8

/-- `addr` in the filters. -/
abbrev Mac := List Byte

/-- The addresses that the EMAC lets pass. -/
abbrev EmacFilter := Mac → Bool

/-- `ip6_addr_t`. -/
structure Ip6Addr where
  addr0 : BitVec 32
  addr1 : BitVec 32
  addr2 : BitVec 32
  addr3 : BitVec 32
  deriving DecidableEq

/-- `enum netif_mac_filter_action`. -/
inductive FilterAction where
  | delMacFilter
  | addMacFilter
  | other
  deriving DecidableEq

inductive Err where
  | ok -- `ERR_OK`
  | interface -- `ERR_IF`
  | argument -- `ERR_ARG`
  deriving DecidableEq

/-- `ntohl` on a little-endian processor. -/
def ntohl (x : BitVec 32) : BitVec 32 :=
  x.extractLsb' 0 8 ++ x.extractLsb' 8 8 ++ x.extractLsb' 16 8 ++ x.extractLsb' 24 8

/-- The conversion to `uint8_t`. -/
def toByte (x : BitVec 32) : Byte := x.setWidth 8

/-- The address in `emac_igmp_mac_filter`. -/
def igmpAddr (group : BitVec 32) : Mac :=
  let group23 := ntohl group &&& 0x007FFFFF#32
  [0x01#8, 0x00#8, 0x5e#8, toByte (group23 >>> 16), toByte (group23 >>> 8), toByte group23]

/-- The address in `emac_mld_mac_filter`. -/
def mldAddr (group : Ip6Addr) : Mac :=
  let group32 := ntohl group.addr3
  [0x33#8, 0x33#8, toByte (group32 >>> 24), toByte (group32 >>> 16), toByte (group32 >>> 8),
    toByte group32]

/-- What both filters do, when the EMAC answers `ok`. -/
def macFilter (filter : EmacFilter) (addr : Mac) (action : FilterAction) (ok : Bool) :
    EmacFilter × Err :=
  match action with
  | .addMacFilter => (if ok then Function.update filter addr true else filter,
      if ok then .ok else .interface)
  | .delMacFilter => (if ok then Function.update filter addr false else filter,
      if ok then .ok else .interface)
  | .other => (filter, .argument)

/-- `emac_igmp_mac_filter`. -/
def emacIgmpMacFilter (filter : EmacFilter) (group : BitVec 32) (action : FilterAction)
    (ok : Bool) : EmacFilter × Err :=
  macFilter filter (igmpAddr group) action ok

/-- `emac_mld_mac_filter`. -/
def emacMldMacFilter (filter : EmacFilter) (group : Ip6Addr) (action : FilterAction)
    (ok : Bool) : EmacFilter × Err :=
  macFilter filter (mldAddr group) action ok

/-! ## The interface -/

inductive Group where
  | ip4 (addr : BitVec 32)
  | ip6 (addr : Ip6Addr)
  deriving DecidableEq

/-- `igmp_mac_filter` or `mld_mac_filter` of the interface. -/
def Group.filter (group : Group) (filter : EmacFilter) (action : FilterAction) (ok : Bool) :
    EmacFilter × Err :=
  match group with
  | .ip4 addr => emacIgmpMacFilter filter addr action ok
  | .ip6 addr => emacMldMacFilter filter addr action ok

abbrev State := Subscription.State Group Mac

/-- lwIP joins or leaves a group. -/
def step (s : State) : Subscription.Action Group → Option State
  | .join group ok =>
      if s.joined group then none
      else some ⟨Function.update s.joined group true,
        (group.filter s.passes .addMacFilter ok).1⟩
  | .leave group ok =>
      if s.joined group then
        some ⟨Function.update s.joined group false, (group.filter s.passes .delMacFilter ok).1⟩
      else none

end OpenIotSdk.Lwip.Multicast
