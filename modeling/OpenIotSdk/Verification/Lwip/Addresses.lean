import OpenIotSdk.Library.Transition
import OpenIotSdk.Model.Lwip.Stack

/-! # The addresses behind `NETWORK_UP`

The status callback remembers that the interface once had an address, and reads the address
itself again. The bit is never cleared, so the two part when the last address is lost. -/

namespace OpenIotSdk.Lwip.Stack

open Transition

/-! ## The addresses of an interface -/

namespace Netif

variable (n : Netif)

def ipv4Addresses : List IpAddr := if n.ipv4 = 0 then [] else [.v4 n.ipv4]

/-- The valid addresses, those that are not link-local first. -/
def ipv6Addresses : List IpAddr :=
  (n.ipv6.filter (fun slot => slot.valid && !ip6AddrIsLinkLocal slot.addr) ++
    n.ipv6.filter fun slot => slot.valid && ip6AddrIsLinkLocal slot.addr).map fun slot =>
      .v6 slot.addr

/-- The addresses in the order of preference. -/
def addresses : Families → List IpAddr
  | .ipv4 => n.ipv4Addresses
  | .ipv6 => n.ipv6Addresses
  | .both true => n.ipv4Addresses ++ n.ipv6Addresses
  | .both false => n.ipv6Addresses ++ n.ipv4Addresses

variable {n}

theorem getIpv4Addr_eq_head? (h : n.up = true) : n.getIpv4Addr = n.ipv4Addresses.head? := by
  rw [getIpv4Addr, ipv4Addresses, h]
  by_cases hzero : n.ipv4 = 0
  · rw [if_pos hzero, if_neg (not_not.mpr hzero)]
    rfl
  · rw [if_neg hzero, if_pos hzero]
    rfl

/-- Where no address is global, the second loop looks for a link-local one. -/
theorem find?_valid_of_none {slots : List Slot}
    (h : slots.find? (fun slot => slot.valid && !ip6AddrIsLinkLocal slot.addr) = none) :
    slots.find? (fun slot => slot.valid) =
      slots.find? fun slot => slot.valid && ip6AddrIsLinkLocal slot.addr := by
  induction slots with
  | nil => rfl
  | cons slot slots ih =>
      rw [List.find?_cons] at h ⊢
      rw [List.find?_cons]
      cases hvalid : slot.valid with
      | false =>
          rw [hvalid] at h
          exact ih h
      | true =>
          rw [hvalid] at h
          cases hlocal : ip6AddrIsLinkLocal slot.addr with
          | true => rfl
          | false =>
              rw [hlocal] at h
              cases h

theorem getIpv6Addr_eq_head? (h : n.up = true) : n.getIpv6Addr = n.ipv6Addresses.head? := by
  rw [ipv6Addresses, List.head?_map, List.head?_append, List.head?_filter, List.head?_filter]
  simp only [getIpv6Addr, h, Bool.not_true, Bool.false_eq_true, if_false]
  cases hglobal : n.ipv6.find? fun slot => slot.valid && !ip6AddrIsLinkLocal slot.addr with
  | none => rw [Option.none_or, find?_valid_of_none hglobal]
  | some slot => rfl

theorem getIpAddr_eq_or (families : Families) :
    n.getIpAddr families true = (n.prefIpAddr families).or (n.nprefIpAddr families) := by
  rw [getIpAddr]
  cases n.prefIpAddr families <;> rfl

/-- `get_ip_addr` finds the preferred address of an interface that is up. -/
theorem getIpAddr_eq_head? (h : n.up = true) (families : Families) :
    n.getIpAddr families true = (n.addresses families).head? := by
  rw [getIpAddr_eq_or]
  cases families with
  | ipv4 => exact Option.or_none.trans (getIpv4Addr_eq_head? h)
  | ipv6 => exact Option.or_none.trans (getIpv6Addr_eq_head? h)
  | both prefIpv4 =>
      cases prefIpv4 with
      | true =>
          rw [addresses, List.head?_append, ← getIpv4Addr_eq_head? h, ← getIpv6Addr_eq_head? h]
          rfl
      | false =>
          rw [addresses, List.head?_append, ← getIpv4Addr_eq_head? h, ← getIpv6Addr_eq_head? h]
          rfl

end Netif

/-! ## One status callback -/

/-- The pointer that was looked up is the preferred address of the interface, and the
connection has its scope. -/
def Sound (families : Families) (d : Decision) : Prop :=
  ∃ addr, d.addr = some addr ∧ (d.netif.addresses families).head? = some addr ∧
    d.connected = if addr.isLinkLocal then .localUp else .globalUp

/-- Every `NETWORK_UP` so far was sound. -/
def SoundDecisions (cfg : Config) (s : State) : Prop := ∀ d ∈ s.decisions, Sound cfg.families d

/-- A status callback that decides on the remembered bit finds an address. -/
def Backed (cfg : Config) (s : State) : Prop :=
  s.netif.up = true → s.netif.linkUp = true → s.dhcpHasToBeSet = false →
    s.hasAnyAddr = true → s.netif.addresses cfg.families ≠ []

variable {cfg : Config} {answers : Answers} {s : State}

theorem netifStatusIrq_cases (cfg : Config) (answers : Answers) (s : State) :
    (s.netif.linkUp = false ∧ s.netifStatusIrq cfg answers = s) ∨
    (s.netif.up = false ∧ s.netif.linkUp = true ∧ s.netifStatusIrq cfg answers =
      { s with connected := .disconnected }.report cfg .networkDown) ∨
    (s.netif.up = true ∧ s.netif.linkUp = true ∧ s.dhcpHasToBeSet = true ∧
      s.netifStatusIrq cfg answers = s.setDhcp cfg answers) ∨
    (s.netif.up = true ∧ s.netif.linkUp = true ∧ s.dhcpHasToBeSet = false ∧
      (s.remember cfg).hasAnyAddr = false ∧ s.netifStatusIrq cfg answers = s.remember cfg) ∨
    (s.netif.up = true ∧ s.netif.linkUp = true ∧ s.dhcpHasToBeSet = false ∧
      (s.remember cfg).hasAnyAddr = true ∧
      s.netifStatusIrq cfg answers = (s.remember cfg).connect cfg answers) := by
  dsimp only [State.netifStatusIrq]
  cases hlink : s.netif.linkUp with
  | false => simp
  | true =>
      cases hup : s.netif.up with
      | false => simp
      | true =>
          cases hdhcp : s.dhcpHasToBeSet with
          | true => simp
          | false => cases hany : (s.remember cfg).hasAnyAddr <;> simp

theorem remember_hasAnyAddr (hup : s.netif.up = true) :
    (s.remember cfg).hasAnyAddr = true ↔
      s.hasAnyAddr = true ∨ s.netif.addresses cfg.families ≠ [] := by
  simp only [State.remember, Netif.getIpAddr_eq_head? hup, Bool.or_eq_true,
    List.isSome_head?]

@[simp] theorem report_decisions (event : NetworkEvent) :
    (s.report cfg event).decisions = s.decisions := by
  rw [State.report]
  split <;> rfl

@[simp] theorem setDhcp_decisions : (s.setDhcp cfg answers).decisions = s.decisions := by
  rw [State.setDhcp]
  split
  · split <;> rfl
  · rfl

theorem connect_sound_iff (h : SoundDecisions cfg s) (hup : s.netif.up = true) :
    SoundDecisions cfg (s.connect cfg answers) ↔ s.netif.addresses cfg.families ≠ [] := by
  have hold : ∀ d ∈ s.decisions, Sound cfg.families d := h
  rw [SoundDecisions, State.connect, report_decisions, List.forall_mem_cons,
    and_iff_left hold, Netif.getIpAddr_eq_head? hup]
  dsimp only [Sound]
  cases s.netif.addresses cfg.families with
  | nil => simp
  | cons addr rest => exact iff_of_true ⟨addr, rfl, rfl, rfl⟩ (List.cons_ne_nil _ _)

theorem netifStatusIrq_sound_iff (h : SoundDecisions cfg s) :
    SoundDecisions cfg (s.netifStatusIrq cfg answers) ↔ Backed cfg s := by
  obtain ⟨hlink, heq⟩ | ⟨hup, -, heq⟩ | ⟨-, -, hdhcp, heq⟩ | ⟨-, -, -, hany, heq⟩ |
    ⟨hup, hlink, hdhcp, hany, heq⟩ := netifStatusIrq_cases cfg answers s
  · rw [heq]
    exact iff_of_true h fun _ hlink' => absurd (hlink.symm.trans hlink') Bool.false_ne_true
  · rw [heq, SoundDecisions, report_decisions]
    exact iff_of_true h fun hup' => absurd (hup.symm.trans hup') Bool.false_ne_true
  · rw [heq, SoundDecisions, setDhcp_decisions]
    exact iff_of_true h fun _ _ hdhcp' => absurd (hdhcp'.symm.trans hdhcp) Bool.false_ne_true
  · rw [heq]
    refine iff_of_true h fun hup _ _ hany' => ?_
    have hset : (s.remember cfg).hasAnyAddr = true :=
      (remember_hasAnyAddr hup).mpr (Or.inl hany')
    exact absurd (hany.symm.trans hset) Bool.false_ne_true
  · have hset : SoundDecisions cfg (s.remember cfg) := h
    rw [heq, connect_sound_iff hset hup]
    simp only [Backed, hup, hlink, hdhcp, true_imp_iff]
    have hor := (remember_hasAnyAddr hup).mp hany
    exact ⟨fun hne _ => hne, fun himp => hor.elim himp id⟩

/-! ## One outermost callback -/

/-- A status callback that runs with interface and link up decides on an address that is
there, whether the link comes up, the interface does or the addresses change. -/
def Grounded (cfg : Config) (s : State) (a : Action) : Prop :=
  match a.event with
  | .linkUp => s.netif.linkUp = false → s.connected = .connecting → s.netif.up = false →
      Backed cfg ((s.setLinkUp true).setUp true)
  | .up => s.netif.up = false → Backed cfg (s.setUp true)
  | .address ipv4 ipv6 => Backed cfg (s.setAddresses ipv4 ipv6)
  | .linkDown | .down => True

theorem netifSetUp_sound_iff (h : SoundDecisions cfg s) :
    SoundDecisions cfg (s.netifSetUp cfg answers) ↔
      (s.netif.up = false → Backed cfg (s.setUp true)) := by
  rw [State.netifSetUp]
  cases hup : s.netif.up with
  | true => simpa using h
  | false =>
      have hset : SoundDecisions cfg (s.setUp true) := h
      simpa using netifStatusIrq_sound_iff hset

theorem netifSetDown_sound (h : SoundDecisions cfg s) :
    SoundDecisions cfg (s.netifSetDown cfg answers) := by
  rw [State.netifSetDown]
  cases hup : s.netif.up with
  | false => exact h
  | true =>
      have hset : SoundDecisions cfg (s.setUp false) := h
      have hirq : SoundDecisions cfg ((s.setUp false).netifStatusIrq cfg answers) :=
        (netifStatusIrq_sound_iff hset).mpr fun hup' => absurd hup' Bool.false_ne_true
      exact hirq

theorem netifLinkIrq_sound_iff (h : SoundDecisions cfg s) :
    SoundDecisions cfg (s.netifLinkIrq cfg answers) ↔
      (s.netif.linkUp = true → s.connected = .connecting → s.netif.up = false →
        Backed cfg (s.setUp true)) := by
  rw [State.netifLinkIrq]
  by_cases hgo : s.netif.linkUp = true ∧ s.connected = .connecting
  · rw [if_pos hgo, netifSetUp_sound_iff h]
    exact ⟨fun himp _ _ => himp, fun himp => himp hgo.1 hgo.2⟩
  · rw [if_neg hgo]
    refine iff_of_true ?_ fun hlink hconnected => absurd ⟨hlink, hconnected⟩ hgo
    split
    · have hset : SoundDecisions cfg { s with connected := .connecting } := h
      exact netifSetDown_sound hset
    · exact netifSetDown_sound h

theorem step_sound_iff {t : State} {a : Action} (h : SoundDecisions cfg s)
    (hs : step cfg s a = some t) : SoundDecisions cfg t ↔ Grounded cfg s a := by
  obtain ⟨event, answers⟩ := a
  cases hs
  cases event with
  | linkUp =>
      dsimp only [State.netifSetLinkUp, Grounded]
      cases hlink : s.netif.linkUp with
      | true => simpa using h
      | false =>
          have hset : SoundDecisions cfg (s.setLinkUp true) := h
          have hirq : SoundDecisions cfg ((s.setLinkUp true).netifLinkIrq cfg answers) ↔ _ :=
            netifLinkIrq_sound_iff hset
          simpa [State.setLinkUp] using hirq
  | linkDown =>
      refine iff_of_true ?_ trivial
      dsimp only [State.netifSetLinkDown]
      split
      · have hset : SoundDecisions cfg (s.setLinkUp false) := h
        exact (netifLinkIrq_sound_iff hset).mpr fun hlink => absurd hlink Bool.false_ne_true
      · exact h
  | up => exact netifSetUp_sound_iff h
  | down => exact iff_of_true (netifSetDown_sound h) trivial
  | address ipv4 ipv6 =>
      have hset : SoundDecisions cfg (s.setAddresses ipv4 ipv6) := h
      exact netifStatusIrq_sound_iff hset

/-! ## Runs -/

/-- For every configuration and over every run of links, interfaces and addresses that come
and go: each address that was looked up exists, and the connection has the scope of the
preferred one, if and only if every status callback is grounded. -/
theorem soundDecisions_iff_grounded (cfg : Config) (ipv6 : List Slot) (acts : List Action) :
    Always (step cfg) (SoundDecisions cfg) (init cfg ipv6) acts ↔
      Meets (step cfg) (Grounded cfg) (init cfg ipv6) acts := by
  apply always_iff_meets (SoundDecisions cfg)
  · exact fun s a t h hok hs => (step_sound_iff h hs).mpr hok
  · exact fun s h => h
  · exact fun s a t h hs hn ht => hn ((step_sound_iff h hs).mp ht)
  · intro d hd
    exact absurd hd List.not_mem_nil

def dualStack : Config := ⟨.both true, false, false, true, true⟩

/-- An IPv4 address is assigned and taken away again, by a DHCP lease that is lost. -/
def lostLease : List Action :=
  [⟨.linkUp, ⟨true, false⟩⟩, ⟨.address 0x0a000001#32 [], ⟨true, false⟩⟩,
    ⟨.address 0#32 [], ⟨true, false⟩⟩]

theorem lostLease_not_sound :
    ¬ ∀ cfg ipv6 acts s, run (step cfg) (init cfg ipv6) acts = some s → SoundDecisions cfg s := by
  intro h
  obtain ⟨addr, haddr, -⟩ := h dualStack [] lostLease _ rfl _ List.mem_cons_self
  cases haddr

end OpenIotSdk.Lwip.Stack
