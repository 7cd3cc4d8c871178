import OpenIotSdk.Verification.Lwip.Addresses

/-! # Truth of the reported network state

The status callback reports `NETWORK_DOWN` only where the interface is down and its link up.
When the link is lost, both are down by the time it runs. -/

namespace OpenIotSdk.Lwip.Stack

open Transition

/-- After `NETWORK_UP` the interface and its link are up, and there is an address. -/
def Truthful (cfg : Config) (s : State) : Prop :=
  s.reported = some .networkUp →
    s.netif.up = true ∧ s.netif.linkUp = true ∧ s.netif.addresses cfg.families ≠ []

/-- The link is not lost while `NETWORK_UP` is the last report, and where a callback is
registered, what the status callback remembers is there when it decides. -/
def Reportable (cfg : Config) (s : State) (a : Action) : Prop :=
  match a.event with
  | .linkDown => s.reported ≠ some .networkUp
  | .linkUp | .up | .down | .address _ _ => cfg.networkStateCallback = true → Grounded cfg s a

/-- `NETWORK_UP` is reported to a callback, by a context that remembers an address and waits
for no DHCP client. -/
def Known (cfg : Config) (s : State) : Prop :=
  s.reported = some .networkUp →
    cfg.networkStateCallback = true ∧ s.hasAnyAddr = true ∧ s.dhcpHasToBeSet = false

variable {cfg : Config} {answers : Answers} {s t : State}

theorem truthful_of_ne (h : s.reported ≠ some .networkUp) : Truthful cfg s :=
  fun hreported => absurd hreported h

/-! ## One status callback -/

theorem Known.report (h : Known cfg s) {event : NetworkEvent}
    (hevent : event = .networkUp → s.hasAnyAddr = true ∧ s.dhcpHasToBeSet = false) :
    Known cfg (s.report cfg event) := by
  rw [State.report]
  cases hcallback : cfg.networkStateCallback with
  | false => exact h
  | true =>
      intro hup
      exact ⟨hcallback, hevent (Option.some.inj hup)⟩

theorem Known.ne_of_dhcp (h : Known cfg s) (hdhcp : s.dhcpHasToBeSet = true) :
    (s.setDhcp cfg answers).reported ≠ some .networkUp := by
  have hne : s.reported ≠ some .networkUp := by
    intro hreported
    exact absurd (hdhcp.symm.trans (h hreported).2.2) (by simp)
  rw [State.setDhcp]
  split
  · split <;> exact hne
  · exact hne

theorem Known.ne_of_hasAnyAddr (h : Known cfg s) (hany : (s.remember cfg).hasAnyAddr = false) :
    s.reported ≠ some .networkUp := by
  intro hreported
  simp [State.remember, (h hreported).2.1] at hany

theorem Known.statusIrq (h : Known cfg s) : Known cfg (s.netifStatusIrq cfg answers) := by
  obtain ⟨-, heq⟩ | ⟨-, -, heq⟩ | ⟨-, -, hdhcp, heq⟩ | ⟨-, -, -, hany, heq⟩ |
    ⟨-, -, hdhcp, hany, heq⟩ := netifStatusIrq_cases cfg answers s
  · rw [heq]
    exact h
  · rw [heq]
    have hset : Known cfg { s with connected := .disconnected } := h
    exact hset.report fun hevent => absurd hevent (by simp)
  · rw [heq]
    exact fun hreported => absurd hreported (h.ne_of_dhcp hdhcp)
  · rw [heq]
    exact fun hreported => absurd hreported (h.ne_of_hasAnyAddr hany)
  · rw [heq, State.connect]
    apply Known.report
    · exact fun hreported => ⟨(h hreported).1, hany, hdhcp⟩
    · exact fun _ => ⟨hany, hdhcp⟩

/-- A status callback tells the truth exactly if it decides on an address that is there. -/
theorem netifStatusIrq_truthful_iff (h : Known cfg s)
    (hlinkUp : s.reported = some .networkUp → s.netif.linkUp = true) :
    Truthful cfg (s.netifStatusIrq cfg answers) ↔
      (cfg.networkStateCallback = true → Backed cfg s) := by
  obtain ⟨hlink, heq⟩ | ⟨hup, -, heq⟩ | ⟨-, -, hdhcp, heq⟩ | ⟨hup, -, -, hany, heq⟩ |
    ⟨hup, hlink, hdhcp, hany, heq⟩ := netifStatusIrq_cases cfg answers s
  · rw [heq]
    refine iff_of_true (truthful_of_ne fun hreported => ?_) fun _ _ hlink' => ?_
    · exact absurd (hlink.symm.trans (hlinkUp hreported)) Bool.false_ne_true
    · exact absurd (hlink.symm.trans hlink') Bool.false_ne_true
  · rw [heq]
    refine iff_of_true (truthful_of_ne ?_) fun _ hup' => ?_
    · rw [State.report]
      cases hcallback : cfg.networkStateCallback with
      | false => exact fun hreported => absurd (h hreported).1 (by simp [hcallback])
      | true => simp
    · exact absurd (hup.symm.trans hup') Bool.false_ne_true
  · rw [heq]
    refine iff_of_true (truthful_of_ne (h.ne_of_dhcp hdhcp)) fun _ _ _ hdhcp' => ?_
    exact absurd (hdhcp'.symm.trans hdhcp) Bool.false_ne_true
  · rw [heq]
    refine iff_of_true (truthful_of_ne (h.ne_of_hasAnyAddr hany)) fun _ _ _ _ hany' => ?_
    have hset : (s.remember cfg).hasAnyAddr = true :=
      (remember_hasAnyAddr hup).mpr (Or.inl hany')
    exact absurd (hany.symm.trans hset) Bool.false_ne_true
  · rw [heq, State.connect, State.report]
    have hor := (remember_hasAnyAddr hup).mp hany
    cases hcallback : cfg.networkStateCallback with
    | false =>
        refine iff_of_true (truthful_of_ne fun hreported => ?_) fun hset => ?_
        · exact absurd (h hreported).1 (by simp [hcallback])
        · exact absurd hset Bool.false_ne_true
    | true =>
        simp only [Truthful, Backed, State.remember, hup, hlink, hdhcp, if_true, true_imp_iff,
          true_and]
        exact ⟨fun hne _ => hne, fun himp => hor.elim himp id⟩

/-! ## One outermost callback -/

theorem Known.setUp (h : Known cfg s) : Known cfg (s.netifSetUp cfg answers) := by
  rw [State.netifSetUp]
  split
  · exact h
  · have hset : Known cfg (s.setUp true) := h
    exact hset.statusIrq

theorem Known.setDown (h : Known cfg s) : Known cfg (s.netifSetDown cfg answers) := by
  rw [State.netifSetDown]
  split
  · have hset : Known cfg (s.setUp false) := h
    exact hset.statusIrq
  · exact h

theorem Known.linkIrq (h : Known cfg s) : Known cfg (s.netifLinkIrq cfg answers) := by
  rw [State.netifLinkIrq]
  split
  · exact h.setUp
  · split
    · have hset : Known cfg { s with connected := .connecting } := h
      exact hset.setDown
    · exact h.setDown

theorem Known.step {a : Action} (h : Known cfg s) (hs : step cfg s a = some t) :
    Known cfg t := by
  obtain ⟨event, answers⟩ := a
  cases hs
  cases event with
  | linkUp =>
      dsimp only [State.netifSetLinkUp]
      split
      · exact h
      · have hset : Known cfg (s.setLinkUp true) := h
        exact hset.linkIrq
  | linkDown =>
      dsimp only [State.netifSetLinkDown]
      split
      · have hset : Known cfg (s.setLinkUp false) := h
        exact hset.linkIrq
      · exact h
  | up => exact h.setUp
  | down => exact h.setDown
  | address ipv4 ipv6 =>
      have hset : Known cfg (s.setAddresses ipv4 ipv6) := h
      exact hset.statusIrq

theorem netifSetUp_truthful_iff (h : Known cfg s) (ht : Truthful cfg s) :
    Truthful cfg (s.netifSetUp cfg answers) ↔
      (cfg.networkStateCallback = true → s.netif.up = false → Backed cfg (s.setUp true)) := by
  rw [State.netifSetUp]
  cases hup : s.netif.up with
  | true => simpa using ht
  | false =>
      have hset : Known cfg (s.setUp true) := h
      simpa using netifStatusIrq_truthful_iff hset fun hreported => (ht hreported).2.1

theorem netifSetDown_truthful (h : Known cfg s) (ht : Truthful cfg s) :
    Truthful cfg (s.netifSetDown cfg answers) := by
  rw [State.netifSetDown]
  split
  · have hset : Known cfg (s.setUp false) := h
    apply (netifStatusIrq_truthful_iff hset fun hreported => (ht hreported).2.1).mpr
    exact fun _ hup => absurd hup Bool.false_ne_true
  · exact ht

theorem netifLinkIrq_truthful_iff (h : Known cfg s) (hne : s.reported ≠ some .networkUp) :
    Truthful cfg (s.netifLinkIrq cfg answers) ↔
      (cfg.networkStateCallback = true → s.netif.linkUp = true → s.connected = .connecting →
        s.netif.up = false → Backed cfg (s.setUp true)) := by
  rw [State.netifLinkIrq]
  by_cases hgo : s.netif.linkUp = true ∧ s.connected = .connecting
  · rw [if_pos hgo, netifSetUp_truthful_iff h (truthful_of_ne hne)]
    exact ⟨fun himp hcallback _ _ => himp hcallback,
      fun himp hcallback => himp hcallback hgo.1 hgo.2⟩
  · rw [if_neg hgo]
    refine iff_of_true ?_ fun _ hlink hconnected => absurd ⟨hlink, hconnected⟩ hgo
    split
    · have hset : Known cfg { s with connected := .connecting } := h
      exact netifSetDown_truthful hset (truthful_of_ne hne)
    · exact netifSetDown_truthful h (truthful_of_ne hne)

/-- After `NETWORK_UP` a loss of the link is not reported. -/
theorem netifSetLinkDown_silent (ht : Truthful cfg s) (hreported : s.reported = some .networkUp) :
    ¬ Truthful cfg (s.netifSetLinkDown cfg answers) := by
  obtain ⟨hup, hlink, -⟩ := ht hreported
  simp [State.netifSetLinkDown, State.setLinkUp, State.netifLinkIrq, State.netifSetDown,
    State.setUp, State.netifStatusIrq, Truthful, hup, hlink, hreported]

theorem step_truthful_iff {a : Action} (h : Known cfg s) (ht : Truthful cfg s)
    (hs : step cfg s a = some t) : Truthful cfg t ↔ Reportable cfg s a := by
  obtain ⟨event, answers⟩ := a
  cases hs
  cases event with
  | linkUp =>
      dsimp only [State.netifSetLinkUp, Reportable, Grounded]
      cases hlink : s.netif.linkUp with
      | true => simpa using ht
      | false =>
          have hset : Known cfg (s.setLinkUp true) := h
          have hne : s.reported ≠ some .networkUp := by
            intro hreported
            exact absurd (hlink.symm.trans (ht hreported).2.1) Bool.false_ne_true
          have hirq : Truthful cfg ((s.setLinkUp true).netifLinkIrq cfg answers) ↔ _ :=
            netifLinkIrq_truthful_iff hset hne
          simpa [State.setLinkUp] using hirq
  | linkDown =>
      dsimp only [Reportable]
      by_cases hreported : s.reported = some .networkUp
      · exact iff_of_false (netifSetLinkDown_silent ht hreported) (not_not.mpr hreported)
      · refine iff_of_true ?_ hreported
        dsimp only [State.netifSetLinkDown]
        split
        · have hset : Known cfg (s.setLinkUp false) := h
          apply (netifLinkIrq_truthful_iff hset hreported).mpr
          exact fun _ hlink => absurd hlink Bool.false_ne_true
        · exact ht
  | up => exact netifSetUp_truthful_iff h ht
  | down => exact iff_of_true (netifSetDown_truthful h ht) fun _ => trivial
  | address ipv4 ipv6 =>
      have hset : Known cfg (s.setAddresses ipv4 ipv6) := h
      exact netifStatusIrq_truthful_iff hset fun hreported => (ht hreported).2.1

/-! ## Runs -/

/-- For every configuration and over every run of links, interfaces and addresses that come
and go, the last reported state is the truth if and only if every change is reportable. -/
theorem reported_truthful_iff (cfg : Config) (ipv6 : List Slot) (acts : List Action) :
    Always (step cfg) (Truthful cfg) (init cfg ipv6) acts ↔
      Meets (step cfg) (Reportable cfg) (init cfg ipv6) acts := by
  apply always_iff_meets fun s => Known cfg s ∧ Truthful cfg s
  · intro s a t h hok hs
    exact ⟨h.1.step hs, (step_truthful_iff h.1 h.2 hs).mpr hok⟩
  · exact fun s h => h.2
  · exact fun s a t h hs hn ht => hn ((step_truthful_iff h.1 h.2 hs).mp ht)
  · have hne : (init cfg ipv6).reported ≠ some .networkUp := by simp [init]
    exact ⟨fun hreported => absurd hreported hne, truthful_of_ne hne⟩

/-- The link goes down after an address was assigned. -/
def lostLink : List Action :=
  [⟨.linkUp, ⟨true, false⟩⟩, ⟨.address 0x0a000001#32 [], ⟨true, false⟩⟩,
    ⟨.linkDown, ⟨true, false⟩⟩]

theorem lostLink_not_truthful :
    ¬ ∀ cfg ipv6 acts s, run (step cfg) (init cfg ipv6) acts = some s → Truthful cfg s := by
  intro h
  have hup : false = true := (h dualStack [] lostLink _ rfl rfl).1
  cases hup

end OpenIotSdk.Lwip.Stack
