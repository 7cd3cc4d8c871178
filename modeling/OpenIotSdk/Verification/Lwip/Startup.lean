import OpenIotSdk.Library.Transition
import OpenIotSdk.Model.Lwip.Startup
import OpenIotSdk.Verification.Lwip.Addresses

/-! # The interface after the start

The EMAC interrupts from its power-up on, but the callbacks and the state of the connection follow
later, and a failed initialisation does not stop `lwip_task`. -/

namespace OpenIotSdk.Lwip.Startup

open Transition

variable {cfg : Stack.Config} {answers : Stack.Answers} {s t : State} {a : Action}

/-! ## The specification -/

def Pc.broughtUp : Pc → Bool
  | .callback | .semWait | .processInput => true
  | _ => false

/-- From then on the interface is up exactly while its link is. -/
def FollowsLink (s : State) : Prop :=
  s.pc.broughtUp = true → s.stack.netif.up = s.stack.netif.linkUp

/-- The link is down when the connection begins, and it comes up later only with the callback. -/
def InOrder (s : State) : Action → Prop
  | .advance _ => s.pc = .connecting → s.stack.netif.linkUp = false
  | .execute _ =>
      s.pc.broughtUp = true → s.queue.head? = some .netifSetLinkUp → s.linkCallback = true
  | _ => True

/-- `ethernetif_process_input` is not called, or going to be called, without the buffer. -/
def Buffered (s : State) : Prop :=
  s.receiveSemaphore = some true ∨ s.pc = .processInput → s.rxBuffer = .live

/-- No frame is announced around an initialisation that fails at the MAC address. -/
def Unannounced (s : State) : Action → Prop
  | .receive true => s.rxBuffer = .live
  | .advance false => s.pc = .setMacAddr → s.receiveSemaphore ≠ some true
  | _ => True

/-! ## The callbacks of the netif -/

section Netif

variable {st : Stack.State}

theorem report_netif (event : Stack.NetworkEvent) : (st.report cfg event).netif = st.netif := by
  rw [Stack.State.report]
  split <;> rfl

theorem setDhcp_netif : (st.setDhcp cfg answers).netif = st.netif := by
  rw [Stack.State.setDhcp]
  split
  · split <;> rfl
  · rfl

theorem netifStatusIrq_netif : (st.netifStatusIrq cfg answers).netif = st.netif := by
  rcases Stack.netifStatusIrq_cases cfg answers st with ⟨-, heq⟩ | ⟨-, -, heq⟩ | ⟨-, -, -, heq⟩ |
    ⟨-, -, -, -, heq⟩ | ⟨-, -, -, -, heq⟩
  · rw [heq]
  · rw [heq, report_netif]
  · rw [heq, setDhcp_netif]
  · rw [heq]
    rfl
  · rw [heq, Stack.State.connect, report_netif]
    rfl

/-- A status callback without a link leaves everything. -/
theorem netifStatusIrq_of_linkDown (h : st.netif.linkUp = false) :
    st.netifStatusIrq cfg answers = st := by
  simp [Stack.State.netifStatusIrq, h]

/-- The interface follows its link, and can be set up again. -/
structure Follows (st : Stack.State) : Prop where
  up : st.netif.up = st.netif.linkUp
  again : st.netif.up = false → st.connected = .connecting

theorem netifSetLinkUp_follows (h : Follows st) : Follows (st.netifSetLinkUp cfg answers) := by
  unfold Stack.State.netifSetLinkUp
  split
  · exact h
  · next hlink =>
      have hdown : st.netif.up = false := by rw [h.up]; simpa using hlink
      have hirq : (st.setLinkUp true).netifLinkIrq cfg answers =
          ((st.setLinkUp true).setUp true).netifStatusIrq cfg answers := by
        simp [Stack.State.netifLinkIrq, Stack.State.netifSetUp, Stack.State.setLinkUp, hdown,
          h.again hdown]
      rw [hirq]
      refine ⟨?_, ?_⟩
      · rw [netifStatusIrq_netif]
        rfl
      · rw [netifStatusIrq_netif]
        intro hup
        cases hup

theorem netifSetLinkDown_follows (h : Follows st) : Follows (st.netifSetLinkDown cfg answers) := by
  unfold Stack.State.netifSetLinkDown
  split
  · next hlink =>
      have hup : st.netif.up = true := h.up.trans hlink
      have hirq : (st.setLinkUp false).netifLinkIrq cfg answers =
          ({ st.setLinkUp false with connected := .connecting }).setUp false := by
        simp [Stack.State.netifLinkIrq, Stack.State.netifSetDown, Stack.State.setLinkUp, hup,
          netifStatusIrq_of_linkDown, Stack.State.setUp]
      rw [hirq]
      exact ⟨rfl, fun _ => rfl⟩
  · exact h

/-- Before the connection begins, the callbacks change the flag of the link only. -/
structure Waiting (st : Stack.State) : Prop where
  down : st.netif.up = false
  disconnected : st.connected = .disconnected

theorem netifLinkIrq_of_waiting (h : Waiting st) : st.netifLinkIrq cfg answers = st := by
  simp [Stack.State.netifLinkIrq, Stack.State.netifSetDown, h.down, h.disconnected]

theorem Waiting.setLinkUp (h : Waiting st) (link : Bool) : Waiting (st.setLinkUp link) :=
  ⟨h.down, h.disconnected⟩

theorem netifSetLink_waiting (h : Waiting st) :
    Waiting (st.netifSetLinkUp cfg answers) ∧ Waiting (st.netifSetLinkDown cfg answers) := by
  constructor
  · unfold Stack.State.netifSetLinkUp
    split
    · exact h
    · rw [netifLinkIrq_of_waiting (h.setLinkUp true)]
      exact h.setLinkUp true
  · unfold Stack.State.netifSetLinkDown
    split
    · rw [netifLinkIrq_of_waiting (h.setLinkUp false)]
      exact h.setLinkUp false
    · exact h

end Netif

/-! ## Every order of steps -/

/-- The connection has not begun, or the interface follows its link. -/
structure Inv (s : State) : Prop where
  before : s.pc.broughtUp = false → Waiting s.stack
  after : s.pc.broughtUp = true → Follows s.stack
  uncalled : s.linkCallback = false → s.stack.netif.up = false

theorem inv_init : Inv (init cfg) := ⟨fun _ => ⟨rfl, rfl⟩, nofun, fun _ => rfl⟩

theorem Inv.congr (h : Inv s) (hstack : t.stack = s.stack)
    (hpc : t.pc.broughtUp = s.pc.broughtUp)
    (hcallback : t.linkCallback = false → s.linkCallback = false) : Inv t := by
  refine ⟨fun hb => ?_, fun hb => ?_, fun hc => ?_⟩
  · rw [hstack]
    exact h.before (hpc ▸ hb)
  · rw [hstack]
    exact h.after (hpc ▸ hb)
  · rw [hstack]
    exact h.uncalled (hcallback hc)

theorem advance_cases {ok : Bool} (ht : s.advance ok = some t) :
    (s.pc = .connecting ∧
      t = { s with stack := { s.stack with connected := .connecting } }.goto .callback) ∨
    (s.pc ≠ .connecting ∧ t.stack = s.stack ∧ t.pc.broughtUp = s.pc.broughtUp ∧
      (t.linkCallback = false → s.linkCallback = false)) := by
  simp only [State.advance] at ht
  split at ht
  case h_9 hpc =>
    cases ht
    exact .inl ⟨hpc, rfl⟩
  case h_11 hpc =>
    obtain ⟨-, ht⟩ := Option.ite_none_right_eq_some.mp ht
    cases ht
    exact .inr ⟨by simp [hpc], rfl, by rw [hpc]; rfl, id⟩
  case h_13 => cases ht
  case h_14 => cases ht
  all_goals
    next hpc =>
      cases ht
      refine .inr ⟨by simp [hpc], ?_⟩
      rw [hpc]
      cases ok <;> exact ⟨rfl, rfl, by simp [State.goto, State.initFails]⟩

theorem Inv.connecting (h : Inv s) (hpc : s.pc = .connecting) (hlink : s.stack.netif.linkUp = false) :
    Inv ({ s with stack := { s.stack with connected := .connecting } }.goto .callback) := by
  have hdown := (h.before (by rw [hpc]; rfl)).down
  exact ⟨nofun, fun _ => ⟨hdown.trans hlink.symm, fun _ => rfl⟩, fun _ => hdown⟩

theorem Inv.bringup (h : Inv s) {ipv6 : List Stack.Slot}
    (ht : s.interfaceBringup cfg ipv6 = some t) : Inv t := by
  obtain ⟨hpc, ht⟩ := Option.ite_none_right_eq_some.mp ht
  obtain ⟨hdown, hdisconnected⟩ := h.before (by rw [hpc]; rfl)
  rw [hdisconnected, if_neg (by simp)] at ht
  cases ht
  exact ⟨fun _ => ⟨hdown, hdisconnected⟩, nofun, fun _ => hdown⟩

theorem Inv.execute (h : Inv s) (hok : InOrder s (.execute answers))
    (ht : step cfg s (.execute answers) = some t) : Inv t := by
  simp only [step] at ht
  split at ht
  · cases ht
  · next callback queue hqueue =>
      cases ht
      cases hcallback : s.linkCallback with
      | true =>
          refine ⟨fun hb => ?_, fun hb => ?_, fun hc => ?_⟩
          · obtain ⟨hup, hdown⟩ : Waiting (s.stack.netifSetLinkUp cfg answers) ∧
                Waiting (s.stack.netifSetLinkDown cfg answers) := netifSetLink_waiting (h.before hb)
            cases callback <;> simpa [State.setLink, hcallback]
          · have hfollows := h.after hb
            cases callback
            · simpa [State.setLink, hcallback] using netifSetLinkUp_follows hfollows
            · simpa [State.setLink, hcallback] using netifSetLinkDown_follows hfollows
          · exact nomatch hc
      | false =>
          have hdown := h.uncalled hcallback
          refine ⟨fun hb => ?_, fun hb => ?_, fun _ => ?_⟩
          · have hwaiting := (h.before hb).setLinkUp callback.flag
            cases callback <;> simpa [State.setLink, hcallback] using hwaiting
          · cases callback with
            | netifSetLinkUp =>
                rw [hok hb (by rw [hqueue]; rfl)] at hcallback
                cases hcallback
            | netifSetLinkDown =>
                have hagain := (h.after hb).again hdown
                simp only [State.setLink, hcallback]
                exact ⟨hdown, fun _ => hagain⟩
          · cases callback <;> simp [State.setLink, hcallback, Stack.State.setLinkUp, hdown]

theorem Inv.step (h : Inv s) (hok : InOrder s a) (ht : step cfg s a = some t) : Inv t := by
  cases a with
  | advance ok =>
      rcases advance_cases ht with ⟨hpc, rfl⟩ | ⟨-, hstack, hpc, hcallback⟩
      · exact h.connecting hpc (hok hpc)
      · exact h.congr hstack hpc hcallback
  | bringup ipv6 => exact h.bringup ht
  | receive done =>
      obtain ⟨-, ht⟩ := Option.ite_none_right_eq_some.mp ht
      cases ht
      cases done <;> exact h.congr rfl rfl id
  | event =>
      obtain ⟨-, ht⟩ := Option.ite_none_right_eq_some.mp ht
      cases ht
      exact h.congr rfl rfl id
  | post ok =>
      obtain ⟨callback, -, rfl⟩ := Option.map_eq_some_iff.mp ht
      exact h.congr rfl rfl id
  | execute answers => exact h.execute hok ht

theorem Inv.followsLink (h : Inv s) : FollowsLink s := fun hb => (h.after hb).up

/-- A link that is up too early stays without the interface. -/
theorem not_followsLink (h : Inv s) (ht : step cfg s a = some t) (hbad : ¬ InOrder s a) :
    ¬ FollowsLink t := by
  intro hfollows
  cases a with
  | advance ok =>
      obtain ⟨hpc, hlink⟩ := Classical.not_imp.mp hbad
      rcases advance_cases ht with ⟨-, rfl⟩ | ⟨hne, -⟩
      · have hdown := (h.before (by rw [hpc]; rfl)).down
        exact hlink ((hfollows rfl).symm.trans hdown)
      · exact hne hpc
  | execute answers =>
      simp only [InOrder, Classical.not_imp] at hbad
      obtain ⟨hb, hhead, hcallback⟩ := hbad
      have hcallback : s.linkCallback = false := by simpa using hcallback
      simp only [step] at ht
      split at ht
      · cases ht
      · next callback queue hqueue =>
          rw [hqueue] at hhead
          cases hhead
          cases ht
          have hup := hfollows hb
          simp only [State.setLink, hcallback, Stack.State.setLinkUp] at hup
          rw [h.uncalled hcallback] at hup
          cases hup
  | _ => exact hbad trivial

/-- In any order of the steps of `lwip_task`, the EMAC and the tcpip thread, the interface follows
its link from the start exactly as long as the link waits for the connection and the callback. -/
theorem followsLink_always_iff (cfg : Stack.Config) (acts : List Action) :
    Always (step cfg) FollowsLink (init cfg) acts ↔ Meets (step cfg) InOrder (init cfg) acts :=
  always_iff_meets Inv (fun _ _ _ h hok ht => h.step hok ht) (fun _ h => h.followsLink)
    (fun _ _ _ h ht hbad => not_followsLink h ht hbad) inv_init acts

/-! ## The reception buffer -/

/-- The EMAC is not powered up yet, and will not be before the buffer is there. -/
def Pc.early : Pc → Bool
  | .semNew | .networkInit | .allocFromHeap | .powerUp | .asserted => true
  | _ => false

structure BufferInv (s : State) : Prop where
  buffered : Buffered s
  early : s.pc.early = true → s.poweredUp = false
  silent : s.poweredUp = false → s.receiveSemaphore ≠ some true
  created : s.pc ≠ .semNew → s.pc ≠ .asserted → s.receiveSemaphore ≠ none

theorem bufferInv_init : BufferInv (init cfg) :=
  ⟨by simp [Buffered, init], fun _ => rfl, fun _ => nofun, fun h => absurd rfl h⟩

theorem BufferInv.other (h : BufferInv s) (stack : Stack.State) (linkCallback : Bool)
    (posting : Option EmacEvent.Callback) (queue : List EmacEvent.Callback) :
    BufferInv { s with
      stack := stack, linkCallback := linkCallback, posting := posting, queue := queue } :=
  ⟨h.buffered, h.early, h.silent, h.created⟩

theorem BufferInv.goto (h : BufferInv s) {pc : Pc} (hpc : pc ≠ .processInput)
    (hearly : pc.early = true → s.poweredUp = false)
    (hcreated : pc ≠ .asserted → s.receiveSemaphore ≠ none) : BufferInv (s.goto pc) := by
  refine ⟨fun hused => ?_, hearly, h.silent, fun _ => hcreated⟩
  rcases hused with hsignalled | hprocess
  · exact h.buffered (.inl hsignalled)
  · exact absurd hprocess hpc

theorem BufferInv.initFails (h : BufferInv s) {rxBuffer : RxBuffer}
    (hquiet : s.receiveSemaphore ≠ some true) (hcreated : s.receiveSemaphore ≠ none) :
    BufferInv (s.initFails rxBuffer) :=
  ⟨fun hused => hused.elim (fun hsignalled => absurd hsignalled hquiet) nofun, nofun, h.silent,
    fun _ _ => hcreated⟩

theorem BufferInv.advance (h : BufferInv s) {ok : Bool} (hok : Unannounced s (.advance ok))
    (ht : s.advance ok = some t) : BufferInv t := by
  have hcreated : s.pc ≠ .semNew ∧ s.pc ≠ .asserted → s.receiveSemaphore ≠ none :=
    fun hpc => h.created hpc.1 hpc.2
  have hquiet : s.pc.early = true → s.receiveSemaphore ≠ some true :=
    fun hpc => h.silent (h.early hpc)
  simp only [State.advance] at ht
  split at ht
  · next hpc =>
      have hoff := h.early (by rw [hpc]; rfl)
      cases ht
      cases ok with
      | true => exact ⟨by simp [Buffered, State.goto], fun _ => hoff, fun _ => nofun, fun _ _ => nofun⟩
      | false => exact h.goto nofun (fun _ => hoff) fun hne => absurd rfl hne
  · next hpc =>
      cases ht
      have hoff := h.early (by rw [hpc]; rfl)
      have hsome := hcreated (by simp [hpc])
      cases ok with
      | true => exact h.goto nofun (fun _ => hoff) fun _ => hsome
      | false => exact h.goto nofun (fun _ => hoff) fun _ => hsome
  · next hpc =>
      cases ht
      have hsome := hcreated (by simp [hpc])
      cases ok with
      | true => exact ⟨fun _ => rfl, fun _ => h.early (by rw [hpc]; rfl), h.silent, fun _ _ => hsome⟩
      | false => exact h.initFails (hquiet (by rw [hpc]; rfl)) hsome
  · next hpc =>
      cases ht
      have hsome := hcreated (by simp [hpc])
      have hnone := hquiet (by rw [hpc]; rfl)
      cases ok with
      | true => exact ⟨fun hused => hused.elim (absurd · hnone) nofun, nofun, nofun, fun _ _ => hsome⟩
      | false => exact h.initFails hnone hsome
  · next hpc =>
      cases ht
      have hsome := hcreated (by simp [hpc])
      cases ok with
      | true => exact h.goto nofun nofun fun _ => hsome
      | false => exact h.goto nofun nofun fun _ => hsome
  · next hpc =>
      cases ht
      have hsome := hcreated (by simp [hpc])
      cases ok with
      | true => exact h.goto nofun nofun fun _ => hsome
      | false => exact h.initFails (hok hpc) hsome
  · next hpc =>
      cases ht
      have hsome := hcreated (by simp [hpc])
      exact (h.other s.stack true s.posting s.queue).goto nofun nofun fun _ => hsome
  · next hpc =>
      cases ht
      exact h.goto nofun nofun fun _ => hcreated (by simp [hpc])
  · next hpc =>
      cases ht
      have hsome := hcreated (by simp [hpc])
      exact (h.other _ s.linkCallback s.posting s.queue).goto nofun nofun fun _ => hsome
  · next hpc =>
      cases ht
      have hsome := hcreated (by simp [hpc])
      exact (h.other s.stack s.linkCallback s.posting _).goto nofun nofun fun _ => hsome
  · next hpc =>
      obtain ⟨hsignalled, ht⟩ := Option.ite_none_right_eq_some.mp ht
      cases ht
      exact ⟨fun _ => h.buffered (.inl hsignalled), nofun, fun _ => nofun, fun _ _ => nofun⟩
  · next hpc =>
      cases ht
      exact h.goto nofun nofun fun _ => hcreated (by simp [hpc])
  · cases ht
  · cases ht

theorem BufferInv.bringup (h : BufferInv s) {ipv6 : List Stack.Slot}
    (ht : s.interfaceBringup cfg ipv6 = some t) : BufferInv t := by
  obtain ⟨hpc, ht⟩ := Option.ite_none_right_eq_some.mp ht
  have hsome : s.receiveSemaphore ≠ none := h.created (by simp [hpc]) (by simp [hpc])
  cases ht
  split
  · exact h.goto nofun nofun fun _ => hsome
  · exact (h.other _ s.linkCallback s.posting s.queue).goto nofun nofun fun _ => hsome

theorem BufferInv.step (h : BufferInv s) (hok : Unannounced s a) (ht : step cfg s a = some t) :
    BufferInv t := by
  cases a with
  | advance ok => exact h.advance hok ht
  | bringup ipv6 => exact h.bringup ht
  | receive done =>
      obtain ⟨hon, ht⟩ := Option.ite_none_right_eq_some.mp ht
      cases ht
      cases done with
      | true =>
          refine ⟨fun _ => hok, h.early, fun hoff => ?_, fun hne hne' => ?_⟩
          · rw [hon] at hoff
            cases hoff
          · simpa using h.created hne hne'
      | false => exact h
  | event =>
      obtain ⟨-, ht⟩ := Option.ite_none_right_eq_some.mp ht
      cases ht
      exact h.other ..
  | post ok =>
      obtain ⟨callback, -, rfl⟩ := Option.map_eq_some_iff.mp ht
      exact h.other ..
  | execute answers =>
      simp only [Startup.step] at ht
      split at ht
      · cases ht
      · cases ht
        exact h.other ..

theorem not_buffered (h : BufferInv s) (ht : step cfg s a = some t) (hbad : ¬ Unannounced s a) :
    ¬ Buffered t := by
  intro hbuffered
  cases a with
  | receive done =>
      cases done with
      | false => exact hbad trivial
      | true =>
          obtain ⟨hon, ht⟩ := Option.ite_none_right_eq_some.mp ht
          cases ht
          have hlate : s.pc.early = false := by
            refine Bool.eq_false_iff.mpr fun hearly => ?_
            rw [h.early hearly] at hon
            cases hon
          have hsome : s.receiveSemaphore ≠ none := by
            refine h.created ?_ ?_
            · rintro hpc
              rw [hpc] at hlate
              cases hlate
            · rintro hpc
              rw [hpc] at hlate
              cases hlate
          obtain ⟨count, hcount⟩ := Option.ne_none_iff_exists'.mp hsome
          exact hbad (hbuffered (.inl (by simp [hcount])))
  | advance ok =>
      cases ok with
      | true => exact hbad trivial
      | false =>
          simp only [Unannounced, Classical.not_imp, not_not] at hbad
          obtain ⟨hpc, hsignalled⟩ := hbad
          simp only [step, State.advance, hpc] at ht
          cases ht
          exact nomatch hbuffered (.inl hsignalled)
  | _ => exact hbad trivial

/-- In any order of the steps, `ethernetif_process_input` has its buffer exactly as long as no frame
is announced around an initialisation that fails at the MAC address. -/
theorem buffered_always_iff (cfg : Stack.Config) (acts : List Action) :
    Always (step cfg) Buffered (init cfg) acts ↔ Meets (step cfg) Unannounced (init cfg) acts :=
  always_iff_meets BufferInv (fun _ _ _ h hok ht => h.step hok ht) (fun _ h => h.buffered)
    (fun _ _ _ h ht hbad => not_buffered h ht hbad) bufferInv_init acts

end OpenIotSdk.Lwip.Startup
