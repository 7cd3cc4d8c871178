import OpenIotSdk.Library.Transition
import OpenIotSdk.Model.Netx.Transmit

/-! # Ownership of transmitted packets

`outgoing_packet` is the driver's only record of the packet in flight, and a send command
overwrites it before it looks at `busy_transmitting`. As long as no command does so while
a transmission is in flight, each packet goes back to NetX exactly once. -/

namespace OpenIotSdk.Netx

open Transition

/-- A packet is released once for each command on it that succeeded, when its transmission
is complete, and NetX gets every packet back as it passed it down. -/
structure Sound (s : State) : Prop where
  once : ∀ id, s.released id + s.inFlight.count id =
    s.succeeded id + if s.pc = .success id then 1 else 0
  undamaged : s.damaged = 0

/-- A packet is stored for transmission only when no other one is in flight. -/
def StoresAlone (s : State) : Action → Prop
  | .advance _ => match s.pc with
    | .store _ => s.inFlight = []
    | _ => True
  | _ => True

instance (s : State) : ∀ a, Decidable (StoresAlone s a)
  | .advance _ =>
      match hpc : s.pc with
      | .store _ => decidable_of_iff (s.inFlight = []) (by simp only [StoresAlone, hpc])
      | .idle | .enabled _ | .header _ | .mtu _ | .busy _ | .alloc _ | .setBusy _ | .transmit _
      | .clearBusy _ | .restore _ | .fail _ | .success _ =>
          isTrue (by simp only [StoresAlone, hpc])
  | .send _ _ | .link _ | .callback => isTrue trivial

/-! ## The invariant -/

/-- The packet that the command under way holds, and whether it has its header. -/
def Pc.holds : Pc → Option (ℕ × Bool)
  | .enabled id | .header id | .fail id => some (id, false)
  | .mtu id | .store id | .busy id | .alloc id | .setBusy id | .transmit id | .clearBusy id
  | .restore id => some (id, true)
  | .idle | .success _ => none

/-- The packet that the command under way has stored. -/
def Pc.stored : Pc → Option ℕ
  | .busy id | .alloc id | .setBusy id | .transmit id | .clearBusy id => some id
  | _ => none

/-- The fields of a packet that was passed down, with or without its header. -/
def framed (headed : Bool) (p : Packet) : Packet := if headed then p.addHeader else p

/-- `on_transmit_complete` has still to remove the header. -/
def Callback.headed : Callback → Bool
  | .idle | .restore => true
  | .release => false

structure Inv (s : State) : Prop where
  sound : Sound s
  /-- At most one packet is in flight, the stored one. -/
  flight : s.inFlight = [] ∧ s.callback = .idle ∨ ∃ id, s.inFlight = [id] ∧
    s.outgoingPacket = some id ∧ s.packets id = framed s.callback.headed (s.passed id)
  held : ∀ id headed, s.pc.holds = some (id, headed) →
    id ∉ s.inFlight ∧ s.packets id = framed headed (s.passed id)
  stored : ∀ id, s.pc.stored = some id → s.inFlight = [] ∧ s.outgoingPacket = some id

theorem inv_init (mtu : ℕ) (packets : ℕ → Packet) : Inv (init mtu packets) :=
  ⟨⟨fun _ => rfl, rfl⟩, .inl ⟨rfl, rfl⟩, nofun, nofun⟩

/-! ## The IP thread -/

theorem Pc.not_success {pc : Pc} {held : ℕ × Bool} (h : pc.holds = some held) (id : ℕ) :
    pc ≠ .success id := by
  rintro rfl
  cases h

theorem Sound.goto {s : State} (h : Sound s) (next : Pc) (hs : ∀ id, s.pc ≠ .success id)
    (hnext : ∀ id, next ≠ .success id) : Sound (s.goto next) := by
  refine ⟨fun id => ?_, h.undamaged⟩
  have honce := h.once id
  rw [if_neg (hs id)] at honce
  change _ = s.succeeded id + if next = .success id then 1 else 0
  rw [if_neg (hnext id)]
  exact honce

theorem Inv.setBusy {s : State} (h : Inv s) (busy : Bool) :
    Inv { s with busyTransmitting := busy } :=
  ⟨⟨h.sound.once, h.sound.undamaged⟩, h.flight, h.held, h.stored⟩

theorem Inv.goto {s : State} (h : Inv s) {held : ℕ × Bool} {next : Pc}
    (hs : s.pc.holds = some held) (hnext : next.holds = some held)
    (hstored : next.stored = s.pc.stored ∨ next.stored = none) : Inv (s.goto next) := by
  refine ⟨h.sound.goto next (Pc.not_success hs) (Pc.not_success hnext), h.flight, ?_, ?_⟩
  · intro id headed hx
    exact h.held id headed (hs.trans (hnext.symm.trans hx))
  · intro id hx
    rcases hstored with heq | heq
    · exact h.stored id (heq.symm.trans hx)
    · cases heq.symm.trans hx

theorem Inv.flight_setPacket {s : State} (h : Inv s) {id : ℕ} (hid : id ∉ s.inFlight)
    (packet passed : Packet) :
    s.inFlight = [] ∧ s.callback = .idle ∨ ∃ i, s.inFlight = [i] ∧
      s.outgoingPacket = some i ∧ Function.update s.packets id packet i =
        framed s.callback.headed (Function.update s.passed id passed i) := by
  apply h.flight.imp_right
  rintro ⟨i, hi, hout, hfields⟩
  refine ⟨i, hi, hout, ?_⟩
  have hne : i ≠ id := by
    rintro rfl
    exact hid (by rw [hi]; exact List.mem_singleton_self _)
  rw [Function.update_of_ne hne, Function.update_of_ne hne]
  exact hfields

theorem Inv.reframe {s : State} (h : Inv s) {id : ℕ} {headed : Bool} {packet : Packet}
    {next : Pc} (hs : s.pc.holds = some (id, headed))
    (hpacket : packet = framed (!headed) (s.passed id))
    (hnext : next.holds = some (id, !headed)) (hstored : next.stored = none) :
    Inv ((s.setPacket id packet).goto next) := by
  have hid : id ∉ s.inFlight := (h.held id headed hs).1
  have hsound := h.sound.goto next (Pc.not_success hs) (Pc.not_success hnext)
  refine ⟨⟨hsound.once, hsound.undamaged⟩, ?_, ?_, ?_⟩
  · have hflight := h.flight_setPacket hid packet (s.passed id)
    rwa [Function.update_eq_self] at hflight
  · intro i hd hi
    obtain ⟨rfl, rfl⟩ : id = i ∧ (!headed) = hd := by
      simpa using hnext.symm.trans hi
    refine ⟨hid, ?_⟩
    change Function.update s.packets id packet id = _
    rw [Function.update_self, hpacket]
    rfl
  · intro i hi
    cases hstored.symm.trans hi

theorem Inv.success {s : State} (h : Inv s) {id : ℕ} (hpc : s.pc = .transmit id) :
    Inv ({ s with inFlight := s.inFlight ++ [id] }.goto (.success id)) := by
  have hstored : s.inFlight = [] ∧ s.outgoingPacket = some id := h.stored id (by rw [hpc]; rfl)
  have hheld := h.held id true (by rw [hpc]; rfl)
  refine ⟨⟨fun i => ?_, h.sound.undamaged⟩, ?_, nofun, nofun⟩
  · have honce := h.sound.once i
    rw [hstored.1, hpc] at honce
    change s.released i + (s.inFlight ++ [id]).count i =
      s.succeeded i + if Pc.success id = .success i then 1 else 0
    rw [hstored.1, List.nil_append, List.count_singleton]
    simpa using honce
  · have hidle : s.callback = .idle := by
      rcases h.flight with hx | ⟨i, hi, -⟩
      · exact hx.2
      · rw [hstored.1] at hi
        cases hi
    refine .inr ⟨id, ?_, hstored.2, ?_⟩
    · change s.inFlight ++ [id] = [id]
      rw [hstored.1]
      rfl
    · change s.packets id = framed s.callback.headed (s.passed id)
      rw [hidle]
      exact hheld.2

theorem Inv.store {s : State} (h : Inv s) {id : ℕ} (hpc : s.pc = .store id)
    (hflight : s.inFlight = []) :
    Inv ({ s with outgoingPacket := some id }.goto (.busy id)) := by
  have hidle : s.callback = .idle := by
    rcases h.flight with hx | ⟨i, hi, -⟩
    · exact hx.2
    · rw [hflight] at hi
      cases hi
  have hholds : s.pc.holds = some (id, true) := by rw [hpc]; rfl
  have hsound := h.sound.goto (.busy id) (Pc.not_success hholds) nofun
  refine ⟨⟨hsound.once, hsound.undamaged⟩, .inl ⟨hflight, hidle⟩, ?_, ?_⟩
  · intro i headed hi
    exact h.held i headed (hholds.trans hi)
  · intro i hi
    exact ⟨hflight, hi⟩

theorem Inv.fail {s : State} (h : Inv s) {id : ℕ} (hpc : s.pc = .fail id) :
    Inv ((s.handBack id).goto .idle) := by
  have hholds : s.pc.holds = some (id, false) := by rw [hpc]; rfl
  have hfields : s.packets id = s.passed id := (h.held id false hholds).2
  have hsound := h.sound.goto .idle (Pc.not_success hholds) nofun
  refine ⟨⟨hsound.once, ?_⟩, h.flight, nofun, nofun⟩
  change s.damaged + (if s.packets id = s.passed id then 0 else 1) = 0
  rw [if_pos hfields]
  exact h.sound.undamaged

theorem Inv.count {s : State} (h : Inv s) {id : ℕ} (hpc : s.pc = .success id) :
    Inv ({ s with succeeded := Function.update s.succeeded id (s.succeeded id + 1) }.goto
      .idle) := by
  refine ⟨⟨fun i => ?_, h.sound.undamaged⟩, h.flight, nofun, nofun⟩
  have honce := h.sound.once i
  rw [hpc] at honce
  change s.released i + s.inFlight.count i =
    Function.update s.succeeded id (s.succeeded id + 1) i + 0
  rw [honce, Function.update_apply]
  by_cases hi : i = id
  · simp [hi]
  · simp [hi, Ne.symm hi]

theorem Inv.advance {s s' : State} {ok : Bool} (h : Inv s) (hok : StoresAlone s (.advance ok))
    (hs : s.advance ok = some s') : Inv s' := by
  cases hpc : s.pc with
  | idle => simp [State.advance, hpc] at hs
  | enabled id | mtu id =>
      simp only [State.advance, hpc, Option.some.injEq] at hs
      subst hs
      split <;> exact h.goto (by rw [hpc]; rfl) rfl (.inr rfl)
  | header id =>
      simp only [State.advance, hpc, Option.some.injEq] at hs
      subst hs
      have hfields : s.packets id = s.passed id := (h.held id false (by rw [hpc]; rfl)).2
      exact h.reframe (by rw [hpc]; rfl) (by rw [hfields]; rfl) rfl rfl
  | store id =>
      simp only [StoresAlone, hpc] at hok
      simp only [State.advance, hpc, Option.some.injEq] at hs
      subst hs
      exact h.store hpc hok
  | busy id | alloc id =>
      simp only [State.advance, hpc, Option.some.injEq] at hs
      subst hs
      split
      · exact h.goto (by rw [hpc]; rfl) rfl (by simp [hpc, Pc.stored])
      · exact h.goto (by rw [hpc]; rfl) rfl (by simp [hpc, Pc.stored])
  | setBusy id =>
      simp only [State.advance, hpc, Option.some.injEq] at hs
      subst hs
      exact (h.setBusy true).goto (by rw [hpc]; rfl) rfl (.inl (by rw [hpc]; rfl))
  | transmit id =>
      simp only [State.advance, hpc, Option.some.injEq] at hs
      subst hs
      split
      · exact h.success hpc
      · exact h.goto (by rw [hpc]; rfl) rfl (.inl (by rw [hpc]; rfl))
  | clearBusy id =>
      simp only [State.advance, hpc, Option.some.injEq] at hs
      subst hs
      exact (h.setBusy false).goto (by rw [hpc]; rfl) rfl (.inr rfl)
  | restore id =>
      simp only [State.advance, hpc, Option.some.injEq] at hs
      subst hs
      have hfields : s.packets id = (s.passed id).addHeader :=
        (h.held id true (by rw [hpc]; rfl)).2
      exact h.reframe (by rw [hpc]; rfl)
        (by rw [hfields]; exact Packet.removeHeader_addHeader _) rfl rfl
  | fail id =>
      simp only [State.advance, hpc, Option.some.injEq] at hs
      subst hs
      exact h.fail hpc
  | success id =>
      simp only [State.advance, hpc, Option.some.injEq] at hs
      subst hs
      exact h.count hpc

theorem Inv.send {s : State} (h : Inv s) (hpc : s.pc = .idle) {id : ℕ} (hid : id ∉ s.inFlight)
    (packet : Packet) :
    Inv { s.setPacket id packet with
      passed := Function.update s.passed id packet
      pc := .enabled id } := by
  have hsound := h.sound.goto (.enabled id) (by simp [hpc]) nofun
  refine ⟨⟨hsound.once, hsound.undamaged⟩, h.flight_setPacket hid packet packet, ?_, nofun⟩
  intro i headed hi
  obtain ⟨rfl, rfl⟩ : id = i ∧ false = headed := by simpa [Pc.holds] using hi
  refine ⟨hid, ?_⟩
  change Function.update s.packets id packet id = Function.update s.passed id packet id
  rw [Function.update_self, Function.update_self]

/-! ## The callback -/

/-- The callback finds the packet in flight in the slot. -/
theorem Inv.inFlight {s : State} (h : Inv s) (hflight : s.inFlight ≠ [] ∨ s.callback ≠ .idle) :
    ∃ id, s.inFlight = [id] ∧ s.outgoingPacket = some id ∧
      s.packets id = framed s.callback.headed (s.passed id) ∧ s.pc.stored = none ∧
      ∀ i headed, s.pc.holds = some (i, headed) → i ≠ id := by
  rcases h.flight with ⟨hempty, hidle⟩ | ⟨id, hid, hout, hfields⟩
  · exact absurd hflight (by simp [hempty, hidle])
  · refine ⟨id, hid, hout, hfields, ?_, ?_⟩
    · cases hstored : s.pc.stored with
      | none => rfl
      | some i =>
          rw [(h.stored i hstored).1] at hid
          cases hid
    · rintro i headed hi rfl
      exact (h.held i headed hi).1 (by rw [hid]; exact List.mem_singleton_self _)

theorem Inv.transmitComplete {s s' : State} (h : Inv s) (hs : s.transmitComplete = some s') :
    Inv s' := by
  dsimp only [State.transmitComplete] at hs
  split at hs
  · next hcallback hflight =>
      cases hs
      obtain ⟨id, hid, hout, hfields, -⟩ := h.inFlight (.inl (by simp [hflight]))
      rw [hcallback] at hfields
      exact ⟨⟨h.sound.once, h.sound.undamaged⟩, .inr ⟨id, hid, hout, hfields⟩, h.held, h.stored⟩
  · next id hcallback hslot =>
      cases hs
      obtain ⟨i, hi, hout, hfields, hstored, hother⟩ := h.inFlight (.inr (by simp [hcallback]))
      obtain rfl : id = i := by simpa [hslot] using hout
      rw [hcallback] at hfields
      refine ⟨⟨h.sound.once, h.sound.undamaged⟩, .inr ⟨id, hi, hout, ?_⟩, ?_, h.stored⟩
      · change Function.update s.packets id (s.packets id).removeHeader id = s.passed id
        rw [Function.update_self, hfields]
        exact Packet.removeHeader_addHeader _
      · intro j headed hj
        refine ⟨(h.held j headed hj).1, ?_⟩
        change Function.update s.packets id (s.packets id).removeHeader j = _
        rw [Function.update_of_ne (hother j headed hj)]
        exact (h.held j headed hj).2
  · next id first rest hcallback hslot hflight =>
      cases hs
      obtain ⟨i, hi, hout, hfields, hstored, -⟩ := h.inFlight (.inr (by simp [hcallback]))
      obtain rfl : id = i := by simpa [hslot] using hout
      obtain ⟨rfl, rfl⟩ : first = id ∧ rest = [] := by simpa [hflight] using hi
      have hfields : s.packets first = s.passed first := by rw [hfields, hcallback]; rfl
      refine ⟨⟨fun j => ?_, ?_⟩, .inl ⟨rfl, rfl⟩, ?_, ?_⟩
      · have honce := h.sound.once j
        rw [hflight, List.count_singleton] at honce
        change Function.update s.released first (s.released first + 1) j + 0 =
          s.succeeded j + if s.pc = .success j then 1 else 0
        rw [← honce, Function.update_apply]
        by_cases hj : j = first
        · simp [hj]
        · simp [hj, Ne.symm hj]
      · change s.damaged + (if s.packets first = s.passed first then 0 else 1) = 0
        rw [if_pos hfields]
        exact h.sound.undamaged
      · intro j headed hj
        exact ⟨List.not_mem_nil, (h.held j headed hj).2⟩
      · intro j hj
        cases hstored.symm.trans hj
  · cases hs

/-! ## Runs -/

theorem Inv.step {s s' : State} {a : Action} (h : Inv s) (hok : StoresAlone s a)
    (hs : step s a = some s') : Inv s' := by
  dsimp only [Netx.step] at hs
  cases a with
  | send id packet =>
      obtain ⟨hpc, hs⟩ := Option.ite_none_right_eq_some.mp hs
      cases hs
      exact h.send hpc.1 hpc.2 packet
  | link enabled =>
      obtain ⟨-, hs⟩ := Option.ite_none_right_eq_some.mp hs
      cases hs
      exact ⟨⟨h.sound.once, h.sound.undamaged⟩, h.flight, h.held, h.stored⟩
  | advance ok => exact h.advance hok hs
  | callback => exact h.transmitComplete hs

/-- Any packets and sizes, any answers of the memory manager and the EMAC and any timing of
the callbacks: packets are owned soundly throughout a run that stores each packet while
no other one is in flight. -/
theorem sound_of_storesAlone (mtu : ℕ) (packets : ℕ → Packet) (acts : List Action)
    (h : Meets step StoresAlone (init mtu packets) acts) :
    Always step Sound (init mtu packets) acts :=
  .of_invariant Inv (fun _ _ _ hs hok hstep => hs.step hok hstep) (fun _ hs => hs.sound)
    (inv_init mtu packets) h

/-- The statements of a command up to the answer of the EMAC, which accepts. -/
def sending (id : ℕ) : List Action :=
  .send id ⟨100#32, 60#32⟩ :: List.replicate 9 (.advance true)

/-- A packet is sent and released, and then sent again. -/
theorem resent_sound :
    Always step Sound (init 1514 fun _ => ⟨0#32, 0#32⟩)
      (sending 0 ++ [.callback, .callback, .callback] ++ sending 0) :=
  sound_of_storesAlone 1514 _ _ (by decide)

/-- While packet 0 is in flight, the command on packet 1 fails because the driver is busy;
then the callback for packet 0 releases packet 1. -/
def overwritten : List Action :=
  sending 0 ++ .send 1 ⟨500#32, 60#32⟩ :: List.replicate 7 (.advance true) ++
    [.callback, .callback, .callback]

theorem overwritten_not_sound :
    ¬ ∀ mtu packets acts s, run step (init mtu packets) acts = some s → Sound s := by
  intro h
  exact absurd ((h 1514 (fun _ => ⟨0#32, 0#32⟩) overwritten _ rfl).once 1) (by decide)

end OpenIotSdk.Netx
