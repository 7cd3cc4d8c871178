import OpenIotSdk.Library.Transition
import OpenIotSdk.Model.Netx.Driver

/-! # Balance of buffers and packets

Every way out of the reception gives back what it allocated, and the transmit callback frees
the buffer of each accepted transmission. `hardware_send_packet` does not free its buffer
when `mdh_emac_transmit` refuses it. -/

namespace OpenIotSdk.Netx

open Transition

/-! ## Reception -/

namespace Receive

/-- The buffer that the deferred command has still to free. -/
def Pc.buffers : Pc → List ℕ
  | .receive buffer | .discard buffer | .allocate buffer | .copy buffer _ | .free buffer _ _ =>
      [buffer]
  | .idle | .test _ | .alloc | .transfer _ _ | .release _ => []

/-- The packet that it has still to pass to NetX Duo or to release. -/
def Pc.packets : Pc → List ℕ
  | .copy _ packet | .free _ packet _ | .transfer packet _ | .release packet => [packet]
  | .idle | .test _ | .alloc | .receive _ | .discard _ | .allocate _ => []

/-- The deferred command holds what was not given back, with buffers that others hold. -/
structure Balanced (others : List ℕ) (s : State) : Prop where
  memory : s.memory.Balanced (others ++ s.pc.buffers)
  pool : s.pool.Balanced s.pc.packets

variable {others : List ℕ} {s t : State}

theorem Balanced.goto {pc : Pc} (h : Balanced others s) (hbuffers : pc.buffers = s.pc.buffers)
    (hpackets : pc.packets = s.pc.packets) : Balanced others (s.goto pc) := by
  constructor
  · change s.memory.Balanced (others ++ pc.buffers)
    rw [hbuffers]
    exact h.memory
  · change s.pool.Balanced pc.packets
    rw [hpackets]
    exact h.pool

theorem Balanced.fail {pc : Pc} (h : Balanced others s) (hbuffers : pc.buffers = s.pc.buffers)
    (hpackets : pc.packets = s.pc.packets) : Balanced others (s.fail pc) :=
  ⟨(h.goto hbuffers hpackets).memory, (h.goto hbuffers hpackets).pool⟩

theorem Balanced.free {pc : Pc} {buffer : ℕ} (h : Balanced others s)
    (hs : s.pc.buffers = [buffer]) (hbuffers : pc.buffers = [])
    (hpackets : pc.packets = s.pc.packets) :
    Balanced others ({ s with memory := s.memory.settle buffer }.goto pc) := by
  have hmemory := h.memory
  rw [hs] at hmemory
  constructor
  · change (s.memory.settle buffer).Balanced (others ++ pc.buffers)
    rw [hbuffers]
    exact hmemory.settle_last
  · change s.pool.Balanced pc.packets
    rw [hpackets]
    exact h.pool

theorem Balanced.settle {pc : Pc} {packet : ℕ} (h : Balanced others s)
    (hs : s.pc.packets = [packet]) (hbuffers : pc.buffers = s.pc.buffers)
    (hpackets : pc.packets = []) :
    Balanced others ({ s with pool := s.pool.settle packet }.goto pc) := by
  have hpool := h.pool
  rw [hs] at hpool
  constructor
  · change s.memory.Balanced (others ++ pc.buffers)
    rw [hbuffers]
    exact h.memory
  · change (s.pool.settle packet).Balanced pc.packets
    rw [hpackets]
    exact hpool.settle (List.Perm.refl _)

theorem Balanced.alloc (h : Balanced others s) (hpc : s.pc = .alloc) :
    Balanced others
      ({ s with memory := s.memory.issue }.goto (.receive s.memory.issued)) := by
  have hmemory := h.memory
  have hpool := h.pool
  rw [hpc] at hmemory hpool
  exact ⟨hmemory.issue_last, hpool⟩

theorem Balanced.allocate {buffer : ℕ} (h : Balanced others s) (hpc : s.pc = .allocate buffer) :
    Balanced others
      ({ s with pool := s.pool.issue }.goto (.copy buffer s.pool.issued)) := by
  have hmemory := h.memory
  have hpool := h.pool
  rw [hpc] at hmemory hpool
  exact ⟨hmemory, hpool.issue (List.Perm.refl _)⟩

theorem Balanced.advance {ok : Bool} {packetType : BitVec 16} (h : Balanced others s)
    (hs : s.advance ok packetType = some t) : Balanced others t := by
  dsimp only [State.advance] at hs
  split at hs
  · cases hs
  · next event hpc =>
      cases hs
      cases event
      · exact h.goto (by rw [hpc]; rfl) (by rw [hpc]; rfl)
      · exact h.goto (by rw [hpc]; rfl) (by rw [hpc]; rfl)
  · next hpc =>
      cases hs
      cases ok
      · exact h.fail (by rw [hpc]; rfl) (by rw [hpc]; rfl)
      · exact h.alloc hpc
  · next buffer hpc =>
      cases hs
      cases ok
      · exact h.fail (by rw [hpc]; rfl) (by rw [hpc]; rfl)
      · have hgoto : Balanced others (s.goto (.allocate buffer)) :=
          h.goto (by rw [hpc]; rfl) (by rw [hpc]; rfl)
        exact ⟨hgoto.memory, hgoto.pool⟩
  · next buffer hpc =>
      cases hs
      exact h.free (by rw [hpc]; rfl) rfl (by rw [hpc]; rfl)
  · next buffer hpc =>
      cases hs
      cases ok
      · exact h.fail (by rw [hpc]; rfl) (by rw [hpc]; rfl)
      · exact h.allocate hpc
  · next buffer packet hpc =>
      cases hs
      cases ok
      · exact h.fail (by rw [hpc]; rfl) (by rw [hpc]; rfl)
      · exact h.goto (by rw [hpc]; rfl) (by rw [hpc]; rfl)
  · next buffer packet copied hpc =>
      cases hs
      cases copied
      · exact h.free (by rw [hpc]; rfl) rfl (by rw [hpc]; rfl)
      · exact h.free (by rw [hpc]; rfl) rfl (by rw [hpc]; rfl)
  · next packet packetType hpc =>
      cases hs
      cases transferToNetx packetType
      · exact h.goto (by rw [hpc]; rfl) (by rw [hpc]; rfl)
      · exact h.settle (by rw [hpc]; rfl) (by rw [hpc]; rfl) rfl
  · next packet hpc =>
      cases hs
      exact h.settle (by rw [hpc]; rfl) (by rw [hpc]; rfl) rfl

theorem Balanced.step {a : Action} (h : Balanced others s) (hs : step s a = some t) :
    Balanced others t := by
  cases a with
  | receiveComplete =>
      cases hs
      exact ⟨h.memory, h.pool⟩
  | request =>
      obtain ⟨-, hs⟩ := Option.ite_none_right_eq_some.mp hs
      cases hs
      exact ⟨h.memory, h.pool⟩
  | process again =>
      obtain ⟨⟨hpc, -⟩, hs⟩ := Option.ite_none_right_eq_some.mp hs
      cases hs
      have hmemory := h.memory
      have hpool := h.pool
      rw [hpc] at hmemory hpool
      exact ⟨hmemory, hpool⟩
  | advance ok packetType => exact h.advance hs

end Receive

namespace Driver

/-- The buffers that the transmission has still to free. -/
def State.buffers (s : State) : List ℕ := s.sending.toList ++ s.flying ++ s.freeing.toList

/-- Each buffer and each packet for reception was given back once, or somebody who will give
it back holds it; the buffers of accepted transmissions wait for their callbacks. -/
def Balanced (s : State) : Prop := Receive.Balanced s.buffers s.receive

/-- When no buffer is in flight and no command is under way, every buffer was freed exactly
once, and every packet was taken or released exactly once. -/
theorem Balanced.settled_eq_one {s : State} (h : Balanced s) (hbuffers : s.buffers = [])
    (hpc : s.receive.pc = .idle) :
    (∀ buffer < s.receive.memory.issued, s.receive.memory.settled buffer = 1) ∧
      ∀ packet < s.receive.pool.issued, s.receive.pool.settled packet = 1 := by
  have hmemory := h.memory
  have hpool := h.pool
  rw [hbuffers, hpc] at hmemory
  rw [hpc] at hpool
  constructor
  · intro buffer hbuffer
    exact Ledger.Balanced.settled_eq_one hmemory hbuffer List.not_mem_nil
  · intro packet hpacket
    exact Ledger.Balanced.settled_eq_one hpool hpacket List.not_mem_nil

def Accepted (s : State) : Action → Prop
  | .transmit (.advance ok) => ∀ id, s.transmit.pc = .transmit id → ok = true
  | _ => True

/-! ## Transmission -/

def allocated : Pc → Bool
  | .setBusy _ | .transmit _ => true
  | _ => false

structure Inv (s : State) : Prop where
  balanced : Balanced s
  sending : s.sending.isSome = allocated s.transmit.pc
  flying : s.flying.length = s.transmit.inFlight.length
  freeing : s.transmit.callback ≠ .idle → s.freeing = none

theorem inv_init (mtu : ℕ) (packets : ℕ → Packet) : Inv (init mtu packets) :=
  ⟨⟨Ledger.balanced_empty, Ledger.balanced_empty⟩, rfl, rfl, fun _ => rfl⟩

variable {s t : State} {next : Netx.State}

theorem advance_frame {s t : Netx.State} {ok : Bool} (halloc : ∀ id, s.pc ≠ .alloc id)
    (htransmit : ∀ id, s.pc ≠ .transmit id) (hs : s.advance ok = some t) :
    allocated t.pc = allocated s.pc ∧ t.inFlight = s.inFlight ∧ t.callback = s.callback := by
  dsimp only [Netx.State.advance] at hs
  split at hs
  · cases hs
  · next id hpc =>
      cases hs
      refine ⟨?_, rfl, rfl⟩
      rw [hpc]
      cases s.enabled <;> rfl
  · next id hpc =>
      cases hs
      exact ⟨by rw [hpc]; rfl, rfl, rfl⟩
  · next id hpc =>
      cases hs
      refine ⟨?_, rfl, rfl⟩
      rw [hpc]
      dsimp only [Netx.State.goto]
      split <;> rfl
  · next id hpc =>
      cases hs
      exact ⟨by rw [hpc]; rfl, rfl, rfl⟩
  · next id hpc =>
      cases hs
      refine ⟨?_, rfl, rfl⟩
      rw [hpc]
      cases s.busyTransmitting <;> rfl
  · next id hpc => exact absurd hpc (halloc id)
  · next id hpc =>
      cases hs
      exact ⟨by rw [hpc]; rfl, rfl, rfl⟩
  · next id hpc => exact absurd hpc (htransmit id)
  · next id hpc =>
      cases hs
      exact ⟨by rw [hpc]; rfl, rfl, rfl⟩
  · next id hpc =>
      cases hs
      exact ⟨by rw [hpc]; rfl, rfl, rfl⟩
  · next id hpc =>
      cases hs
      exact ⟨by rw [hpc]; rfl, rfl, rfl⟩
  · next id hpc =>
      cases hs
      exact ⟨by rw [hpc]; rfl, rfl, rfl⟩

theorem Inv.frame (h : Inv s) (hpc : allocated next.pc = allocated s.transmit.pc)
    (hflight : next.inFlight.length = s.transmit.inFlight.length)
    (hcallback : next.callback ≠ .idle → s.freeing = none) :
    Inv { s with transmit := next } :=
  ⟨h.balanced, h.sending.trans hpc.symm, h.flying.trans hflight.symm, hcallback⟩

theorem Inv.alloc (h : Inv s) {id : ℕ} (hpc : s.transmit.pc = .alloc id) :
    Inv { s.setMemory s.receive.memory.issue with
      sending := some s.receive.memory.issued
      transmit := s.transmit.goto (.setBusy id) } := by
  have hsending : s.sending = none := by
    simpa [hpc, allocated] using h.sending
  have hmemory := h.balanced.memory
  rw [State.buffers, hsending] at hmemory
  exact ⟨⟨hmemory.issue (List.Perm.refl _), h.balanced.pool⟩, rfl, h.flying, h.freeing⟩

theorem Inv.exists_sending (h : Inv s) {id : ℕ} (hpc : s.transmit.pc = .transmit id) :
    ∃ buffer, s.sending = some buffer := by
  have hsome := h.sending
  rw [hpc] at hsome
  exact Option.isSome_iff_exists.mp hsome

theorem Inv.accept (h : Inv s) {id : ℕ} (hpc : s.transmit.pc = .transmit id) :
    Inv { s with
      sending := none
      flying := s.flying ++ s.sending.toList
      transmit := { s.transmit with inFlight := s.transmit.inFlight ++ [id] }.goto
        (.success id) } := by
  obtain ⟨buffer, hbuffer⟩ := h.exists_sending hpc
  have hmemory := h.balanced.memory
  rw [State.buffers, hbuffer] at hmemory
  refine ⟨⟨hmemory.perm ?_, h.balanced.pool⟩, rfl, ?_, h.freeing⟩
  · rw [State.buffers, hbuffer]
    exact ((List.perm_append_singleton buffer s.flying).append_right _).append_right _
  · simp [hbuffer, Netx.State.goto, h.flying]

/-- Nobody will free the buffer that the EMAC refused. -/
theorem Inv.not_balanced_of_refuse (h : Inv s) {id : ℕ} (hpc : s.transmit.pc = .transmit id) :
    ¬ Balanced { s with sending := none, transmit := next } := by
  obtain ⟨buffer, hbuffer⟩ := h.exists_sending hpc
  have hmemory := h.balanced.memory
  rw [State.buffers, hbuffer] at hmemory
  intro hbalanced
  exact hmemory.not_forget (List.Perm.refl _) hbalanced.memory

theorem Inv.advance (h : Inv s) {ok : Bool} (hok : ∀ id, s.transmit.pc = .transmit id → ok = true)
    (hs : s.transmit.advance ok = some next) : Inv { s.advance ok with transmit := next } := by
  dsimp only [State.advance]
  split
  · next id hpc =>
      simp only [Netx.State.advance, hpc, Option.some.injEq] at hs
      subst hs
      cases ok
      · exact h.frame (by rw [hpc]; rfl) rfl h.freeing
      · exact h.alloc hpc
  · next id hpc =>
      simp only [Netx.State.advance, hpc, Option.some.injEq] at hs
      subst hs
      obtain rfl : ok = true := hok id hpc
      exact h.accept hpc
  · next halloc htransmit =>
      obtain ⟨hpc, hflight, hcallback⟩ := advance_frame halloc htransmit hs
      refine h.frame hpc (by rw [hflight]) ?_
      rw [hcallback]
      exact h.freeing

theorem Inv.release (h : Inv s) (hcallback : s.transmit.callback = .release)
    (hpc : allocated next.pc = allocated s.transmit.pc)
    (hflight : next.inFlight.length + 1 = s.transmit.inFlight.length)
    (hnext : next.callback = .idle) :
    Inv { s with flying := s.flying.tail, freeing := s.flying.head?, transmit := next } := by
  have hfreeing : s.freeing = none := h.freeing (by rw [hcallback]; simp)
  have hmemory := h.balanced.memory
  have hlength := h.flying
  cases hflying : s.flying with
  | nil =>
      rw [hflying, ← hflight] at hlength
      cases hlength
  | cons buffer rest =>
      rw [State.buffers, hflying, hfreeing] at hmemory
      rw [hflying] at hlength
      refine ⟨⟨hmemory.perm ?_, h.balanced.pool⟩, h.sending.trans hpc.symm, ?_, ?_⟩
      · dsimp only [State.buffers]
        apply List.Perm.append_right
        simp only [Option.toList_none, List.append_nil, List.append_assoc, List.tail_cons,
          List.head?_cons, Option.toList_some]
        exact (List.perm_append_singleton buffer rest).append_left _
      · have hrest : rest.length + 1 = next.inFlight.length + 1 := hlength.trans hflight.symm
        exact Nat.succ.inj hrest
      · intro hn
        exact absurd hnext hn

theorem Inv.transmitComplete (h : Inv s) (hready : s.freeing = none)
    (hs : s.transmit.transmitComplete = some next) :
    Inv { s.transmitComplete with transmit := next } := by
  dsimp only [Netx.State.transmitComplete] at hs
  dsimp only [State.transmitComplete]
  split at hs
  · next hcallback hflight =>
      cases hs
      rw [hcallback]
      exact h.frame rfl rfl fun _ => hready
  · next id hcallback hslot =>
      cases hs
      rw [hcallback]
      exact h.frame rfl rfl fun _ => hready
  · next id first rest hcallback hslot hflight =>
      cases hs
      rw [hcallback]
      exact h.release hcallback rfl (by rw [hflight]; rfl) rfl
  · cases hs

theorem Inv.free (h : Inv s) {buffer : ℕ} (hbuffer : s.freeing = some buffer) :
    Inv { s.setMemory (s.receive.memory.settle buffer) with freeing := none } := by
  have hmemory := h.balanced.memory
  rw [State.buffers, hbuffer] at hmemory
  refine ⟨⟨hmemory.settle ?_, h.balanced.pool⟩, h.sending, h.flying, fun _ => rfl⟩
  dsimp only [State.buffers, State.setMemory]
  simp only [Option.toList_none, List.append_nil, Option.toList_some]
  exact (List.perm_append_singleton buffer _).append_right _

/-! ## Runs -/

theorem Inv.transmit (h : Inv s) {a : Netx.Action} (hready : s.Ready (.transmit a))
    (hok : Accepted s (.transmit a)) (hs : Netx.step s.transmit a = some next) :
    Inv { s.track a with transmit := next } := by
  dsimp only [Netx.step] at hs
  cases a with
  | send id packet =>
      obtain ⟨⟨hpc, -⟩, hs⟩ := Option.ite_none_right_eq_some.mp hs
      cases hs
      exact h.frame (by rw [hpc]; rfl) rfl h.freeing
  | link enabled =>
      obtain ⟨-, hs⟩ := Option.ite_none_right_eq_some.mp hs
      cases hs
      exact h.frame rfl rfl h.freeing
  | advance ok => exact h.advance hok hs
  | callback => exact h.transmitComplete hready hs

theorem Inv.step {a : Action} (h : Inv s) (hok : Accepted s a) (hs : step s a = some t) :
    Inv t := by
  obtain ⟨hready, hs⟩ := Option.ite_none_right_eq_some.mp hs
  cases a with
  | transmit a =>
      obtain ⟨next, hnext, rfl⟩ := Option.map_eq_some_iff.mp hs
      exact h.transmit hready hok hnext
  | free =>
      obtain ⟨buffer, hbuffer, rfl⟩ := Option.map_eq_some_iff.mp hs
      exact h.free hbuffer
  | receive a =>
      obtain ⟨next, hnext, rfl⟩ := Option.map_eq_some_iff.mp hs
      exact ⟨h.balanced.step hnext, h.sending, h.flying, h.freeing⟩

theorem Inv.not_balanced_of_not_accepted {a : Action} (h : Inv s)
    (hs : Driver.step s a = some t) (hn : ¬ Accepted s a) : ¬ Balanced t := by
  obtain ⟨-, hs⟩ := Option.ite_none_right_eq_some.mp hs
  cases a with
  | free => exact absurd trivial hn
  | receive a => exact absurd trivial hn
  | transmit a =>
      obtain ⟨next, hnext, rfl⟩ := Option.map_eq_some_iff.mp hs
      cases a with
      | send id packet => exact absurd trivial hn
      | link enabled => exact absurd trivial hn
      | callback => exact absurd trivial hn
      | advance ok =>
          obtain ⟨id, hpc, hok⟩ : ∃ id, s.transmit.pc = .transmit id ∧ ok = false := by
            simpa [Accepted] using hn
          subst hok
          simp only [State.track, State.advance, hpc]
          exact h.not_balanced_of_refuse hpc

/-- Over every run of sends, receptions and callbacks, whatever the memory manager, the EMAC
and the packet pool answer, the buffers and packets balance if and only if the EMAC refuses
no transmission. -/
theorem balanced_iff_accepted (mtu : ℕ) (packets : ℕ → Packet) (acts : List Action) :
    Always step Balanced (init mtu packets) acts ↔
      Meets step Accepted (init mtu packets) acts := by
  apply always_iff_meets Inv
  · intro s a t h hok hs
    exact h.step hok hs
  · intro s h
    exact h.balanced
  · intro s a t h hs hn
    exact h.not_balanced_of_not_accepted hs hn
  · exact inv_init mtu packets

/-- A send command whose transmission the EMAC refuses, up to its return. -/
def refused : List Action :=
  .transmit (.send 0 ⟨100#32, 60#32⟩) :: List.replicate 7 (.transmit (.advance true)) ++
    List.replicate 4 (.transmit (.advance false))

theorem refused_not_balanced :
    ¬ ∀ mtu packets acts s, run step (init mtu packets) acts = some s → Balanced s := by
  intro h
  have hcount : 0 = 1 := (h 1514 (fun _ => ⟨0#32, 0#32⟩) refused _ rfl).memory 0
  cases hcount

end Driver

end OpenIotSdk.Netx
