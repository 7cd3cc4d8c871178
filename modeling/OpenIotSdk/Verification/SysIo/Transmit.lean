import OpenIotSdk.Library.Transition
import OpenIotSdk.Model.Pigweed.SysIo
import OpenIotSdk.Verification.SysIo.RingBuffer

/-! # The transmit pipeline

No byte is lost, repeated or overtaken between the write functions and the peripheral,
and whenever bytes are left in the ring buffer an interrupt is still to come for them. -/

namespace OpenIotSdk.SysIo

open RingBuffer Transition

variable {Size : ℕ}

def ending (line : Bool) : List Byte := if line then [newline] else []

/-- What the calls under way have not put into the ring buffer yet. -/
def Pc.pending : Pc → List Byte
  | .idle | .trigger => []
  | .full data | .put data => [data]
  | .loop bytes line | .capacity bytes line | .triggerSpan bytes line => bytes ++ ending line
  | .putSpan data rest line => data ++ rest ++ ending line

/-- Between a put into the ring buffer and the end of its `trigger_send()`. -/
def Pc.triggers : Pc → Bool
  | .trigger | .triggerSpan _ _ => true
  | _ => false

/-- The bytes that the writer found room for. -/
def Pc.reserved : Pc → ℕ
  | .put _ => 1
  | .putSpan data _ _ => data.length
  | _ => 0

/-- The pipeline in one state. A build that aborts on overflow may have done so. -/
structure Pipeline [NeZero Size] (abortOnOverflow : Bool) (s : State Size) : Prop where
  inOrder : s.sent ++ s.buffer.contents ++ s.pc.pending = s.written
  sentPrefix : s.sent <+: s.written
  due : s.pc.triggers = false → s.buffer.contents ≠ [] → s.sending = true ∧ s.due = true
  intact : s.fault = none ∨ abortOnOverflow = true ∧ s.fault = some .abort

structure Inv [NeZero Size] (abortOnOverflow : Bool) (s : State Size) : Prop where
  valid : Valid s.buffer
  inOrder : s.sent ++ s.buffer.contents ++ s.pc.pending = s.written
  sending : s.pc.triggers = false → s.buffer.contents ≠ [] → s.sending = true
  due : s.sending = true → s.due = true
  room : s.buffer.size + s.pc.reserved ≤ Size
  intact : s.fault = none ∨ abortOnOverflow = true ∧ s.fault = some .abort

variable [NeZero Size]

theorem inv_init (abortOnOverflow : Bool) (buffer : Fin Size → Byte) :
    Inv abortOnOverflow (init buffer) :=
  ⟨valid_empty buffer, rfl, fun _ hx => absurd (contents_empty buffer) hx, nofun, Nat.zero_le _,
    .inl rfl⟩

theorem Inv.pipeline {abortOnOverflow : Bool} {s : State Size} (h : Inv abortOnOverflow s) :
    Pipeline abortOnOverflow s where
  inOrder := h.inOrder
  sentPrefix := ⟨s.buffer.contents ++ s.pc.pending, by rw [← List.append_assoc, h.inOrder]⟩
  due := fun hpc hx => ⟨h.sending hpc hx, h.due (h.sending hpc hx)⟩
  intact := h.intact

/-! ## Sending -/

/-- What the send loop does: some of the oldest bytes move to the peripheral, at least one
if there is one. -/
structure Sends (s t : State Size) : Prop where
  valid : Valid t.buffer
  moved : t.sent ++ t.buffer.contents = s.sent ++ s.buffer.contents
  shrinks : t.buffer.size ≤ s.buffer.size
  started : s.buffer.contents ≠ [] → t.sending = true ∧ t.due = true
  idle : s.buffer.contents = [] → t = s
  pc : t.pc = s.pc
  fault : t.fault = s.fault
  written : t.written = s.written

theorem Sends.refl {s : State Size} (h : Valid s.buffer) (hempty : s.buffer.contents = []) :
    Sends s s :=
  ⟨h, rfl, Nat.le_refl _, fun hx => absurd hempty hx, fun _ => rfl, rfl, rfl, rfl⟩

theorem Sends.putData {s : State Size} {c : Byte} {buffer : RingBuffer Byte Size}
    (h : Valid buffer) (hc : s.buffer.contents = c :: buffer.contents) :
    Sends s (s.putData c buffer) := by
  refine ⟨h, ?_, ?_, fun _ => ⟨rfl, rfl⟩, ?_, rfl, rfl, rfl⟩
  · rw [hc]
    exact List.append_assoc ..
  · have hlen := congrArg List.length hc
    simp only [length_contents, List.length_cons] at hlen
    change buffer.size ≤ s.buffer.size
    omega
  · rw [hc]
    exact fun hx => absurd hx (List.cons_ne_nil _ _)

theorem Sends.goto_self {s t : State Size} (h : Sends s t) : t.goto s.pc = t := by
  rw [← h.pc]
  rfl

theorem Sends.next {s t u : State Size} (h : Sends s t) (hs : s.buffer.contents ≠ [])
    (h' : Sends t u) : Sends s u := by
  refine ⟨h'.valid, h'.moved.trans h.moved, h'.shrinks.trans h.shrinks, ?_, fun hx => absurd hx hs,
    h'.pc.trans h.pc, h'.fault.trans h.fault, h'.written.trans h.written⟩
  intro _
  by_cases ht : t.buffer.contents = []
  · rw [h'.idle ht]
    exact h.started hs
  · exact h'.started ht

theorem sends {s : State Size} (h : Valid s.buffer) (writable : ℕ) :
    Sends s (s.send writable) := by
  induction writable generalizing s with
  | zero =>
      unfold State.send
      rcases h.get with ⟨hget, hempty⟩ | ⟨c, buffer, hget, hvalid, hc⟩
      · rw [hget]
        exact .refl h hempty
      · rw [hget]
        exact .putData hvalid hc
  | succ writable ih =>
      unfold State.send
      rcases h.get with ⟨hget, hempty⟩ | ⟨c, buffer, hget, hvalid, hc⟩
      · rw [hget]
        exact .refl h hempty
      · rw [hget]
        have hput : Sends s (s.putData c buffer) := .putData hvalid hc
        exact hput.next (by rw [hc]; exact List.cons_ne_nil _ _) (ih hput.valid)

/-- Sending keeps all of the invariant that is not about `tx_sending_`. -/
theorem Sends.inv {abortOnOverflow : Bool} {s t : State Size} (ht : Sends s t) (next : Pc)
    (hinOrder : s.sent ++ s.buffer.contents ++ next.pending = s.written)
    (hroom : s.buffer.size + next.reserved ≤ Size)
    (hintact : s.fault = none ∨ abortOnOverflow = true ∧ s.fault = some .abort)
    (hsending : t.buffer.contents ≠ [] → t.sending = true)
    (hdue : t.sending = true → t.due = true) : Inv abortOnOverflow (t.goto next) := by
  refine ⟨ht.valid, ?_, fun _ => hsending, hdue, ?_, ?_⟩
  · change t.sent ++ t.buffer.contents ++ next.pending = t.written
    rw [ht.moved, ht.written]
    exact hinOrder
  · exact (Nat.add_le_add_right ht.shrinks _).trans hroom
  · change t.fault = none ∨ abortOnOverflow = true ∧ t.fault = some .abort
    rw [ht.fault]
    exact hintact

theorem Inv.interrupt {abortOnOverflow : Bool} {s : State Size} (h : Inv abortOnOverflow s)
    (writable : ℕ) : Inv abortOnOverflow (s.serialIrqTxCb writable) := by
  dsimp only [State.serialIrqTxCb]
  split
  · next hempty =>
      rw [h.valid.isEmpty_iff, ← length_contents, List.length_eq_zero_iff] at hempty
      exact ⟨h.valid, h.inOrder, fun _ hx => absurd hempty hx, nofun, h.room, h.intact⟩
  · next hempty =>
      rw [h.valid.isEmpty_iff, ← length_contents, List.length_eq_zero_iff] at hempty
      have hvalid : Valid { s with due := false }.buffer := h.valid
      have ht := sends hvalid writable
      have hstarted := ht.started hempty
      have hinv := ht.inv s.pc h.inOrder h.room h.intact (fun _ => hstarted.1)
        fun _ => hstarted.2
      rwa [ht.goto_self] at hinv

theorem Inv.triggerSend {abortOnOverflow : Bool} {s : State Size} (h : Inv abortOnOverflow s)
    (writable : ℕ) {next : Pc} (hpending : next.pending = s.pc.pending)
    (hreserved : next.reserved = 0) :
    Inv abortOnOverflow ((s.triggerSend writable).goto next) := by
  have hinOrder : s.sent ++ s.buffer.contents ++ next.pending = s.written := by
    rw [hpending]
    exact h.inOrder
  have hroom : s.buffer.size + next.reserved ≤ Size := by
    rw [hreserved]
    exact h.valid.size_le
  dsimp only [State.triggerSend]
  split
  · next hsending =>
      exact ⟨h.valid, hinOrder, fun _ _ => hsending, h.due, hroom, h.intact⟩
  · have ht := sends h.valid writable
    apply ht.inv next hinOrder hroom h.intact
    · intro hx
      refine (ht.started ?_).1
      intro hempty
      rw [ht.idle hempty] at hx
      exact hx hempty
    · intro hx
      by_cases hempty : s.buffer.contents = []
      · rw [ht.idle hempty] at hx ⊢
        exact h.due hx
      · exact (ht.started hempty).2

/-! ## The writer -/

theorem Inv.goto {abortOnOverflow : Bool} {s : State Size} (h : Inv abortOnOverflow s)
    {next : Pc} (hs : s.pc.triggers = false) (hpending : next.pending = s.pc.pending)
    (hroom : s.buffer.size + next.reserved ≤ Size) : Inv abortOnOverflow (s.goto next) := by
  refine ⟨h.valid, ?_, fun _ => h.sending hs, h.due, hroom, h.intact⟩
  change s.sent ++ s.buffer.contents ++ next.pending = s.written
  rw [hpending]
  exact h.inOrder

theorem Inv.store {abortOnOverflow : Bool} {s : State Size} (h : Inv abortOnOverflow s)
    {buffer : RingBuffer Byte Size} {data : List Byte} {next : Pc} (hvalid : Valid buffer)
    (hcontents : buffer.contents = s.buffer.contents ++ data)
    (hpending : s.pc.pending = data ++ next.pending) (hnext : next.triggers = true)
    (hreserved : next.reserved = 0) : Inv abortOnOverflow (s.store (.ok buffer) next) := by
  refine ⟨hvalid, ?_, fun hx => ?_, h.due, ?_, h.intact⟩
  · change s.sent ++ buffer.contents ++ next.pending = s.written
    rw [hcontents, ← h.inOrder, hpending]
    simp only [List.append_assoc]
  · exact absurd hx (by simp [State.store, hnext])
  · change buffer.size + next.reserved ≤ Size
    rw [hreserved]
    exact hvalid.size_le

theorem Inv.advance {abortOnOverflow : Bool} {s s' : State Size} (h : Inv abortOnOverflow s)
    {writable : ℕ} (hs : s.advance abortOnOverflow writable = some s') :
    Inv abortOnOverflow s' := by
  have hroom := h.room
  cases hpc : s.pc with
  | idle => simp [State.advance, hpc] at hs
  | full data =>
      simp only [State.advance, hpc, Option.some.injEq] at hs
      subst hs
      split
      · exact h.goto (by rw [hpc]; rfl) (by rw [hpc]) h.valid.size_le
      · next hfull =>
          rw [h.valid.full_iff] at hfull
          have hlt : s.buffer.size < Size := lt_of_le_of_ne h.valid.size_le hfull
          exact h.goto (by rw [hpc]; rfl) (by rw [hpc]; rfl) hlt
  | put data =>
      rw [hpc] at hroom
      simp only [State.advance, hpc, Option.some.injEq] at hs
      subst hs
      obtain ⟨buffer, hput, hvalid, hcontents⟩ := h.valid.put hroom abortOnOverflow data
      rw [hput]
      exact h.store hvalid hcontents (by rw [hpc]; rfl) rfl rfl
  | trigger =>
      simp only [State.advance, hpc, Option.some.injEq] at hs
      subst hs
      exact h.triggerSend writable (by rw [hpc]; rfl) rfl
  | loop bytes line =>
      simp only [State.advance, hpc, Option.some.injEq] at hs
      subst hs
      split
      · exact h.goto (by rw [hpc]; rfl) (by rw [hpc]; rfl) h.valid.size_le
      · next hbytes =>
          obtain rfl : bytes = [] := not_not.mp hbytes
          split
          · next hline => exact h.goto (by rw [hpc]; rfl) (by rw [hpc, hline]; rfl) h.valid.size_le
          · next hline =>
              obtain rfl : line = false := by simpa using hline
              exact h.goto (by rw [hpc]; rfl) (by rw [hpc]; rfl) h.valid.size_le
  | capacity bytes line =>
      simp only [State.advance, hpc, Option.some.injEq] at hs
      subst hs
      apply h.goto (by rw [hpc]; rfl)
      · simp only [hpc, Pc.pending, List.take_append_drop]
      · have := h.valid.size_le
        simp only [Pc.reserved, List.length_take, RingBuffer.capacity]
        omega
  | putSpan data rest line =>
      rw [hpc] at hroom
      simp only [State.advance, hpc, Option.some.injEq] at hs
      subst hs
      rcases h.valid.putSpan hroom abortOnOverflow with ⟨habort, hput⟩ | ⟨buffer, hput, hvalid, hc⟩
      · rw [hput]
        exact ⟨h.valid, h.inOrder, h.sending, h.due, h.room, .inr ⟨habort, rfl⟩⟩
      · rw [hput]
        exact h.store hvalid hc (by rw [hpc]; exact List.append_assoc ..) rfl rfl
  | triggerSpan rest line =>
      simp only [State.advance, hpc, Option.some.injEq] at hs
      subst hs
      exact h.triggerSend writable (by rw [hpc]; rfl) rfl

theorem Inv.call {abortOnOverflow : Bool} {s s' : State Size} (h : Inv abortOnOverflow s)
    {data : List Byte} {next : Pc} (hpending : next.pending = data)
    (hreserved : next.reserved = 0) (hs : s.call data next = some s') :
    Inv abortOnOverflow s' := by
  dsimp only [State.call] at hs
  obtain ⟨hpc, hs⟩ := Option.ite_none_right_eq_some.mp hs
  cases hs
  refine ⟨h.valid, ?_, fun _ => h.sending (by rw [hpc]; rfl), h.due, ?_, h.intact⟩
  · change s.sent ++ s.buffer.contents ++ next.pending = s.written ++ data
    have hinOrder := h.inOrder
    rw [hpc] at hinOrder
    rw [hpending, ← hinOrder, Pc.pending, List.append_nil]
  · change s.buffer.size + next.reserved ≤ Size
    rw [hreserved]
    exact h.valid.size_le

theorem Inv.step {abortOnOverflow : Bool} {s s' : State Size} {a : Action}
    (h : Inv abortOnOverflow s) (hs : step abortOnOverflow s a = some s') :
    Inv abortOnOverflow s' := by
  dsimp only [SysIo.step] at hs
  obtain ⟨-, hs⟩ := Option.ite_none_left_eq_some.mp hs
  cases a with
  | writeByte data => exact h.call rfl rfl hs
  | writeBytes data =>
      have hpending : (Pc.loop data false).pending = data := List.append_nil data
      exact h.call hpending rfl hs
  | writeLine data => exact h.call rfl rfl hs
  | advance writable => exact h.advance hs
  | interrupt writable => cases hs; exact h.interrupt writable

/-- Once the writer is idle and the ring buffer is empty, everything written was sent. -/
theorem sent_eq_written {abortOnOverflow : Bool} {buffer : Fin Size → Byte}
    {acts : List Action} {s : State Size}
    (hr : run (step abortOnOverflow) (init buffer) acts = some s) (hpc : s.pc = .idle)
    (hempty : s.buffer.contents = []) : s.sent = s.written := by
  have hall : Always (step abortOnOverflow) (Inv abortOnOverflow) (init buffer) acts :=
    .of_inductive (Inv abortOnOverflow) (fun _ _ _ h hs => h.step hs) (fun _ h => h)
      (inv_init abortOnOverflow buffer) acts
  have hinOrder := (hall.reached hr).inOrder
  rw [hpc, hempty] at hinOrder
  simpa [Pc.pending] using hinOrder

/-- Whatever is written and whenever the interrupts come, in every state of a run. -/
theorem pipeline_always (abortOnOverflow : Bool) (buffer : Fin Size → Byte)
    (acts : List Action) :
    Always (step abortOnOverflow) (Pipeline abortOnOverflow) (init buffer) acts :=
  .of_inductive (Inv abortOnOverflow) (fun _ _ _ h hs => h.step hs)
    (fun _ h => h.pipeline) (inv_init abortOnOverflow buffer) acts

/-- A line that is longer than the buffer, with one interrupt in its middle. -/
theorem pipeline_always_line :
    Always (step false) (Pipeline false) (init fun _ : Fin 2 => 0#8)
      [.writeLine [1#8, 2#8, 3#8], .advance 0, .advance 0, .advance 0, .interrupt 0,
        .advance 0] :=
  pipeline_always false (fun _ => 0#8) _

end OpenIotSdk.SysIo
