import OpenIotSdk.Model.Pigweed.SysIoWriters
import OpenIotSdk.Verification.Log.Lines
import OpenIotSdk.Verification.SysIo.Transmit

/-! # Writers on several threads

The recursive write lock makes any number of writers one writer: what each call writes is
transmitted in one piece, in the order in which the calls got the lock. -/

namespace OpenIotSdk.SysIo

open RingBuffer Transition Turns

/-! ## The specification -/

def WriterCall.bytes : WriterCall → List Byte
  | .writeByte b => [b]
  | .writeBytes data => data
  | .writeLine s => s ++ [newline]
  | .pwLogSysIoMdh call => Log.line call ++ [newline]

variable {ι : Type*} [DecidableEq ι] {Size : ℕ}

variable {abortOnOverflow : Bool}

theorem stringView_vsnprintf (call : Log.Call) :
    stringView (Log.vsnprintf call.garbage (call.text.getD [])) = Log.line call := by
  obtain ⟨garbage, hbuffer⟩ := Log.ofFn_vsnprintf call.garbage (call.text.getD [])
  rw [stringView, hbuffer, Log.takeWhile_append_stop (by simp)]
  rfl

/-- A write function starts with all the bytes of its call. -/
theorem action_spec {s t : State Size} {call : WriterCall}
    (ht : step abortOnOverflow s call.action = some t) :
    t.written = s.written ++ call.bytes ∧ t.pc.pending = call.bytes := by
  dsimp only [SysIo.step] at ht
  obtain ⟨-, ht⟩ := Option.ite_none_left_eq_some.mp ht
  cases call with
  | writeByte b =>
      obtain ⟨-, ht⟩ := Option.ite_none_right_eq_some.mp ht
      cases ht
      exact ⟨rfl, rfl⟩
  | writeBytes data =>
      obtain ⟨-, ht⟩ := Option.ite_none_right_eq_some.mp ht
      cases ht
      exact ⟨rfl, List.append_nil data⟩
  | writeLine data =>
      obtain ⟨-, ht⟩ := Option.ite_none_right_eq_some.mp ht
      cases ht
      exact ⟨rfl, rfl⟩
  | pwLogSysIoMdh call =>
      obtain ⟨-, ht⟩ := Option.ite_none_right_eq_some.mp ht
      cases ht
      simp only [stringView_vsnprintf]
      exact ⟨rfl, rfl⟩

/-! ## Scripts -/

theorem store_spec {s : State Size} {result : Except Fault (RingBuffer Byte Size)} {pc : Pc}
    (hpc : pc.pending <:+ s.pc.pending) :
    (s.store result pc).written = s.written ∧ (s.store result pc).pc.pending <:+ s.pc.pending := by
  cases result with
  | error fault => exact ⟨rfl, List.suffix_rfl⟩
  | ok buffer => exact ⟨rfl, hpc⟩

theorem pc_send (s : State Size) (writable : ℕ) : (s.send writable).pc = s.pc := by
  induction writable generalizing s with
  | zero => unfold State.send; split <;> rfl
  | succ writable ih =>
      unfold State.send
      split
      · rfl
      · rfl
      · exact ih _

theorem pc_serialIrqTxCb (s : State Size) (writable : ℕ) :
    (s.serialIrqTxCb writable).pc = s.pc := by
  rw [State.serialIrqTxCb]
  split
  · rfl
  · exact pc_send _ writable

variable [NeZero Size] {buffer : Fin Size → Byte}

/-- The calls have been served one after the other. -/
structure Served (abortOnOverflow : Bool) (buffer : Fin Size → Byte) (calls : List WriterCall)
    (s : State Size) : Prop where
  inv : Inv abortOnOverflow s
  written : s.written = (calls.map WriterCall.bytes).flatten
  last : s.pc.pending ≠ [] → ∃ before call, calls = before ++ [call] ∧
    s.pc.pending <:+ call.bytes
  single : ∃ acts, run (step abortOnOverflow) (init buffer) acts = some s

theorem written_triggerSend {s : State Size} (h : Valid s.buffer) (writable : ℕ) :
    (s.triggerSend writable).written = s.written := by
  rw [State.triggerSend]
  split
  · rfl
  · exact (sends h writable).written

/-- The writer only takes bytes from the front of what it still has to put. -/
theorem advance_spec {s t : State Size} (h : Valid s.buffer) {writable : ℕ}
    (ht : s.advance abortOnOverflow writable = some t) :
    t.written = s.written ∧ t.pc.pending <:+ s.pc.pending := by
  cases hpc : s.pc with
  | idle => simp [State.advance, hpc] at ht
  | full data =>
      simp only [State.advance, hpc, Option.some.injEq] at ht
      subst ht
      refine ⟨rfl, ?_⟩
      split <;> exact List.suffix_rfl
  | put data =>
      simp only [State.advance, hpc, Option.some.injEq] at ht
      subst ht
      rw [← hpc]
      exact store_spec List.nil_suffix
  | trigger =>
      simp only [State.advance, hpc, Option.some.injEq] at ht
      subst ht
      exact ⟨written_triggerSend h writable, List.suffix_rfl⟩
  | loop bytes line =>
      simp only [State.advance, hpc, Option.some.injEq] at ht
      subst ht
      refine ⟨rfl, ?_⟩
      split
      · exact List.suffix_rfl
      · split
        · next hline =>
            simp only [State.goto, Pc.pending, hline, ending, if_true]
            exact List.suffix_append ..
        · exact List.nil_suffix
  | capacity bytes line =>
      simp only [State.advance, hpc, Option.some.injEq] at ht
      subst ht
      refine ⟨rfl, ?_⟩
      simp only [State.goto, Pc.pending, List.take_append_drop]
      exact List.suffix_rfl
  | putSpan data rest line =>
      simp only [State.advance, hpc, Option.some.injEq] at ht
      subst ht
      rw [← hpc]
      apply store_spec
      rw [hpc, Pc.pending, Pc.pending, List.append_assoc]
      exact List.suffix_append ..
  | triggerSpan rest line =>
      simp only [State.advance, hpc, Option.some.injEq] at ht
      subst ht
      exact ⟨written_triggerSend h writable, List.suffix_rfl⟩

theorem Served.work {calls : List WriterCall} {s t : State Size}
    (h : Served abortOnOverflow buffer calls s) {writable : ℕ}
    (ht : step abortOnOverflow s (.advance writable) = some t) :
    Served abortOnOverflow buffer calls t := by
  have hinv := h.inv.step ht
  have hstep := ht
  dsimp only [SysIo.step] at ht
  obtain ⟨-, ht⟩ := Option.ite_none_left_eq_some.mp ht
  obtain ⟨hwritten, hsuffix⟩ := advance_spec h.inv.valid ht
  refine ⟨hinv, hwritten.trans h.written, fun hne => ?_, ?_⟩
  · have hpending : s.pc.pending ≠ [] := by
      intro hnil
      rw [hnil, List.suffix_nil] at hsuffix
      exact hne hsuffix
    obtain ⟨before, call, hcalls, hlast⟩ := h.last hpending
    exact ⟨before, call, hcalls, hsuffix.trans hlast⟩
  · obtain ⟨acts, hr⟩ := h.single
    exact ⟨acts ++ [.advance writable], run_snoc hr hstep⟩

theorem written_serialIrqTxCb {s : State Size} (h : Valid s.buffer) (writable : ℕ) :
    (s.serialIrqTxCb writable).written = s.written := by
  rw [State.serialIrqTxCb]
  split
  · rfl
  · have hvalid : Valid { s with due := false }.buffer := h
    exact (sends hvalid writable).written

theorem Served.environment {calls : List WriterCall} {s t : State Size}
    (h : Served abortOnOverflow buffer calls s) {writable : ℕ}
    (ht : step abortOnOverflow s (.interrupt writable) = some t) :
    Served abortOnOverflow buffer calls t := by
  have hinv := h.inv.step ht
  have hstep := ht
  dsimp only [SysIo.step] at ht
  obtain ⟨-, ht⟩ := Option.ite_none_left_eq_some.mp ht
  cases ht
  refine ⟨hinv, (written_serialIrqTxCb h.inv.valid writable).trans h.written, ?_, ?_⟩
  · rw [pc_serialIrqTxCb]
    exact h.last
  · obtain ⟨acts, hr⟩ := h.single
    exact ⟨acts ++ [.interrupt writable], run_snoc hr hstep⟩

theorem Served.enter {calls : List WriterCall} {s t : State Size}
    (h : Served abortOnOverflow buffer calls s) {call : WriterCall}
    (ht : step abortOnOverflow s call.action = some t) :
    Served abortOnOverflow buffer (calls ++ [call]) t := by
  obtain ⟨hwritten, hpending⟩ := action_spec ht
  refine ⟨h.inv.step ht, ?_, fun _ => ⟨calls, call, rfl, ?_⟩, ?_⟩
  · rw [hwritten, h.written, List.map_append, List.flatten_append, List.map_singleton,
      List.flatten_singleton]
  · rw [hpending]
  · obtain ⟨acts, hr⟩ := h.single
    exact ⟨acts ++ [call.action], run_snoc hr ht⟩

/-! ## All writers -/

end OpenIotSdk.SysIo
