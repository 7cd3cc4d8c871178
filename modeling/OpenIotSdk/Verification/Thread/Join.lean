import OpenIotSdk.Model.Pigweed.Thread
import OpenIotSdk.Verification.ThreadNotification.Acquire

/-! # The custom join

`join_notification_` is released once, by the exit of the new thread. The `acquire()` of
the creator waits forever, so it returns only after that release. -/

namespace OpenIotSdk.Thread

open Cmsis ThreadNotification

/-- Where the creator can be inside `acquire()`, given whether the thread has exited. -/
def Waits (exited : Bool) : Pc → Prop
  | .check ticks | .test ticks | .subscribe ticks | .clear ticks | .choose ticks =>
      ticks = osWaitForever
  | .waitForever => True
  | .fastUnblock | .fastConsume | .finish | .idle => exited = true
  | .decide status => exited = true ∧ isOsFlagsError status = false ∧
      isBitSet status waitFlag = true
  | .unblock status | .consume status => exited = true ∧ isBitSet status waitFlag = true
  | _ => False

/-- The notification as the exit of the new thread leaves it. -/
structure Note (exited : Bool) (n : ThreadNotification.State) : Prop where
  inv : Inv n
  quiet : n.releasing = 0
  notified : n.notified = true → exited = true

theorem Note.exit {exited : Bool} {n : ThreadNotification.State} (h : Note exited n) :
    Note true n :=
  ⟨h.inv, h.quiet, fun _ => rfl⟩

theorem note_init (exited : Bool) : Note exited ThreadNotification.init :=
  ⟨inv_init, rfl, nofun⟩

theorem Waits.endsNotified {exited : Bool} {n : ThreadNotification.State}
    (hw : Waits exited n.pc) : EndsNotified n .advance := by
  dsimp only [EndsNotified]
  split
  · next hpc => rw [hpc] at hw; exact hw.2.1
  · next hpc =>
      rw [hpc] at hw
      intro hbit
      exact absurd hbit (by simp [hw.2])
  · trivial

/-- A statement of the subscriber sets no notification and starts no release. -/
theorem advance_quiet {n n' : ThreadNotification.State} (h : n.advance = some n') :
    n'.releasing = n.releasing ∧ (n'.notified = true → n.notified = true) := by
  cases hpc : n.pc with
  | idle => simp [State.advance, hpc] at h
  | tryCheck | check =>
      simp only [State.advance, hpc, Option.some.injEq] at h
      subst h
      split <;> exact ⟨rfl, id⟩
  | clear =>
      simp only [State.advance, hpc, State.clearWaitFlag, Option.some.injEq] at h
      subst h
      split <;> exact ⟨rfl, id⟩
  | waitForever | waitTicks =>
      simp only [State.advance, hpc] at h
      obtain ⟨-, h⟩ := Option.ite_none_right_eq_some.mp h
      cases h
      exact ⟨rfl, id⟩
  | tryConsume | fastConsume | consume =>
      simp only [State.advance, hpc, Option.some.injEq] at h
      subst h
      exact ⟨rfl, by simp [State.goto, State.consume]⟩
  | _ =>
      simp only [State.advance, hpc, Option.some.injEq] at h
      subst h
      exact ⟨rfl, id⟩

theorem Waits.advance {exited : Bool} {n n' : ThreadNotification.State}
    (hw : Waits exited n.pc) (hn : Note exited n) (h : n.advance = some n') :
    Waits exited n'.pc := by
  have hb := hn.inv.blocked
  have ha := hn.inv.assured
  cases hpc : n.pc with
  | check ticks =>
      rw [hpc] at hb hw
      simp only [State.advance, hpc, hb, Pc.subscribed, Bool.false_eq_true, if_false,
        Option.some.injEq] at h
      subst h
      exact hw
  | test ticks =>
      rw [hpc] at hw
      simp only [State.advance, hpc, Option.some.injEq] at h
      subst h
      split
      · next hnotified => exact hn.notified hnotified
      · exact hw
  | subscribe ticks | unblock status | fastUnblock | fastConsume | finish =>
      rw [hpc] at hw
      simp only [State.advance, hpc, Option.some.injEq] at h
      subst h
      exact hw
  | clear ticks =>
      rw [hpc] at hw
      simp only [State.advance, hpc, State.clearWaitFlag, hn.inv.flags, Bool.false_eq_true,
        if_false, Option.some.injEq] at h
      subst h
      exact hw
  | choose ticks =>
      rw [hpc] at hw
      obtain rfl : ticks = osWaitForever := hw
      simp only [State.advance, hpc, Option.some.injEq] at h
      subst h
      trivial
  | waitForever =>
      rw [hpc] at ha
      simp only [State.advance, hpc] at h
      obtain ⟨hbit, h⟩ := Option.ite_none_right_eq_some.mp h
      cases h
      exact ⟨hn.notified (ha hbit), hn.inv.flags, hbit⟩
  | decide status =>
      rw [hpc] at hw
      obtain ⟨hexited, herror, hbit⟩ := hw
      simp only [State.advance, hpc, herror, Bool.false_eq_true, if_false,
        Option.some.injEq] at h
      subst h
      exact ⟨hexited, hbit⟩
  | consume status =>
      rw [hpc] at hw
      simp only [State.advance, hpc, Option.some.injEq] at h
      subst h
      exact hw.1
  | idle => simp [State.advance, hpc] at h
  | tryCheck | tryTest | tryConsume | poll | loop | waitTicks =>
      rw [hpc] at hw
      exact hw.elim

/-- A wait that gives up without the flag is started again. -/
theorem Waits.timeout {exited : Bool} {n n' : ThreadNotification.State}
    (hw : Waits exited n.pc) (h : n.timeout = some n') : n' = n := by
  dsimp only [State.timeout] at h
  split at h
  · exact (Option.some.inj h).symm
  · next hpc =>
      rw [hpc] at hw
      exact hw.elim
  · cases h

theorem Waits.exit {exited : Bool} {pc : Pc} (h : Waits exited pc) : Waits true pc := by
  cases pc <;> simp_all [Waits]

/-! ## Steps of the notification -/

theorem Note.acquire_step {exited : Bool} {n n' : ThreadNotification.State}
    {a : ThreadNotification.Action} (hn : Note exited n) (hw : Waits exited n.pc)
    (ha : a = .advance ∨ a = .timeout) (h : ThreadNotification.step n a = some n') :
    Note exited n' ∧ Waits exited n'.pc := by
  have hinv : Inv n' := by
    refine hn.inv.step ?_ h
    rcases ha with rfl | rfl
    · exact hw.endsNotified
    · trivial
  rw [ThreadNotification.step.eq_def, if_neg (by simp [hn.inv.running])] at h
  rcases ha with rfl | rfl
  · simp only [hn.quiet, if_true] at h
    obtain ⟨hr, hnot⟩ := advance_quiet h
    exact ⟨⟨hinv, hr.trans hn.quiet, fun hx => hn.notified (hnot hx)⟩, hw.advance hn h⟩
  · simp only [hn.quiet, if_true] at h
    obtain rfl := hw.timeout h
    exact ⟨hn, hw⟩

theorem Note.acquire {exited : Bool} {n n' : ThreadNotification.State} (hn : Note exited n)
    (h : ThreadNotification.step n .acquire = some n') :
    Note exited n' ∧ Waits exited n'.pc := by
  have hok : EndsNotified n .acquire := trivial
  have hinv : Inv n' := hn.inv.step hok h
  rw [ThreadNotification.step.eq_def, if_neg (by simp [hn.inv.running])] at h
  simp only [State.call] at h
  obtain ⟨-, h⟩ := Option.ite_none_right_eq_some.mp h
  cases h
  exact ⟨⟨hinv, hn.quiet, hn.notified⟩, rfl⟩

/-- What `signal` leaves as it was, when its check passes. -/
theorem signal_frame {n : ThreadNotification.State} (h : n.signal.halted = false) :
    n.signal.pc = n.pc ∧ n.signal.releasing = n.releasing - 1 := by
  dsimp only [State.signal] at h ⊢
  split
  · rename_i hb
    rw [if_pos hb] at h
    split
    · next herror =>
        rw [if_pos herror] at h
        cases h
    · exact ⟨rfl, rfl⟩
  · exact ⟨rfl, rfl⟩

theorem Note.release {exited : Bool} {n released n' : ThreadNotification.State}
    (hn : Note exited n)
    (hr : ThreadNotification.step n (.release .thread) = some released)
    (h : ThreadNotification.step released .signal = some n') :
    Note true n' ∧ n'.pc = n.pc := by
  have hok : EndsNotified n (.release .thread) := trivial
  have hok' : EndsNotified released .signal := trivial
  have hreleased : Inv released := hn.inv.step hok hr
  have hinv : Inv n' := hreleased.step hok' h
  rw [ThreadNotification.step.eq_def, if_neg (by simp [hn.inv.running])] at hr
  obtain ⟨-, hr⟩ := Option.ite_none_right_eq_some.mp hr
  cases hr
  rw [ThreadNotification.step.eq_def, if_neg (by simp [hreleased.running])] at h
  simp only [State.release, Nat.succ_pos, if_true, Option.some.injEq] at h
  subst h
  obtain ⟨hpc, hreleasing⟩ := signal_frame hinv.running
  exact ⟨⟨hinv, hreleasing.trans hn.quiet, fun _ => rfl⟩, hpc⟩

end OpenIotSdk.Thread
