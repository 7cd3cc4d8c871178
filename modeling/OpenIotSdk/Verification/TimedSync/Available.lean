import OpenIotSdk.Model.Pigweed.TimedSync
import OpenIotSdk.Verification.CountingSemaphore.TimedAcquire

/-! # Timed acquisition of what is available

A timeout that has run out ends the loop of the mutex and of the notification before its first round.
The semaphore rounds such a timeout up, but not such a deadline. -/

namespace OpenIotSdk.TimedSync

open Transition CmsisRtosUtil Countdown CountingSemaphore

variable {Tid : Type*} [DecidableEq Tid]

inductive Object where
  | timedMutex
  | timedThreadNotification
  | binarySemaphore
  deriving DecidableEq

namespace Object

variable (e : Setting Tid) (fuel : ℕ)

def tryFor : Object → ℤ → World Tid → Option (Bool × World Tid)
  | .timedMutex => TimedMutex.tryLockFor e fuel
  | .timedThreadNotification => TimedThreadNotification.tryAcquireFor e fuel
  | .binarySemaphore => BinarySemaphore.tryAcquireFor e fuel

def tryUntil : Object → ℤ → World Tid → Option (Bool × World Tid)
  | .timedMutex => TimedMutex.tryLockUntil e fuel
  | .timedThreadNotification => TimedThreadNotification.tryAcquireUntil e fuel
  | .binarySemaphore => BinarySemaphore.tryAcquireUntil e fuel

end Object

/-- Nobody owns the mutex or is in one of its functions. -/
structure Free (self : Tid) (s : InternalMutex.State Tid) : Prop where
  owner : s.owner = none
  inner : s.inner = none
  idle : s.pc self = .idle
  runs : s.halted = false
  flags : Cmsis.isOsFlagsError (s.flags self) = false -- a thread has 31 flags

/-- The notification has been released, and nobody is in one of its functions. -/
structure Notified (s : ThreadNotification.State) : Prop where
  notified : s.notified = true
  blocked : s.blocked = false
  idle : s.pc = .idle
  releasing : s.releasing = 0
  runs : s.halted = false

/-- The object can be taken, and nobody else wants it. -/
def Available (e : Setting Tid) (w : World Tid) : Object → Prop
  | .timedMutex => Free e.self w.mutex
  | .timedThreadNotification => Notified w.notification
  | .binarySemaphore => e.semaphore.available w.clock.now

def Taken (e : Setting Tid) (w t : World Tid) : Object → Prop
  | .timedMutex => t.mutex.owner = some e.self ∧ t.mutex.pc e.self = .holding
  | .timedThreadNotification => t.notification.notified = false ∧
      t.notification.count.successes = w.notification.count.successes + 1
  | .binarySemaphore => t.clock.taken = w.clock.taken + 1

/-- A call reports success and has taken the object. -/
def Takes (e : Setting Tid) (w : World Tid) (o : Object) (r : Option (Bool × World Tid)) : Prop :=
  ∃ t, r = some (true, t) ∧ Taken e w t o

variable {e : Setting Tid} {w : World Tid} {fuel : ℕ}

/-! ## One attempt -/

theorem tryLock_free (h : Free e.self w.mutex) :
    ∃ t, w.tryLock e.self = some (true, t) ∧ Taken e w t .timedMutex := by
  obtain ⟨howner, hinner, hidle, hruns, hflags⟩ := h
  simp [World.tryLock, runUntil, InternalMutex.step, InternalMutex.State.advance,
    InternalMutex.State.goto, InternalMutex.State.acquire, InternalMutex.State.clearWaitFlag,
    InternalMutex.State.setFlags, InternalMutex.State.release, howner, hinner, hidle, hruns, hflags,
    Taken]

omit [DecidableEq Tid] in
theorem tryAcquire_notified (h : Notified w.notification) :
    ∃ t, w.tryAcquire = some (true, t) ∧ Taken e w t .timedThreadNotification := by
  obtain ⟨hnotified, hblocked, hidle, hreleasing, hruns⟩ := h
  simp [World.tryAcquire, runUntil, ThreadNotification.step, ThreadNotification.State.advance,
    ThreadNotification.State.call, ThreadNotification.State.goto, ThreadNotification.State.consume,
    hnotified, hblocked, hidle, hreleasing, hruns, Taken]

/-! ## The loop of attempts -/

section

variable {once : World Tid → Option (Bool × World Tid)} {ticks : ℤ}

omit [DecidableEq Tid] in
theorem repeatWithDelay_nonpos (h : ticks ≤ 0) :
    repeatWithDelay e.osDelay (attempt once) (fuel + 1) ticks 1 false w = some (false, w) :=
  run_of_nonpos h

omit [DecidableEq Tid] in
theorem repeatWithDelay_first {t : World Tid} (h : 0 < ticks) (honce : once w = some (true, t)) :
    repeatWithDelay e.osDelay (attempt once) (fuel + 1) ticks 1 false w = some (true, t) := by
  apply run_stop h
  simp [attempt, honce]

omit [DecidableEq Tid] in
/-- With a first attempt that succeeds, the loop does if it is entered. -/
theorem takes_repeatWithDelay_iff {o : Object} (honce : ∃ t, once w = some (true, t) ∧ Taken e w t o) :
    Takes e w o (repeatWithDelay e.osDelay (attempt once) (fuel + 1) ticks 1 false w) ↔
      0 < ticks := by
  obtain ⟨t, honce, htaken⟩ := honce
  rcases lt_or_ge 0 ticks with hpos | hnonpos
  · exact iff_of_true ⟨t, repeatWithDelay_first hpos honce, htaken⟩ hpos
  · refine iff_of_false ?_ hnonpos.not_gt
    rintro ⟨u, hu, -⟩
    rw [repeatWithDelay_nonpos hnonpos] at hu
    cases hu

end

/-! ## The semaphore -/

namespace BinarySemaphore

omit [DecidableEq Tid]

variable {ticks : ℤ}

theorem native_nonpos (h : ticks ≤ 0) : native e (fuel + 1) ticks w = some (false, w) := by
  rw [native, OsSemaphore.tryAcquireFor_nonpos h]
  rfl

theorem native_available (h : 0 < ticks) (havailable : e.semaphore.available w.clock.now) :
    Takes e w .binarySemaphore (native e (fuel + 1) ticks w) := by
  have hreturn : e.semaphore.tryAcquireFor (fuel + 1) ticks w.clock =
      some (true, ⟨w.clock.now, w.clock.taken + 1⟩) := by
    apply (OsSemaphore.tryAcquireFor_spec h).mpr
    simp [OsSemaphore.osSemaphoreAcquire, e.semaphore.ready _ _ havailable]
  refine ⟨{ w with clock := ⟨w.clock.now, w.clock.taken + 1⟩ }, ?_, rfl⟩
  rw [native, hreturn]
  rfl

theorem takes_native_iff (havailable : e.semaphore.available w.clock.now) :
    Takes e w .binarySemaphore (native e (fuel + 1) ticks w) ↔ 0 < ticks := by
  rcases lt_or_ge 0 ticks with hpos | hnonpos
  · exact iff_of_true (native_available hpos havailable) hpos
  · refine iff_of_false ?_ hnonpos.not_gt
    rintro ⟨t, ht, -⟩
    rw [native_nonpos hnonpos] at ht
    cases ht

/-- A timeout of one tick takes a token or time. -/
theorem native_one_ne : native e (fuel + 1) 1 w ≠ some (false, w) := by
  intro heq
  obtain ⟨⟨acquired, c⟩, hreturn, hc⟩ := Option.map_eq_some_iff.mp heq
  obtain ⟨rfl, hw⟩ := Prod.mk.inj hc
  have hclock : c = w.clock := congrArg World.clock hw
  obtain ⟨hacquire, -⟩ := OsSemaphore.osSemaphoreAcquire_taken
    ((OsSemaphore.tryAcquireFor_spec (by decide)).mp hreturn)
  have htimeout : (e.semaphore.acquire w.clock.now (ticks32 1)).1 = .errorTimeout := by
    rw [hacquire]
    rfl
  have hafter := (e.semaphore.timedOut w.clock.now (ticks32 1) (by decide) (by decide) htimeout).1
  rw [hacquire, hclock] at hafter
  exact absurd hafter (Nat.not_succ_le_self w.clock.now)

end BinarySemaphore

/-! ## Deadlines -/

/-- A deadline counts from now, but for the semaphore only one that lies ahead. -/
theorem tryUntil_eq_iff (o : Object) (deadline : ℤ) :
    o.tryUntil e (fuel + 1) deadline w = o.tryFor e (fuel + 1) (w.left deadline) w ↔
      0 < w.left deadline ∨ o ≠ .binarySemaphore := by
  cases o with
  | timedMutex => exact iff_of_true rfl (Or.inr (by decide))
  | timedThreadNotification => exact iff_of_true rfl (Or.inr (by decide))
  | binarySemaphore =>
      change BinarySemaphore.native e (fuel + 1) (w.left deadline) w =
        BinarySemaphore.native e (fuel + 1) (max 1 (w.left deadline)) w ↔ _
      rcases lt_or_ge 0 (w.left deadline) with hpos | hnonpos
      · refine iff_of_true ?_ (Or.inl hpos)
        have hone : 1 ≤ w.left deadline := Int.add_one_le_iff.mpr hpos
        rw [max_eq_right hone]
      · refine iff_of_false ?_ (by simp [hnonpos.not_gt])
        rw [BinarySemaphore.native_nonpos hnonpos, max_eq_left (hnonpos.trans (by decide))]
        exact BinarySemaphore.native_one_ne.symm

/-- A timeout that has run out is enough for the semaphore only. -/
theorem takes_tryFor_iff {o : Object} (h : Available e w o) (timeout : ℤ) :
    Takes e w o (o.tryFor e (fuel + 1) timeout w) ↔ 0 < timeout ∨ o = .binarySemaphore := by
  cases o with
  | timedMutex =>
      rw [or_iff_left (by decide)]
      exact takes_repeatWithDelay_iff (tryLock_free h)
  | timedThreadNotification =>
      rw [or_iff_left (by decide)]
      exact takes_repeatWithDelay_iff (tryAcquire_notified h)
  | binarySemaphore =>
      refine iff_of_true ?_ (Or.inr rfl)
      exact BinarySemaphore.native_available (lt_max_of_lt_left Int.one_pos) h

theorem takes_tryUntil_iff {o : Object} (h : Available e w o) (deadline : ℤ) :
    Takes e w o (o.tryUntil e (fuel + 1) deadline w) ↔ 0 < w.left deadline := by
  cases o with
  | timedMutex => exact takes_repeatWithDelay_iff (tryLock_free h)
  | timedThreadNotification => exact takes_repeatWithDelay_iff (tryAcquire_notified h)
  | binarySemaphore => exact BinarySemaphore.takes_native_iff h

/-- When a timed call takes what is available, and when a deadline is treated as the timeout that is
left until then. -/
theorem timed_iff (e : Setting Tid) (fuel : ℕ) (o : Object) (timeout deadline : ℤ) {w : World Tid}
    (h : Available e w o) (t : World Tid) :
    (Takes e w o (o.tryFor e (fuel + 1) timeout w) ↔ 0 < timeout ∨ o = .binarySemaphore) ∧
    (Takes e w o (o.tryUntil e (fuel + 1) deadline w) ↔ 0 < w.left deadline) ∧
    (o.tryUntil e (fuel + 1) deadline t = o.tryFor e (fuel + 1) (t.left deadline) t ↔
      0 < t.left deadline ∨ o ≠ .binarySemaphore) :=
  ⟨takes_tryFor_iff h timeout, takes_tryUntil_iff h deadline, tryUntil_eq_iff o deadline⟩

def alone : Setting Unit := ⟨(), .releasedAt 0, fun _ w => w⟩

def fresh : World Unit := ⟨InternalMutex.init, ThreadNotification.init, ⟨0, 0⟩⟩

theorem fresh_available : Available alone fresh .timedMutex := ⟨rfl, rfl, rfl, rfl, by decide⟩

theorem timed_iff_fresh :
    (Takes alone fresh .timedMutex (Object.timedMutex.tryFor alone 1 0 fresh) ↔
      (0 : ℤ) < 0 ∨ Object.timedMutex = .binarySemaphore) ∧
    (Takes alone fresh .timedMutex (Object.timedMutex.tryUntil alone 1 0 fresh) ↔
      0 < fresh.left 0) ∧
    (Object.timedMutex.tryUntil alone 1 0 fresh =
      Object.timedMutex.tryFor alone 1 (fresh.left 0) fresh ↔
        0 < fresh.left 0 ∨ Object.timedMutex ≠ .binarySemaphore) :=
  timed_iff alone 0 .timedMutex 0 0 fresh_available fresh

/-- With no time left, the mutex is not even tried. -/
theorem fresh_not_taken :
    ¬ ∀ (e : Setting Unit) (fuel : ℕ) (o : Object) (timeout : ℤ) (w : World Unit),
      Available e w o → Takes e w o (o.tryFor e (fuel + 1) timeout w) := by
  intro h
  obtain ⟨t, ht, -⟩ := h alone 0 .timedMutex 0 fresh fresh_available
  have hfails : Object.timedMutex.tryFor alone 1 0 fresh = some (false, fresh) := rfl
  cases hfails.symm.trans ht

end OpenIotSdk.TimedSync
