import OpenIotSdk.Model.Pigweed.InternalMutex

/-! # What one step of the mutex can do

Every step has one of eight effects on the shared variables. The invariants of the
other modules are derived from these rules only. -/

namespace OpenIotSdk.InternalMutex

open Cmsis

variable {Tid : Type*}

/-- Statements that take the inner mutex, with the statement after them. -/
inductive Enters : Pc Tid → Pc Tid → Prop where
  | lock : Enters .lockEnter .lockCheck
  | retake (status) : Enters (.lockRetake status) (.lockStatus status)
  | tryLock : Enters .tryEnter .tryCheck
  | unlock : Enters .unlockEnter .unlockCheck

/-- Statements that release the inner mutex, with the statement after them. -/
inductive Leaves : Pc Tid → Pc Tid → Prop where
  | drop : Leaves .lockDrop .lockDropped
  | locked : Leaves .lockLeave .holding
  | failed : Leaves .tryFail .idle
  | tried : Leaves .tryLeave .holding
  | unlocked (blockedThread) : Leaves (.unlockDrop blockedThread) (.unlockSignal blockedThread)

/-- Moves that write no shared variable, with the condition each is taken under. -/
inductive Control (s : State Tid) (a : Action Tid) (t : Tid) : Pc Tid → Pc Tid → Prop where
  | callLock : Control s a t .idle .lockEnter
  | callTryLock : Control s a t .idle .tryEnter
  | callUnlock : Control s a t .holding .unlockEnter
  | checked : Control s a t .lockCheck .lockTest
  | free (h : s.owner = none) : Control s a t .lockTest .lockTake
  | owned (h : s.owner ≠ none) : Control s a t .lockTest .lockDrop
  | wait : Control s a t .lockDropped .lockWait
  | woken (h : isBitSet (s.flags t) mutexWaitFlag = true) :
      Control s a t .lockWait (.lockRetake (s.flags t))
  | timedOut : Control s a t .lockWait (.lockRetake osFlagsErrorTimeout)
  | again (status) : Control s a t (.lockStatus status) .lockTest
  | leaveLoop (status) (ha : a = .advance t) (hne : status ≠ osFlagsErrorTimeout)
      (he : isOsFlagsError status = false) (h : isBitSet status mutexWaitFlag = true) :
      Control s a t (.lockStatus status) .lockTake
  | tryFree (h : s.owner = none) : Control s a t .tryCheck .tryTake
  | tryOwned (h : s.owner ≠ none) : Control s a t .tryCheck .tryFail

variable [DecidableEq Tid]

inductive Effect (s : State Tid) (a : Action Tid) (t : Tid) : State Tid → Prop where
  | control {next} (h : Control s a t (s.pc t) next) : Effect s a t (s.goto t next)
  | enter {next} (h : Enters (s.pc t) next) (hin : s.inner = none) :
      Effect s a t ({ s with inner := some t }.goto t next)
  | leave {next} (h : Leaves (s.pc t) next) : Effect s a t (s.release t next)
  | take {next} (h : s.pc t = .lockTake ∧ next = .lockClear ∨
      s.pc t = .tryTake ∧ next = .tryClear) :
      Effect s a t ({ s with owner := some t }.goto t next)
  | clear {next} (h : s.pc t = .lockClear ∧ next = .lockLeave ∨
      s.pc t = .tryClear ∧ next = .tryLeave) :
      Effect s a t ((s.setFlags t
        (osThreadFlagsClear (s.flags t) (bitMask mutexWaitFlag))).goto t next)
  | reset (ha : a = .advance t) (h : s.pc t = .unlockCheck) (ho : s.owner = some t) :
      Effect s a t ({ s with owner := none }.goto t (.unlockDrop t))
  | signal {blockedThread} (h : s.pc t = .unlockSignal blockedThread) :
      Effect s a t ((s.setFlags blockedThread (osThreadFlagsSet (s.flags blockedThread)
        (bitMask mutexWaitFlag))).goto t .idle)
  | other {word} (h : isBitSet word mutexWaitFlag = isBitSet (s.flags t) mutexWaitFlag)
      (he : isOsFlagsError word = false) : Effect s a t (s.setFlags t word)
  | fail : Effect s a t s.halt

def Action.actor : Action Tid → Tid
  | .lock t | .tryLock t | .unlock t | .advance t | .timeout t | .other t _ => t

theorem acquire_effect {s s' : State Tid} {a : Action Tid} {t : Tid} {pc next : Pc Tid}
    (hpc : s.pc t = pc) (he : Enters pc next) (h : s.acquire t next = some s') :
    Effect s a t s' := by
  dsimp only [State.acquire] at h
  obtain ⟨hin, h⟩ := Option.ite_none_right_eq_some.mp h
  cases h
  exact .enter (hpc ▸ he) hin

theorem clearWaitFlag_effect {s : State Tid} {a : Action Tid} {t : Tid} {next : Pc Tid}
    (hpc : s.pc t = .lockClear ∧ next = .lockLeave ∨ s.pc t = .tryClear ∧ next = .tryLeave) :
    Effect s a t (s.clearWaitFlag t next) := by
  dsimp only [State.clearWaitFlag]
  split
  · exact .fail
  · exact .clear hpc

theorem signal_effect {s : State Tid} {a : Action Tid} {t blockedThread : Tid}
    (hpc : s.pc t = .unlockSignal blockedThread) : Effect s a t (s.signal t blockedThread) := by
  simp only [State.signal]
  split
  · exact .fail
  · exact .signal hpc

theorem status_effect {s : State Tid} {t : Tid} {status : Flags}
    (hpc : s.pc t = .lockStatus status) :
    Effect s (.advance t) t (if status = osFlagsErrorTimeout then s.goto t .lockTest
      else if isOsFlagsError status then s.halt
      else if isBitSet status mutexWaitFlag then s.goto t .lockTake
      else s.goto t .lockTest) := by
  split_ifs with ht he hb
  · exact .control (hpc ▸ .again status)
  · exact .fail
  · exact .control (hpc ▸ .leaveLoop status rfl ht (by simpa using he) hb)
  · exact .control (hpc ▸ .again status)

theorem advance_effect {s s' : State Tid} {t : Tid} (h : s.advance t = some s') :
    Effect s (.advance t) t s' := by
  cases hpc : s.pc t with
  | idle | holding => simp [State.advance, hpc] at h
  | lockEnter =>
      exact acquire_effect hpc .lock (by simpa only [State.advance, hpc] using h)
  | lockRetake status =>
      exact acquire_effect hpc (.retake status) (by simpa only [State.advance, hpc] using h)
  | tryEnter =>
      exact acquire_effect hpc .tryLock (by simpa only [State.advance, hpc] using h)
  | unlockEnter =>
      exact acquire_effect hpc .unlock (by simpa only [State.advance, hpc] using h)
  | lockCheck =>
      simp only [State.advance, hpc, Option.some.injEq] at h
      subst h
      split
      · exact .fail
      · exact .control (hpc ▸ .checked)
  | lockTest =>
      simp only [State.advance, hpc, Option.some.injEq] at h
      subst h
      split
      · next ho => exact .control (hpc ▸ .free ho)
      · next ho => exact .control (hpc ▸ .owned ho)
  | lockDropped =>
      simp only [State.advance, hpc, Option.some.injEq] at h
      subst h
      exact .control (hpc ▸ .wait)
  | lockWait =>
      simp only [State.advance, hpc] at h
      obtain ⟨hb, h⟩ := Option.ite_none_right_eq_some.mp h
      cases h
      exact .control (hpc ▸ .woken hb)
  | lockStatus status =>
      simp only [State.advance, hpc, Option.some.injEq] at h
      exact h ▸ status_effect hpc
  | lockTake | tryTake =>
      simp only [State.advance, hpc, Option.some.injEq] at h
      subst h
      exact .take (by simp [hpc])
  | lockClear | tryClear =>
      simp only [State.advance, hpc, Option.some.injEq] at h
      exact h ▸ clearWaitFlag_effect (by simp [hpc])
  | lockDrop | lockLeave | tryFail | tryLeave | unlockDrop blockedThread =>
      simp only [State.advance, hpc, Option.some.injEq] at h
      subst h
      exact .leave (hpc ▸ by constructor)
  | tryCheck =>
      simp only [State.advance, hpc, Option.some.injEq] at h
      subst h
      split_ifs with hd ho
      · exact .fail
      · exact .control (hpc ▸ .tryFree ho)
      · exact .control (hpc ▸ .tryOwned ho)
  | unlockCheck =>
      simp only [State.advance, hpc] at h
      split at h
      · cases h; exact .fail
      · next owner ho =>
          rw [Option.some.injEq] at h
          subst h
          split
          · next he => subst he; exact .reset rfl hpc ho
          · exact .fail
  | unlockSignal blockedThread =>
      simp only [State.advance, hpc, Option.some.injEq] at h
      exact h ▸ signal_effect hpc

theorem step_effect {s s' : State Tid} {a : Action Tid} (h : step s a = some s') :
    Effect s a a.actor s' := by
  dsimp only [step] at h
  obtain ⟨-, h⟩ := Option.ite_none_left_eq_some.mp h
  cases a with
  | lock t | tryLock t | unlock t | timeout t =>
      obtain ⟨hpc, h⟩ := Option.ite_none_right_eq_some.mp h
      cases h
      exact .control (hpc ▸ by constructor)
  | advance t => exact advance_effect h
  | other t word =>
      obtain ⟨hw, h⟩ := Option.ite_none_right_eq_some.mp h
      cases h
      exact .other hw.1 hw.2

end OpenIotSdk.InternalMutex
