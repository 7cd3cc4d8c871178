import OpenIotSdk.Verification.InternalMutex.Exclusion
import Mathlib.Data.Fintype.Basic

/-! # Lost wake-ups

A thread that waits in `lock()` is signalled by nobody but itself, so it can be left
behind when the owner unlocks. -/

namespace OpenIotSdk.InternalMutex

open Cmsis Transition

variable {Tid : Type*}

def Pc.unlocking : Pc Tid → Bool
  | .unlockEnter | .unlockCheck | .unlockDrop _ | .unlockSignal _ => true
  | _ => false

/-- The thread found the mutex owned, released the inner mutex and has not come back
from `osThreadFlagsWait`. -/
def Pc.waits : Pc Tid → Bool
  | .lockDropped | .lockWait => true
  | _ => false

/-- No lost wake-up: when the mutex is free, no `unlock()` is in progress and some
thread is blocked, one of the blocked threads has its wait flag. -/
def Wakes (s : State Tid) : Prop :=
  s.owner = none → (∀ t, (s.pc t).unlocking = false) → (∃ t, s.pc t = .lockWait) →
    ∃ t, s.pc t = .lockWait ∧ isBitSet (s.flags t) mutexWaitFlag = true

/-- `unlock()` resets `_owner` only while every waiting thread has its wait flag, left
there by an earlier `unlock()` of its own. -/
def UnlocksFlagged (s : State Tid) : Action Tid → Prop
  | .advance t => s.pc t = .unlockCheck → s.owner = some t →
      ∀ u, (s.pc u).waits = true → isBitSet (s.flags u) mutexWaitFlag = true
  | _ => True

instance [Fintype Tid] [DecidableEq Tid] (s : State Tid) :
    ∀ a, Decidable (UnlocksFlagged s a)
  | .advance t => inferInstanceAs (Decidable (s.pc t = .unlockCheck → s.owner = some t →
      ∀ u, (s.pc u).waits = true → isBitSet (s.flags u) mutexWaitFlag = true))
  | .lock _ | .tryLock _ | .unlock _ | .timeout _ | .other _ _ => isTrue trivial

/-- A thread goes to wait only while the mutex is owned, and keeps its flag once the
mutex is free. -/
structure Flagged (s : State Tid) : Prop where
  inner : InnerHeld s
  contended : ∀ t, s.pc t = .lockDrop → s.owner ≠ none
  flag : s.owner = none → ∀ t, (s.pc t).waits = true →
    isBitSet (s.flags t) mutexWaitFlag = true

theorem Flagged.wakes {s : State Tid} (h : Flagged s) : Wakes s := by
  rintro ho _ ⟨t, ht⟩
  exact ⟨t, ht, h.flag ho t (by rw [ht]; rfl)⟩

theorem flagged_init : Flagged (init : State Tid) :=
  ⟨innerHeld_init, fun _ h => by simp [init] at h, fun _ _ h => by simp [init, Pc.waits] at h⟩

theorem Enters.waits {pc next : Pc Tid} (h : Enters pc next) :
    next.waits = false ∧ next ≠ .lockDrop := by
  cases h <;> exact ⟨rfl, nofun⟩

theorem Control.waits {s : State Tid} {a : Action Tid} {t : Tid} {pc next : Pc Tid}
    (h : Control s a t pc next) (hn : next.waits = true) : pc.waits = true := by
  cases h <;> first | rfl | cases hn

theorem Control.owned_of_drop {s : State Tid} {a : Action Tid} {t : Tid} {pc : Pc Tid}
    (h : Control s a t pc .lockDrop) : s.owner ≠ none := by
  cases h
  assumption

/-- Only the loop of `lock()` makes a thread wait, and it runs while the mutex is owned. -/
theorem Leaves.waits {pc next : Pc Tid} (h : Leaves pc next) :
    next ≠ .lockDrop ∧ (next.waits = true → pc = .lockDrop) := by
  cases h <;> exact ⟨nofun, fun hn => by first | rfl | cases hn⟩

variable [DecidableEq Tid]

theorem Flagged.goto {s r : State Tid} (hs : Flagged s) {t : Tid} {next : Pc Tid}
    (hpc : r.pc = s.pc) (ho : r.owner = s.owner) (hin : InnerHeld (r.goto t next))
    (hflags : ∀ u, (s.pc u).waits = true → isBitSet (s.flags u) mutexWaitFlag = true →
      isBitSet (r.flags u) mutexWaitFlag = true)
    (hdrop : next = .lockDrop → s.owner ≠ none)
    (hwaits : next.waits = true → s.owner = none → (s.pc t).waits = true) :
    Flagged (r.goto t next) := by
  refine ⟨hin, ?_, ?_⟩
  · intro u hu
    change r.owner ≠ none
    rw [ho]
    by_cases h : u = t
    · subst u
      rw [goto_pc_self] at hu
      exact hdrop hu
    · rw [goto_pc_of_ne r next h, hpc] at hu
      exact hs.contended u hu
  · intro hn u hu
    change r.owner = none at hn
    rw [ho] at hn
    have hw : (s.pc u).waits = true := by
      by_cases h : u = t
      · subst u
        rw [goto_pc_self] at hu
        exact hwaits hu hn
      · rw [goto_pc_of_ne r next h, hpc] at hu
        exact hu
    exact hflags u hw (hs.flag hn u hw)

theorem Flagged.step {s s' : State Tid} {a : Action Tid} (hs : Flagged s)
    (hok : UnlocksFlagged s a) (h : Effect s a a.actor s') : Flagged s' := by
  have hin : InnerHeld s' := hs.inner.step h
  cases h with
  | control h =>
      exact hs.goto rfl rfl hin (fun _ _ hf => hf) (fun he => (he ▸ h).owned_of_drop)
        (fun hn _ => h.waits hn)
  | enter h _ =>
      refine hs.goto rfl rfl hin (fun _ _ hf => hf) (fun he => absurd he h.waits.2) ?_
      intro hn
      rw [h.waits.1] at hn
      cases hn
  | leave h =>
      refine hs.goto rfl rfl hin (fun _ _ hf => hf) (fun he => absurd he h.waits.1) ?_
      intro hn ho
      exact absurd ho (hs.contended _ (h.waits.2 hn))
  | take h =>
      refine ⟨hin, fun _ _ => Option.some_ne_none _, ?_⟩
      intro ho
      cases ho
  | clear h =>
      have hpc : (s.pc a.actor).waits = false := by
        rcases h with ⟨hpc, _⟩ | ⟨hpc, _⟩ <;> rw [hpc] <;> rfl
      refine hs.goto rfl rfl hin ?_ ?_ ?_
      · intro u hu hf
        have hne : u ≠ a.actor := by
          rintro rfl
          rw [hpc] at hu
          cases hu
        simpa [State.setFlags, hne] using hf
      · intro hn
        rcases h with ⟨_, rfl⟩ | ⟨_, rfl⟩ <;> cases hn
      · intro hn
        rcases h with ⟨_, rfl⟩ | ⟨_, rfl⟩ <;> cases hn
  | @signal blockedThread h =>
      refine hs.goto rfl rfl hin ?_ (by simp) (by simp [Pc.waits])
      intro u _ hf
      by_cases hu : u = blockedThread
      · subst u
        simp [State.setFlags]
      · simpa [State.setFlags, hu] using hf
  | @other word h _ =>
      refine ⟨hin, hs.contended, ?_⟩
      intro ho u hu
      have hf : isBitSet (s.flags u) mutexWaitFlag = true := hs.flag ho u hu
      by_cases he : u = a.actor
      · subst u
        simpa [State.setFlags, h] using hf
      · simpa [State.setFlags, he] using hf
  | fail => exact ⟨hin, hs.contended, hs.flag⟩
  | reset ha h ho =>
      have hheld : s.inner = some a.actor := (hs.inner _).mp (by rw [h]; rfl)
      refine ⟨hin, ?_, ?_⟩
      · intro u hu
        have hu' : (State.goto { s with owner := none } a.actor
            (.unlockDrop a.actor)).inner = some u := (hin u).mp (by rw [hu]; rfl)
        have he : u = a.actor := Option.some.inj (hu'.symm.trans hheld)
        subst u
        rw [goto_pc_self] at hu
        cases hu
      · intro _ u hu
        by_cases he : u = a.actor
        · subst u
          rw [goto_pc_self] at hu
          cases hu
        · rw [goto_pc_of_ne _ _ he] at hu
          rw [ha] at hok
          exact hok h ho u hu

/-- For any threads and any interleaving, no wake-up is lost in a run whose unlocks
find every waiting thread with its flag. -/
theorem wakes_of_unlocksFlagged (acts : List (Action Tid))
    (h : Meets step UnlocksFlagged init acts) : Always step Wakes init acts :=
  Always.of_invariant Flagged (fun _ _ _ hs hok hstep => hs.step hok (step_effect hstep))
    (fun _ hs => hs.wakes) flagged_init h

/-- The first thread takes the mutex, the second finds it owned and waits, and the
first unlocks: the flag goes to the first thread. -/
def lostRun : List (Action Bool) :=
  calling (.lock true) 6 ++ calling (.lock false) 5 ++ calling (.unlock true) 4

theorem lostRun_not_wakes :
    ¬ ∀ (acts : List (Action Bool)) (s : State Bool),
      run step init acts = some s → Wakes s := by
  intro h
  obtain ⟨t, ht, hf⟩ := h lostRun _ rfl rfl (by decide) ⟨false, by decide⟩
  cases t
  · revert hf
    decide
  · revert ht
    decide

/-- A run with contention that meets the condition: the waiting thread has unlocked
before and carries its own flag. -/
def flaggedRun : List (Action Bool) :=
  calling (.lock false) 6 ++ calling (.unlock false) 4 ++ lostRun

theorem flaggedRun_wakes : Always step Wakes init flaggedRun :=
  wakes_of_unlocksFlagged flaggedRun (by decide)

end OpenIotSdk.InternalMutex
