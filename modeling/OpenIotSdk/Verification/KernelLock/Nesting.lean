import OpenIotSdk.Library.Transition
import OpenIotSdk.Model.Pigweed.KernelLock

/-! # Nested kernel locks

A thread may be preempted between its test of `counter_` and `osKernelLock`. Whatever runs in
between has left the kernel as it was when the thread goes on. -/

namespace OpenIotSdk.KernelLock

open Transition

variable {Tid Obj : Type*} {s t : State Tid Obj} {a : Action Tid Obj}

/-! ## The specification -/

/-- The thread has taken the kernel lock and not restored it yet. -/
def Pc.Entered : Pc Obj → Prop
  | .lockStore .. | .lockCheck _ | .lockRead _ | .lockWrite .. | .unlockRead | .unlockWrite _
  | .unlockTest | .unlockLoad | .unlockRestore _ => True
  | .idle | .lockTest _ | .lockKernel _ | .unlockCheck _ => False

def State.Inside (s : State Tid Obj) (i : Tid) : Prop := s.held i ≠ [] ∨ (s.pc i).Entered

/-- The counter is the nesting depth of the one thread that is inside. -/
structure Safe (s : State Tid Obj) : Prop where
  locked : 0 < s.counter → s.locked = true
  exclusive : ∀ i j, s.Inside i → s.Inside j → i = j
  depth : ∀ i, s.Inside i → s.counter = (s.held i).length
  free : (∀ i, ¬ s.Inside i) → s.counter = 0

/-- The outermost `unlock()`, and no other one, restores the lock that its `lock()` found. -/
structure Restores (s : State Tid Obj) (a : Action Tid Obj) (t : State Tid Obj) : Prop where
  outermost : a = .advance → s.pc s.current = .unlockTest →
    (t.pc s.current = .unlockLoad ↔ s.held s.current = [])
  restored : a = .advance → ∀ state, s.pc s.current = .unlockRestore state →
    t.locked = s.found s.current

/-! ## The invariant -/

/-- The kernel is locked, and it is known what the running thread has found. -/
def State.Taken (s : State Tid Obj) : Prop :=
  s.locked = true ∧ s.prevLock = osKernelLock (s.found s.current)

/-- What holds where the running thread stands. -/
def Pc.Local (s : State Tid Obj) : Pc Obj → Prop
  | .idle => True
  | .lockTest _ => s.held s.current = [] → s.locked = s.found s.current
  | .lockKernel _ => s.held s.current = [] ∧ s.locked = s.found s.current
  | .lockStore _ state =>
      s.held s.current = [] ∧ s.locked = true ∧ state = osKernelLock (s.found s.current)
  | .lockCheck _ => s.held s.current = [] ∧ s.Taken
  | .lockRead _ => s.Taken
  | .lockWrite _ value => s.Taken ∧ value = s.counter
  | .unlockRead => s.held s.current ≠ []
  | .unlockWrite value => s.held s.current ≠ [] ∧ value = s.counter
  | .unlockTest => s.Taken
  | .unlockLoad => s.held s.current = [] ∧ s.Taken
  | .unlockRestore state =>
      s.held s.current = [] ∧ s.locked = true ∧ state = osKernelLock (s.found s.current)
  | .unlockCheck res => s.held s.current = [] ∧ 0 ≤ res

/-- Where a thread may have been preempted: the kernel was unlocked there. -/
def Pc.Parked (found : Bool) : Pc Obj → Prop
  | .idle => True
  | .lockTest _ | .lockKernel _ => found = false
  | .unlockCheck res => 0 ≤ res
  | _ => False

structure Inv (s : State Tid Obj) : Prop where
  counter : s.counter = (s.held s.current).length
  nested : s.held s.current ≠ [] → s.Taken
  running : (s.pc s.current).Local s
  waiting : ∀ j, j ≠ s.current → s.held j = [] ∧ (s.pc j).Parked (s.found j)
  halted : s.halted = false

theorem inv_init (current : Tid) (locked : Bool) : Inv (init current locked : State Tid Obj) :=
  ⟨rfl, fun hne => absurd rfl hne, trivial, fun _ _ => ⟨rfl, trivial⟩, rfl⟩

theorem osKernelLock_nonneg (locked : Bool) : 0 ≤ osKernelLock locked := by
  cases locked <;> decide

/-- The kernel takes back what it has given. -/
theorem osKernelRestoreLock_osKernelLock (locked found : Bool) :
    osKernelRestoreLock locked (osKernelLock found) = (found, osKernelLock found) := by
  cases found <;> rfl

theorem Pc.Parked.not_entered {pc : Pc Obj} {found : Bool} (h : pc.Parked found) :
    ¬ pc.Entered := by
  cases pc with
  | idle | lockTest | lockKernel | unlockCheck => exact not_false
  | lockStore | lockCheck | lockRead | lockWrite | unlockRead | unlockWrite | unlockTest
  | unlockLoad | unlockRestore => exact h.elim

theorem Inv.eq_current (h : Inv s) {i : Tid} (hi : s.Inside i) : i = s.current := by
  by_contra hne
  obtain ⟨hheld, hparked⟩ := h.waiting i hne
  exact hi.elim (fun hinside => hinside hheld) hparked.not_entered

theorem Inv.counter_eq_zero_iff (h : Inv s) : s.counter = 0 ↔ s.held s.current = [] := by
  rw [h.counter, Int.natCast_eq_zero, List.length_eq_zero_iff]

theorem Inv.safe (h : Inv s) : Safe s where
  locked := fun hpos => (h.nested (mt h.counter_eq_zero_iff.mpr hpos.ne')).1
  exclusive := fun i j hi hj => (h.eq_current hi).trans (h.eq_current hj).symm
  depth := by
    intro i hi
    rw [h.eq_current hi]
    exact h.counter
  free := by
    intro hnone
    rw [h.counter_eq_zero_iff]
    by_contra hne
    exact hnone s.current (.inl hne)

/-! ## Steps -/

theorem Inv.parked (h : Inv s) (hlocked : s.locked = false) :
    s.held s.current = [] ∧ (s.pc s.current).Parked (s.found s.current) := by
  have hnot : s.locked ≠ true := by simp [hlocked]
  have hnil : s.held s.current = [] := by
    by_contra hne
    exact hnot (h.nested hne).1
  refine ⟨hnil, ?_⟩
  have hrunning := h.running
  cases hpc : s.pc s.current with
  | idle => trivial
  | lockTest lock =>
      rw [hpc] at hrunning
      exact (hrunning hnil).symm.trans hlocked
  | lockKernel lock =>
      rw [hpc] at hrunning
      exact hrunning.2.symm.trans hlocked
  | unlockCheck res =>
      rw [hpc] at hrunning
      exact hrunning.2
  | lockStore lock state | unlockRestore state =>
      rw [hpc] at hrunning
      exact absurd hrunning.2.1 hnot
  | lockCheck lock | unlockLoad =>
      rw [hpc] at hrunning
      exact absurd hrunning.2.1 hnot
  | lockRead lock | unlockTest =>
      rw [hpc] at hrunning
      exact absurd hrunning.1 hnot
  | lockWrite lock value =>
      rw [hpc] at hrunning
      exact absurd hrunning.1.1 hnot
  | unlockRead =>
      rw [hpc] at hrunning
      exact absurd hnil hrunning
  | unlockWrite value =>
      rw [hpc] at hrunning
      exact absurd hnil hrunning.1

theorem Inv.switch (h : Inv s) (hlocked : s.locked = false) (next : Tid) :
    Inv { s with current := next } := by
  obtain ⟨hnil, hparked⟩ := h.parked hlocked
  have hwaiting : ∀ j, s.held j = [] ∧ (s.pc j).Parked (s.found j) := by
    intro j
    by_cases hj : j = s.current
    · rw [hj]
      exact ⟨hnil, hparked⟩
    · exact h.waiting j hj
  have hcounter : s.counter = 0 := h.counter_eq_zero_iff.mpr hnil
  obtain ⟨hheld, hpc⟩ := hwaiting next
  refine ⟨?_, fun hne => absurd hheld hne, ?_, fun j _ => hwaiting j, h.halted⟩
  · rw [hcounter, hheld]
    rfl
  · cases hnext : s.pc next with
    | idle => trivial
    | lockTest lock =>
        rw [hnext] at hpc
        exact fun _ => hlocked.trans hpc.symm
    | lockKernel lock =>
        rw [hnext] at hpc
        exact ⟨hheld, hlocked.trans hpc.symm⟩
    | unlockCheck res =>
        rw [hnext] at hpc
        exact ⟨hheld, hpc⟩
    | lockStore | lockCheck | lockRead | lockWrite | unlockRead | unlockWrite | unlockTest
    | unlockLoad | unlockRestore =>
        rw [hnext] at hpc
        exact hpc.elim

variable [DecidableEq Tid]

theorem inv_goto {pc : Pc Obj} (hcounter : s.counter = (s.held s.current).length)
    (hnested : s.held s.current ≠ [] → s.Taken) (hpc : pc.Local s)
    (hwaiting : ∀ j, j ≠ s.current → s.held j = [] ∧ (s.pc j).Parked (s.found j))
    (hhalted : s.halted = false) : Inv (s.goto pc) := by
  refine ⟨hcounter, hnested, ?_, fun j hj => ?_, hhalted⟩
  · dsimp only [State.goto]
    rw [Function.update_self]
    cases pc <;> exact hpc
  · dsimp only [State.goto] at hj ⊢
    rw [Function.update_of_ne hj]
    exact hwaiting j hj

theorem Inv.goto (h : Inv s) {pc : Pc Obj} (hpc : pc.Local s) : Inv (s.goto pc) :=
  inv_goto h.counter h.nested hpc h.waiting h.halted

/-- `lock()` notes what it finds, if it is the outermost one. -/
theorem Inv.enter (h : Inv s) (lock : Obj) : Inv (s.enter lock) := by
  dsimp only [State.enter]
  cases hheld : s.held s.current with
  | nil =>
      refine inv_goto h.counter (fun hne => absurd hheld hne)
        (fun _ => (Function.update_self s.current s.locked s.found).symm) (fun j hj => ?_) h.halted
      dsimp only
      rw [Function.update_of_ne hj]
      exact h.waiting j hj
  | cons held rest => exact h.goto fun hnil => by cases hheld.symm.trans hnil

theorem Inv.setHeld (h : Inv s) {held : List Obj} {pc : Pc Obj} (htaken : s.Taken)
    (hpc : pc = .idle ∨ pc = .unlockTest) :
    Inv (({ s with counter := held.length }.setHeld held).goto pc) := by
  have hself : Function.update s.held s.current held s.current = held :=
    Function.update_self s.current held s.held
  refine inv_goto (congrArg (fun l : List Obj => (l.length : ℤ)) hself).symm (fun _ => htaken) ?_
    (fun j hj => ?_) h.halted
  · obtain rfl | rfl := hpc
    · trivial
    · exact htaken
  · dsimp only [State.setHeld] at hj ⊢
    rw [Function.update_of_ne hj]
    exact h.waiting j hj

theorem Inv.advance (h : Inv s) (hs : s.advance = some t) : Inv t := by
  have hrunning := h.running
  dsimp only [State.advance] at hs
  cases hpc : s.pc s.current with
  | idle => simp [hpc] at hs
  | lockTest lock =>
      rw [hpc] at hs hrunning
      cases hs
      by_cases hzero : s.counter = 0
      · rw [if_pos hzero]
        have hnil := h.counter_eq_zero_iff.mp hzero
        exact h.goto ⟨hnil, hrunning hnil⟩
      · rw [if_neg hzero]
        exact h.goto (h.nested (mt h.counter_eq_zero_iff.mpr hzero))
  | lockKernel lock =>
      rw [hpc] at hs hrunning
      cases hs
      obtain ⟨hnil, hfound⟩ := hrunning
      exact inv_goto h.counter (fun hne => absurd hnil hne)
        ⟨hnil, rfl, congrArg osKernelLock hfound⟩ h.waiting h.halted
  | lockStore lock state =>
      rw [hpc] at hs hrunning
      cases hs
      obtain ⟨hnil, hlocked, hstate⟩ := hrunning
      exact inv_goto h.counter (fun hne => absurd hnil hne) ⟨hnil, hlocked, hstate⟩ h.waiting
        h.halted
  | lockCheck lock =>
      rw [hpc] at hs hrunning
      cases hs
      obtain ⟨-, htaken⟩ := hrunning
      have hnonneg : ¬ s.prevLock < 0 := by
        rw [htaken.2]
        exact (osKernelLock_nonneg _).not_gt
      rw [if_neg hnonneg]
      exact h.goto htaken
  | lockRead lock =>
      rw [hpc] at hs hrunning
      cases hs
      exact h.goto ⟨hrunning, rfl⟩
  | lockWrite lock value =>
      rw [hpc] at hs hrunning
      cases hs
      obtain ⟨htaken, hvalue⟩ := hrunning
      have hdepth : value + 1 = (lock :: s.held s.current).length := by
        rw [hvalue, h.counter]
        rfl
      rw [hdepth]
      exact h.setHeld htaken (.inl rfl)
  | unlockRead =>
      rw [hpc] at hs hrunning
      cases hs
      exact h.goto ⟨hrunning, rfl⟩
  | unlockWrite value =>
      rw [hpc] at hs hrunning
      cases hs
      obtain ⟨hne, hvalue⟩ := hrunning
      have hdepth : value - 1 = (s.held s.current).tail.length := by
        have hpos := List.length_pos_iff.mpr hne
        rw [hvalue, h.counter, List.length_tail]
        omega
      rw [hdepth]
      exact h.setHeld (h.nested hne) (.inr rfl)
  | unlockTest =>
      rw [hpc] at hs hrunning
      cases hs
      by_cases hzero : s.counter = 0
      · rw [if_pos hzero]
        exact h.goto ⟨h.counter_eq_zero_iff.mp hzero, hrunning⟩
      · rw [if_neg hzero]
        exact h.goto trivial
  | unlockLoad =>
      rw [hpc] at hs hrunning
      cases hs
      obtain ⟨hnil, hlocked, hprev⟩ := hrunning
      exact h.goto ⟨hnil, hlocked, hprev⟩
  | unlockRestore state =>
      rw [hpc] at hs hrunning
      cases hs
      obtain ⟨hnil, -, rfl⟩ := hrunning
      rw [osKernelRestoreLock_osKernelLock]
      exact inv_goto h.counter (fun hne => absurd hnil hne) ⟨hnil, osKernelLock_nonneg _⟩ h.waiting
        h.halted
  | unlockCheck res =>
      rw [hpc] at hs hrunning
      cases hs
      rw [if_neg hrunning.2.not_gt]
      exact h.goto trivial

theorem Inv.step (h : Inv s) (hs : step s a = some t) : Inv t := by
  dsimp only [KernelLock.step] at hs
  rw [if_neg (by simp [h.halted])] at hs
  cases a with
  | lock lock =>
      dsimp only at hs
      split at hs
      · cases hs
        exact h.enter lock
      · cases hs
  | unlock =>
      dsimp only at hs
      split at hs
      · next held rest _ hheld =>
          cases hs
          refine h.goto fun hnil => ?_
          cases hheld.symm.trans hnil
      · cases hs
  | advance => exact h.advance hs
  | switch next =>
      obtain ⟨hlocked, hs⟩ := Option.ite_none_left_eq_some.mp hs
      cases hs
      exact h.switch (Bool.eq_false_iff.mpr hlocked) next
  | kernel locked =>
      dsimp only at hs
      split at hs
      · next hpc hheld =>
          cases hs
          refine ⟨h.counter, fun hne => absurd hheld hne, ?_, h.waiting, h.halted⟩
          dsimp only
          rw [hpc]
          trivial
      · cases hs

end OpenIotSdk.KernelLock
