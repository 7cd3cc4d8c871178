import OpenIotSdk.Verification.InternalMutex.Semantics

/-! # Mutual exclusion

`unlock()` sets the wait flag of the thread that unlocks. The flag survives until the
same thread next acquires, and takes that thread out of the loop of `lock()` while
another thread owns the mutex. -/

namespace OpenIotSdk.InternalMutex

open Cmsis Transition

variable {Tid : Type*}

/-- The statements a thread runs while it holds the inner mutex. -/
def Pc.holdsInner : Pc Tid → Bool
  | .lockCheck | .lockTest | .lockDrop | .lockStatus _ | .lockTake | .lockClear
  | .lockLeave | .tryCheck | .tryFail | .tryTake | .tryClear | .tryLeave
  | .unlockCheck | .unlockDrop _ => true
  | _ => false

/-- The statements from the write of `_owner` in a lock function to its reset in
`unlock()`. -/
def Pc.owns : Pc Tid → Bool
  | .lockClear | .lockLeave | .tryClear | .tryLeave | .holding | .unlockEnter
  | .unlockCheck => true
  | _ => false

def Pc.takes : Pc Tid → Bool
  | .lockTake | .tryTake => true
  | _ => false

/-- At most one thread is between its lock and its unlock, and `_owner` is written by
the lock functions only when it is null. -/
def Exclusive (s : State Tid) : Prop :=
  (∀ t u, s.pc t = .holding → s.pc u = .holding → t = u) ∧
    ∀ t, (s.pc t).takes = true → s.owner = none

/-- The loop of `lock()` is left through its wait flag only while the mutex is free. -/
def BreaksWhenFree (s : State Tid) : Action Tid → Prop
  | .advance t => ∀ status, s.pc t = .lockStatus status →
      status ≠ osFlagsErrorTimeout → isOsFlagsError status = false →
      isBitSet status mutexWaitFlag = true → s.owner = none
  | _ => True

/-! ## The inner mutex -/

/-- The inner mutex belongs to the one thread that runs a statement under it. -/
def InnerHeld (s : State Tid) : Prop :=
  ∀ t, (s.pc t).holdsInner = true ↔ s.inner = some t

theorem Enters.holdsInner {pc next : Pc Tid} (h : Enters pc next) :
    pc.holdsInner = false ∧ next.holdsInner = true := by
  cases h <;> exact ⟨rfl, rfl⟩

theorem Leaves.holdsInner {pc next : Pc Tid} (h : Leaves pc next) :
    pc.holdsInner = true ∧ next.holdsInner = false := by
  cases h <;> exact ⟨rfl, rfl⟩

theorem Control.holdsInner {s : State Tid} {a : Action Tid} {t : Tid} {pc next : Pc Tid}
    (h : Control s a t pc next) : next.holdsInner = pc.holdsInner := by
  cases h <;> rfl

theorem innerHeld_init : InnerHeld (init : State Tid) := by
  intro t
  simp [init, Pc.holdsInner]

/-! ## The owner -/

theorem Enters.owns {pc next : Pc Tid} (h : Enters pc next) :
    next.owns = pc.owns ∧ next.takes = false := by
  cases h <;> exact ⟨rfl, rfl⟩

theorem Leaves.owns {pc next : Pc Tid} (h : Leaves pc next) :
    next.owns = pc.owns ∧ next.takes = false := by
  cases h <;> exact ⟨rfl, rfl⟩

theorem Control.owns {s : State Tid} {a : Action Tid} {t : Tid} {pc next : Pc Tid}
    (h : Control s a t pc next) : next.owns = pc.owns := by
  cases h <;> rfl

/-- A thread moves to a write of `_owner` only after reading that it is null, or by
leaving the loop through its wait flag. -/
theorem Control.free_of_takes {s : State Tid} {a : Action Tid} {t : Tid} {next : Pc Tid}
    (h : Control s a t (s.pc t) next) (hok : BreaksWhenFree s a) (ht : next.takes = true) :
    s.owner = none := by
  generalize hpc : s.pc t = pc at h
  cases h with
  | free h | tryFree h => exact h
  | leaveLoop status ha hne he hb => subst ha; exact hok status hpc hne he hb
  | _ => cases ht

theorem holdsInner_of_takes {pc : Pc Tid} (h : pc.takes = true) : pc.holdsInner = true := by
  cases pc <;> first | rfl | exact absurd h (by simp [Pc.takes])

/-- Ownership as long as no thread has broken in: a thread past its write of `_owner`
is the owner, and a thread at that write finds no owner. -/
structure Ownership (s : State Tid) : Prop where
  inner : InnerHeld s
  owner : ∀ t, (s.pc t).owns = true → s.owner = some t
  free : ∀ t, (s.pc t).takes = true → s.owner = none

theorem Ownership.exclusive {s : State Tid} (h : Ownership s) : Exclusive s := by
  refine ⟨?_, h.free⟩
  intro t u ht hu
  have hot : s.owner = some t := h.owner t (by rw [ht]; rfl)
  have hou : s.owner = some u := h.owner u (by rw [hu]; rfl)
  exact Option.some.inj (hot.symm.trans hou)

theorem ownership_init : Ownership (init : State Tid) :=
  ⟨innerHeld_init, fun _ h => by simp [init, Pc.owns] at h,
    fun _ h => by simp [init, Pc.takes] at h⟩

/-- Only the holder of the inner mutex can stand at a write of `_owner`. -/
theorem Ownership.takes_unique {s : State Tid} (h : Ownership s) {t u : Tid}
    (ht : s.inner = some t) (hu : (s.pc u).takes = true) : u = t := by
  have hin : s.inner = some u := (h.inner u).mp (holdsInner_of_takes hu)
  exact Option.some.inj (hin.symm.trans ht)

/-! ## Preservation -/

variable [DecidableEq Tid]

@[simp] theorem goto_pc_self (s : State Tid) (t : Tid) (pc : Pc Tid) :
    (s.goto t pc).pc t = pc := Function.update_self ..

theorem goto_pc_of_ne (s : State Tid) {t u : Tid} (pc : Pc Tid) (h : u ≠ t) :
    (s.goto t pc).pc u = s.pc u := Function.update_of_ne h ..

theorem InnerHeld.goto {s : State Tid} (hi : InnerHeld s) {t : Tid} {next : Pc Tid}
    (h : next.holdsInner = (s.pc t).holdsInner) : InnerHeld (s.goto t next) := by
  intro u
  by_cases hu : u = t
  · subst u
    rw [goto_pc_self, h]
    exact hi t
  · rw [goto_pc_of_ne s next hu]
    exact hi u

theorem InnerHeld.step {s s' : State Tid} {a : Action Tid} {t : Tid} (hi : InnerHeld s)
    (h : Effect s a t s') : InnerHeld s' := by
  cases h with
  | control h => exact hi.goto h.holdsInner
  | take h =>
      apply InnerHeld.goto (s := { s with owner := some t }) hi
      rcases h with ⟨hpc, rfl⟩ | ⟨hpc, rfl⟩ <;> simp [hpc, Pc.holdsInner]
  | clear h =>
      apply InnerHeld.goto (s := s.setFlags t _) hi
      rcases h with ⟨hpc, rfl⟩ | ⟨hpc, rfl⟩ <;> simp [State.setFlags, hpc, Pc.holdsInner]
  | reset _ h ho =>
      apply InnerHeld.goto (s := { s with owner := none }) hi
      simp [h, Pc.holdsInner]
  | signal h =>
      apply InnerHeld.goto (s := s.setFlags _ _) hi
      simp [State.setFlags, h, Pc.holdsInner]
  | enter h hin =>
      intro u
      by_cases hu : u = t
      · subst u
        simp [h.holdsInner.2, State.goto]
      · have hn : (s.pc u).holdsInner = true ↔ s.inner = some u := hi u
        simp only [hin] at hn
        simp [State.goto, hu, Ne.symm hu, hn]
  | leave h =>
      have ht : s.inner = some t := (hi t).mp h.holdsInner.1
      intro u
      by_cases hu : u = t
      · subst u
        simp [State.release, State.goto, h.holdsInner.2]
      · have hn : (s.pc u).holdsInner = true ↔ s.inner = some u := hi u
        simp only [ht, Option.some.injEq, Ne.symm hu, iff_false] at hn
        simp [State.release, State.goto, hu, hn]
  | other | fail => exact hi

theorem Ownership.goto {s r : State Tid} (hs : Ownership s) {t : Tid} {next : Pc Tid}
    (hpc : r.pc = s.pc) (ho : r.owner = s.owner) (hin : InnerHeld (r.goto t next))
    (howns : next.owns = (s.pc t).owns) (htakes : next.takes = true → s.owner = none) :
    Ownership (r.goto t next) := by
  refine ⟨hin, ?_, ?_⟩
  · intro u hu
    change r.owner = some u
    rw [ho]
    by_cases h : u = t
    · subst u
      rw [goto_pc_self, howns] at hu
      exact hs.owner t hu
    · rw [goto_pc_of_ne r next h, hpc] at hu
      exact hs.owner u hu
  · intro u hu
    change r.owner = none
    rw [ho]
    by_cases h : u = t
    · subst u
      rw [goto_pc_self] at hu
      exact htakes hu
    · rw [goto_pc_of_ne r next h, hpc] at hu
      exact hs.free u hu

theorem Ownership.step {s s' : State Tid} {a : Action Tid} (hs : Ownership s)
    (hok : BreaksWhenFree s a) (h : Effect s a a.actor s') : Ownership s' := by
  have hin : InnerHeld s' := hs.inner.step h
  cases h with
  | control h => exact hs.goto rfl rfl hin h.owns (h.free_of_takes hok)
  | enter h _ | leave h =>
      refine hs.goto rfl rfl hin h.owns.1 ?_
      intro ht
      rw [h.owns.2] at ht
      cases ht
  | clear h =>
      refine hs.goto rfl rfl hin ?_ ?_ <;>
        rcases h with ⟨hpc, rfl⟩ | ⟨hpc, rfl⟩ <;> simp [hpc, Pc.owns, Pc.takes]
  | signal h => exact hs.goto rfl rfl hin (by rw [h]; rfl) (by simp [Pc.takes])
  | other | fail => exact ⟨hin, hs.owner, hs.free⟩
  | take h =>
      have htake : (s.pc a.actor).takes = true := by
        rcases h with ⟨hpc, _⟩ | ⟨hpc, _⟩ <;> rw [hpc] <;> rfl
      have hfree : s.owner = none := hs.free _ htake
      have hheld : s.inner = some a.actor := (hs.inner _).mp (holdsInner_of_takes htake)
      refine ⟨hin, ?_, ?_⟩
      · intro u hu
        by_cases he : u = a.actor
        · subst u
          rfl
        · rw [goto_pc_of_ne _ _ he] at hu
          have ho : s.owner = some u := hs.owner u hu
          rw [hfree] at ho
          cases ho
      · intro u hu
        by_cases he : u = a.actor
        · subst u
          rw [goto_pc_self] at hu
          rcases h with ⟨_, rfl⟩ | ⟨_, rfl⟩ <;> cases hu
        · rw [goto_pc_of_ne _ _ he] at hu
          exact absurd (hs.takes_unique hheld hu) he
  | reset _ h ho =>
      refine ⟨hin, ?_, fun _ _ => rfl⟩
      intro u hu
      by_cases he : u = a.actor
      · subst u
        rw [goto_pc_self] at hu
        cases hu
      · rw [goto_pc_of_ne _ _ he] at hu
        have hou : s.owner = some u := hs.owner u hu
        rw [ho] at hou
        exact absurd (Option.some.inj hou).symm he

/-- Leaving the loop through the wait flag while the mutex is owned puts a thread at
the write of `_owner` with an owner present. -/
theorem not_exclusive_of_break {s s' : State Tid} {a : Action Tid}
    (h : step s a = some s') (hbad : ¬ BreaksWhenFree s a) : ¬ Exclusive s' := by
  cases a with
  | lock | tryLock | unlock | timeout | other => exact absurd trivial hbad
  | advance t =>
      simp only [BreaksWhenFree, not_forall] at hbad
      obtain ⟨status, hpc, hne, he, hb, ho⟩ := hbad
      have hs' : s' = s.goto t .lockTake := by
        simp only [step] at h
        obtain ⟨-, h⟩ := Option.ite_none_left_eq_some.mp h
        simpa [State.advance, hpc, hne, he, hb] using h.symm
      subst hs'
      intro hx
      exact ho (hx.2 t (by rw [goto_pc_self]; rfl))

/-- For any threads and any interleaving, the mutex excludes in every state of a run
exactly when no thread leaves the loop of `lock()` through its wait flag while the
mutex has an owner. -/
theorem exclusive_iff_breaksWhenFree (acts : List (Action Tid)) :
    Always step Exclusive init acts ↔ Meets step BreaksWhenFree init acts :=
  always_iff_meets Ownership
    (fun _ _ _ hs hok h => hs.step hok (step_effect h)) (fun _ hs => hs.exclusive)
    (fun _ _ _ _ h hbad => not_exclusive_of_break h hbad) ownership_init acts

/-- A call and the next `n` statements of its thread. -/
def calling (a : Action Tid) (n : ℕ) : List (Action Tid) :=
  a :: List.replicate n (.advance a.actor)

/-- The left-over flag at work: the first thread locks and unlocks, which sets its own
flag; the second thread locks; the first thread locks again and both own the mutex. -/
def brokenRun : List (Action Bool) :=
  calling (.lock true) 6 ++ calling (.unlock true) 4 ++ calling (.lock false) 6 ++
    calling (.lock true) 11

theorem brokenRun_not_exclusive :
    ¬ ∀ (acts : List (Action Bool)) (s : State Bool),
      run step init acts = some s → Exclusive s := by
  intro h
  have hx := h brokenRun _ rfl
  exact absurd (hx.1 true false (by decide) (by decide)) (by decide)

end OpenIotSdk.InternalMutex
