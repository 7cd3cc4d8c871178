import OpenIotSdk.Library.Transition
import OpenIotSdk.Model.Pigweed.InterruptSpinLock
import Mathlib.Data.List.Nodup

/-! # What spin locks do to `BASEPRI`

Each lock saves what it finds, so that only the one that was taken first has the value to
restore. -/

namespace OpenIotSdk.InterruptSpinLock

open Transition

variable {Id : Type*}

/-- Interrupts are masked while a lock is held, and as before otherwise. -/
structure Masked (s : State Id) : Prop where
  held : s.held ≠ [] → s.basepri = userNmiPriority
  free : s.held = [] → s.basepri = s.found

variable [DecidableEq Id] {s t : State Id} {id : Id} {context : Context}

/-- A thread releases a lock. Where the count of critical sections goes to zero, this is the lock
taken first if it is the last one, and another one if it is not; and the count does go to zero with
the last one. None of this matters where the mask was set before. -/
structure Ordered (s : State Id) (id : Id) : Prop where
  others : s.held.erase id ≠ [] → s.nestedCriticalSections = 1 → s.eldest = some id →
    s.found = userNmiPriority
  eldest : s.held.erase id = [] → s.nestedCriticalSections = 1 → s.eldest ≠ some id →
    s.found = userNmiPriority
  last : s.held.erase id = [] → s.nestedCriticalSections ≠ 1 → s.found = userNmiPriority

/-- An interrupt handler only releases the last lock, where no interrupts were masked before. -/
def Orderly (s : State Id) : Action Id → Prop
  | .unlock id .thread => Ordered s id
  | .unlock id .interrupt => s.held.erase id = [] ∧ s.found = 0
  | .tryLock .. | .setBasepri _ => True

/-! ## The calls -/

theorem tryLock_locks (s : State Id) (id : Id) (context : Context) :
    (s.tryLock id context).locks = Function.update s.locks id ⟨true, s.basepri⟩ := by
  cases context <;>
    simp [State.tryLock, State.enterCriticalSection, State.setTargetIrqState]

theorem tryLock_frame (s : State Id) (id : Id) (context : Context) :
    (s.tryLock id context).basepri = userNmiPriority ∧ (s.tryLock id context).held = s.held ∧
      (s.tryLock id context).found = s.found ∧ (s.tryLock id context).eldest = s.eldest := by
  cases context <;> exact ⟨rfl, rfl, rfl, rfl⟩

omit [DecidableEq Id] in
theorem noteLock_frame (s : State Id) (id : Id) (basepri : ℕ) :
    (s.noteLock id basepri).locks = s.locks ∧ (s.noteLock id basepri).basepri = s.basepri ∧
      (s.noteLock id basepri).held = id :: s.held := by
  dsimp only [State.noteLock]
  split
  · next hnil => exact ⟨rfl, rfl, congrArg (List.cons id) hnil.symm⟩
  · exact ⟨rfl, rfl, rfl⟩

omit [DecidableEq Id] in
theorem noteLock_first (id : Id) (basepri : ℕ) (hnil : s.held = []) :
    (s.noteLock id basepri).eldest = some id ∧ (s.noteLock id basepri).found = basepri := by
  rw [State.noteLock, hnil]
  exact ⟨rfl, rfl⟩

omit [DecidableEq Id] in
theorem noteLock_next (id : Id) (basepri : ℕ) (hne : s.held ≠ []) :
    (s.noteLock id basepri).eldest = s.eldest ∧ (s.noteLock id basepri).found = s.found := by
  dsimp only [State.noteLock]
  split
  · next hnil => exact absurd hnil hne
  · exact ⟨rfl, rfl⟩

theorem unlock_locks (s : State Id) (id : Id) (context : Context) :
    (s.unlock id context).locks =
      Function.update s.locks id { s.locks id with locked := false } := by
  cases context with
  | interrupt => rfl
  | thread =>
      dsimp only [State.unlock, State.exitCriticalSection]
      split <;> rfl

theorem unlock_frame (s : State Id) (id : Id) (context : Context) :
    (s.unlock id context).held = s.held ∧ (s.unlock id context).found = s.found ∧
      (s.unlock id context).eldest = s.eldest := by
  cases context with
  | interrupt => exact ⟨rfl, rfl, rfl⟩
  | thread =>
      dsimp only [State.unlock, State.exitCriticalSection]
      split <;> exact ⟨rfl, rfl, rfl⟩

theorem unlock_thread_basepri (s : State Id) (id : Id) :
    (s.unlock id .thread).basepri =
      if s.nestedCriticalSections = 1 then (s.locks id).savedIrqState else s.basepri := by
  dsimp only [State.unlock, State.exitCriticalSection]
  have hiff : s.nestedCriticalSections - 1 = 0 ↔ s.nestedCriticalSections = 1 := Int.sub_eq_zero
  split
  · next hzero =>
      rw [if_pos (hiff.mp hzero)]
      simp [State.restoreSavedIrqState]
  · next hzero => rw [if_neg (mt hiff.mpr hzero)]

/-! ## The invariant -/

structure Inv (s : State Id) : Prop where
  masked : Masked s
  nodup : s.held.Nodup
  mem : ∀ id, (s.locks id).locked = true ↔ id ∈ s.held
  eldest : ∀ id, s.eldest = some id → id ∈ s.held
  saved : ∀ id ∈ s.held, (s.locks id).savedIrqState =
    if s.eldest = some id then s.found else userNmiPriority

theorem inv_init (basepri : ℕ) : Inv (init basepri : State Id) where
  masked := ⟨fun h => absurd rfl h, fun _ => rfl⟩
  nodup := List.nodup_nil
  mem := fun _ => by simp [init]
  eldest := fun _ h => by cases h
  saved := fun _ h => by cases h

/-- The lock that is taken saves the mask of the others, or what there was before. -/
theorem Inv.tryLock (h : Inv s) (hfree : (s.locks id).locked = false) :
    Inv ((s.tryLock id context).noteLock id s.basepri) := by
  obtain ⟨hbasepri, hheld, hfound, heldest⟩ := tryLock_frame s id context
  obtain ⟨hlocks, hkept, hnoted⟩ := noteLock_frame (s.tryLock id context) id s.basepri
  rw [tryLock_locks] at hlocks
  rw [hheld] at hnoted
  have hnew : id ∉ s.held := by
    rw [← h.mem, hfree]
    exact Bool.false_ne_true
  refine ⟨⟨fun _ => hkept.trans hbasepri, fun hnil => ?_⟩, ?_, fun j => ?_, fun j hj => ?_,
    fun j hj => ?_⟩
  · cases hnoted.symm.trans hnil
  · rw [hnoted]
    exact List.nodup_cons.mpr ⟨hnew, h.nodup⟩
  · rw [hnoted, hlocks, List.mem_cons]
    by_cases hid : j = id
    · rw [hid, Function.update_self]
      exact iff_of_true rfl (.inl rfl)
    · rw [Function.update_of_ne hid, h.mem, or_iff_right hid]
  · rw [hnoted]
    by_cases hs : s.held = []
    · rw [(noteLock_first id s.basepri (hheld.trans hs)).1] at hj
      cases hj
      exact List.mem_cons_self
    · rw [(noteLock_next id s.basepri (hheld ▸ hs)).1, heldest] at hj
      exact List.mem_cons_of_mem id (h.eldest j hj)
  · rw [hnoted] at hj
    rw [hlocks]
    by_cases hs : s.held = []
    · obtain ⟨hfirst, hbase⟩ := noteLock_first id s.basepri (hheld.trans hs)
      rw [hs] at hj
      cases List.mem_singleton.mp hj
      rw [Function.update_self, hfirst, if_pos rfl, hbase]
    · obtain ⟨hfirst, hbase⟩ := noteLock_next id s.basepri (hheld ▸ hs)
      rw [hfirst, hbase, heldest, hfound]
      obtain rfl | hmem := List.mem_cons.mp hj
      · have hne : s.eldest ≠ some j := fun heq => hnew (h.eldest j heq)
        rw [Function.update_self, if_neg hne]
        exact h.masked.held hs
      · have hne : j ≠ id := fun heq => hnew (heq ▸ hmem)
        rw [Function.update_of_ne hne]
        exact h.saved j hmem

theorem Inv.unlock (h : Inv s) (hmasked : Masked ((s.unlock id context).noteUnlock id)) :
    Inv ((s.unlock id context).noteUnlock id) := by
  obtain ⟨hheld, hfound, heldest⟩ := unlock_frame s id context
  have hlocks := unlock_locks s id context
  refine ⟨hmasked, ?_, ?_, ?_, ?_⟩
  · dsimp only [State.noteUnlock]
    rw [hheld]
    exact h.nodup.erase id
  · intro j
    dsimp only [State.noteUnlock]
    rw [hheld, h.nodup.mem_erase_iff, hlocks, ← h.mem]
    by_cases hj : j = id
    · rw [hj, Function.update_self]
      simp
    · rw [Function.update_of_ne hj]
      simp [hj]
  · intro j hj
    dsimp only [State.noteUnlock] at hj ⊢
    rw [heldest] at hj
    obtain ⟨hne, hj⟩ := Option.ite_none_left_eq_some.mp hj
    rw [hheld, h.nodup.mem_erase_iff]
    exact ⟨fun heq => hne (heq ▸ hj), h.eldest j hj⟩
  · intro j hj
    dsimp only [State.noteUnlock] at hj
    rw [hheld, h.nodup.mem_erase_iff] at hj
    have hkept : ((s.unlock id context).noteUnlock id).eldest = some j ↔ s.eldest = some j := by
      dsimp only [State.noteUnlock]
      rw [heldest]
      constructor
      · exact fun heq => (Option.ite_none_left_eq_some.mp heq).2
      · intro heq
        have hne : s.eldest ≠ some id := fun hid => hj.1 (Option.some.inj (heq.symm.trans hid))
        rw [if_neg hne]
        exact heq
    refine Eq.trans ?_ (if_congr hkept hfound rfl).symm
    rw [← h.saved j hj.2]
    dsimp only [State.noteUnlock]
    rw [hlocks, Function.update_of_ne hj.1]

theorem Inv.masked_unlock_iff (h : Inv s) (hlocked : (s.locks id).locked = true) :
    Masked ((s.unlock id context).noteUnlock id) ↔ Orderly s (.unlock id context) := by
  obtain ⟨hheld, hfound, -⟩ := unlock_frame s id context
  have hmem : id ∈ s.held := (h.mem id).mp hlocked
  have hbefore : s.basepri = userNmiPriority := h.masked.held (List.ne_nil_of_mem hmem)
  have hiff : Masked ((s.unlock id context).noteUnlock id) ↔
      (s.held.erase id ≠ [] → (s.unlock id context).basepri = userNmiPriority) ∧
        (s.held.erase id = [] → (s.unlock id context).basepri = s.found) := by
    rw [← hheld, ← hfound]
    exact ⟨fun hm => ⟨hm.held, hm.free⟩, fun hm => ⟨hm.1, hm.2⟩⟩
  rw [hiff]
  cases context with
  | interrupt =>
      have hzero : (s.unlock id .interrupt).basepri = 0 := rfl
      rw [hzero]
      constructor
      · rintro ⟨hothers, hlast⟩
        have hnil : s.held.erase id = [] := by
          by_contra hne
          cases hothers hne
        exact ⟨hnil, (hlast hnil).symm⟩
      · rintro ⟨hnil, hbase⟩
        exact ⟨fun hne => absurd hnil hne, fun _ => hbase.symm⟩
  | thread =>
      rw [unlock_thread_basepri, h.saved id hmem, hbefore]
      constructor
      · rintro ⟨hothers, hlast⟩
        refine ⟨fun hne hone heq => ?_, fun hnil hone hne => ?_, fun hnil hone => ?_⟩
        · have hmask := hothers hne
          rwa [if_pos hone, if_pos heq] at hmask
        · have hmask := hlast hnil
          rw [if_pos hone, if_neg hne] at hmask
          exact hmask.symm
        · have hmask := hlast hnil
          rw [if_neg hone] at hmask
          exact hmask.symm
      · rintro ⟨hothers, heldest, hlast⟩
        refine ⟨fun hne => ?_, fun hnil => ?_⟩
        · split
          · next hone =>
              split
              · next heq => exact hothers hne hone heq
              · rfl
          · rfl
        · split
          · next hone =>
              split
              · rfl
              · next hne => exact (heldest hnil hone hne).symm
          · next hone => exact (hlast hnil hone).symm

theorem Inv.step (h : Inv s) {a : Action Id} (hs : step s a = some t) :
    (Orderly s a → Inv t) ∧ (Masked t → Orderly s a) := by
  cases a with
  | tryLock id context =>
      obtain ⟨hfree, hs⟩ := Option.ite_none_left_eq_some.mp hs
      cases hs
      exact ⟨fun _ => h.tryLock (Bool.eq_false_iff.mpr hfree), fun _ => trivial⟩
  | unlock id context =>
      obtain ⟨hlocked, hs⟩ := Option.ite_none_right_eq_some.mp hs
      cases hs
      have hiff : Masked ((s.unlock id context).noteUnlock id) ↔ Orderly s (.unlock id context) :=
        h.masked_unlock_iff hlocked
      exact ⟨fun hok => h.unlock (hiff.mpr hok), hiff.mp⟩
  | setBasepri value =>
      dsimp only [InterruptSpinLock.step] at hs
      split at hs
      · next hheld =>
          cases hs
          refine ⟨fun _ => ⟨⟨fun hne => absurd hheld hne, fun _ => rfl⟩, h.nodup, h.mem, h.eldest,
            fun id hid => ?_⟩, fun _ => trivial⟩
          dsimp only at hid
          rw [hheld] at hid
          cases hid
      · cases hs

/-- Whatever is called on however many locks, from wherever: interrupts are masked whenever a lock is
held, and as before when none is, exactly if all releases are orderly. -/
theorem masked_iff_orderly (basepri : ℕ) (acts : List (Action Id)) :
    Always InterruptSpinLock.step Masked (init basepri) acts ↔
      Meets InterruptSpinLock.step Orderly (init basepri) acts := by
  apply always_iff_meets Inv
  · exact fun _ _ _ h hok hs => (h.step hs).1 hok
  · exact fun _ h => h.masked
  · exact fun _ _ _ h hs hbad hmasked => hbad ((h.step hs).2 hmasked)
  · exact inv_init basepri

/-- Two locks that a thread releases in the order in which it has taken them. -/
theorem firstInFirstOut_not_masked :
    ¬ ∀ acts, Always InterruptSpinLock.step Masked (init 0 : State ℕ) acts := by
  intro h
  have hlast := ((((h [.tryLock 0 .thread, .tryLock 1 .thread, .unlock 0 .thread,
    .unlock 1 .thread]).2 _ rfl).2 _ rfl).2 _ rfl).2 _ rfl
  exact absurd (hlast.free rfl) (by decide)

end OpenIotSdk.InterruptSpinLock
