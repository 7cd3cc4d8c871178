import OpenIotSdk.Library.Transition
import OpenIotSdk.Model.Tfm.OsWrapper

/-! # The flag and the mutex

ThreadX creates or deletes the mutex before the flag is changed. Another thread may do the same in
between. -/

namespace OpenIotSdk.Tfm.OsWrapper

open Transition

variable {Tid : Type} {s t : State Tid} {i j : Tid} {pc : Pc}

/-! ## The specification -/

/-- What the thread is going to say of the mutex. -/
def Pc.pending : Pc → Option Bool
  | .created => some true
  | .deleted => some false
  | _ => none

/-- Nobody is going to change the flag. -/
def Settled (s : State Tid) : Prop := ∀ i, (s.pc i).pending = none

/-- The flag says whether there is a mutex, or is going to. -/
structure Truthful (s : State Tid) : Prop where
  flag : Settled s → s.wasMutexCreated = s.live
  pending : ∀ i live, (s.pc i).pending = some live → live = s.live

/-- ThreadX creates or deletes the mutex only when nobody is going to change the flag. -/
def Orderly (s : State Tid) : Action Tid → Prop
  | .advance i true =>
      (s.pc i = .create → s.live = false → Settled s) ∧ (s.pc i = .delete → s.live = true → Settled s)
  | _ => True

/-! ## Threads that leave the mutex alone -/

theorem truthful_init : Truthful (init : State Tid) := ⟨fun _ => rfl, nofun⟩

theorem Call.pending_start (call : Call) (flag : Bool) : (call.start flag).pending = none := by
  cases call <;> simp only [Call.start] <;> split <;> rfl

theorem Truthful.owned (h : Truthful s) (owner : Option (Tid × ℕ)) :
    Truthful { s with owner := owner } :=
  ⟨h.flag, h.pending⟩

theorem pending_txMutexDelete (s : State Tid) (j : Tid) :
    (s.txMutexDelete.pc j).pending = (s.pc j).pending := by
  simp only [State.txMutexDelete]
  cases s.pc j <;> rfl

/-- A thread that was going to change the flag is wrong now. -/
theorem not_truthful_of_overtaken (h : Truthful s) (hj : (s.pc j).pending ≠ none)
    (hpending : (t.pc j).pending = (s.pc j).pending) (hlive : t.live ≠ s.live) : ¬ Truthful t := by
  intro ht
  obtain ⟨live, hsome⟩ := Option.ne_none_iff_exists'.mp hj
  have hold := h.pending j live hsome
  have hnew := ht.pending j live (hpending.trans hsome)
  exact hlive (hnew.symm.trans hold)

theorem exists_pending (h : ¬ Settled s) : ∃ j, (s.pc j).pending ≠ none := by
  simpa [Settled] using h

variable [DecidableEq Tid]

theorem pc_goto : (s.goto i pc).pc i = pc := Function.update_self ..

theorem pc_goto_of_ne (hne : j ≠ i) : (s.goto i pc).pc j = s.pc j := Function.update_of_ne hne ..

theorem settled_goto (hpc : pc.pending = none) (hi : (s.pc i).pending = none) :
    Settled (s.goto i pc) ↔ Settled s := by
  refine forall_congr' fun j => ?_
  by_cases hj : j = i
  · subst hj
    rw [pc_goto, hpc, hi]
  · rw [pc_goto_of_ne hj]

theorem Truthful.goto (h : Truthful s) (hi : (s.pc i).pending = none) (hpc : pc.pending = none) :
    Truthful (s.goto i pc) := by
  refine ⟨fun hs => h.flag ((settled_goto hpc hi).mp hs), fun j live hj => ?_⟩
  by_cases hne : j = i
  · subst hne
    rw [pc_goto, hpc] at hj
    cases hj
  · rw [pc_goto_of_ne hne] at hj
    exact h.pending j live hj

theorem Truthful.take (h : Truthful s) (hi : (s.pc i).pending = none)
    (ht : s.take i = some t) : Truthful t := by
  simp only [State.take] at ht
  split at ht
  · cases ht
    exact (h.owned _).goto hi rfl
  · obtain ⟨-, ht⟩ := Option.ite_none_right_eq_some.mp ht
    cases ht
    exact (h.owned _).goto hi rfl

theorem Truthful.give (h : Truthful s) (hi : (s.pc i).pending = none) : Truthful (s.give i) := by
  unfold State.give
  split
  · split
    · exact (h.owned none).goto hi rfl
    · exact h.goto hi rfl
  · split
    · exact (h.owned _).goto hi rfl
    · exact h.goto hi rfl
  · exact h.goto hi rfl

/-! ## Threads that change it -/

/-- The mutex is created or deleted, and the flag is going to be changed. -/
theorem truthful_pending (hothers : ∀ j, j ≠ i → (t.pc j).pending = none)
    (hpc : (t.pc i).pending = some t.live) : Truthful t := by
  refine ⟨fun hs => ?_, fun j live hj => ?_⟩
  · rw [hs i] at hpc
    cases hpc
  · by_cases hne : j = i
    · subst hne
      rw [hpc] at hj
      exact (Option.some.inj hj).symm
    · rw [hothers j hne] at hj
      cases hj

theorem Truthful.write (h : Truthful s) {live : Bool} (hi : (s.pc i).pending = some live)
    (hpc : pc.pending = none) : Truthful ({ s with wasMutexCreated := live }.goto i pc) := by
  refine ⟨fun _ => h.pending i live hi, fun j v hj => ?_⟩
  by_cases hne : j = i
  · subst hne
    rw [pc_goto, hpc] at hj
    cases hj
  · rw [pc_goto_of_ne hne] at hj
    exact h.pending j v hj

theorem Truthful.advance (h : Truthful s) {ok : Bool} (hok : Orderly s (.advance i ok))
    (ht : s.advance i ok = some t) : Truthful t := by
  simp only [State.advance] at ht
  split at ht
  · cases ht
  · next hpc =>
      cases ht
      split
      · next hcreate =>
          obtain ⟨hlive, rfl⟩ := hcreate
          refine truthful_pending (i := i) (fun j hj => ?_) (by rw [pc_goto]; rfl)
          rw [pc_goto_of_ne hj]
          exact hok.1 hpc hlive j
      · exact h.goto (by rw [hpc]; rfl) rfl
  · next hpc =>
      cases ht
      exact h.write (by rw [hpc]; rfl) rfl
  · next hpc =>
      have hi : (s.pc i).pending = none := by rw [hpc]; rfl
      cases ht
      split
      · exact h.goto hi rfl
      · cases htake : s.take i with
        | none => exact h.goto hi rfl
        | some t => exact h.take hi htake
  · next hpc =>
      have hi : (s.pc i).pending = none := by rw [hpc]; rfl
      split at ht
      · exact h.take hi ht
      · split at ht
        · cases ht
        · cases ht
          exact h.goto hi rfl
  · next hpc =>
      have hi : (s.pc i).pending = none := by rw [hpc]; rfl
      cases ht
      split
      · exact h.goto hi rfl
      · exact h.give hi
  · next hpc =>
      cases ht
      split
      · next hdelete =>
          obtain ⟨hlive, rfl⟩ := hdelete
          refine truthful_pending (i := i) (fun j hj => ?_) (by rw [pc_goto]; rfl)
          rw [pc_goto_of_ne hj, pending_txMutexDelete]
          exact hok.2 hpc hlive j
      · exact h.goto (by rw [hpc]; rfl) rfl
  · next hpc =>
      cases ht
      exact h.write (by rw [hpc]; rfl) rfl

theorem Truthful.step {a : Action Tid} (h : Truthful s) (hok : Orderly s a)
    (ht : step s a = some t) : Truthful t := by
  cases a with
  | call i call =>
      simp only [OsWrapper.step] at ht
      split at ht
      · next hpc =>
          cases ht
          exact h.goto (by rw [hpc]; rfl) (call.pending_start _)
      · cases ht
  | advance i ok => exact h.advance hok ht

theorem not_truthful {a : Action Tid} (h : Truthful s) (ht : step s a = some t)
    (hbad : ¬ Orderly s a) : ¬ Truthful t := by
  cases a with
  | call i call => exact absurd trivial hbad
  | advance i ok =>
      cases ok with
      | false => exact absurd trivial hbad
      | true =>
          rcases not_and_or.mp hbad with hcreate | hdelete
          · simp only [Classical.not_imp] at hcreate
            obtain ⟨hpc, hlive, hunsettled⟩ := hcreate
            obtain ⟨j, hj⟩ := exists_pending hunsettled
            have hne : j ≠ i := by
              rintro rfl
              rw [hpc] at hj
              exact hj rfl
            simp only [OsWrapper.step, State.advance, hpc, hlive, and_self, if_true,
              Option.some.injEq] at ht
            subst ht
            refine not_truthful_of_overtaken h hj ?_ (by simp [State.goto, hlive])
            rw [pc_goto_of_ne hne]
          · simp only [Classical.not_imp] at hdelete
            obtain ⟨hpc, hlive, hunsettled⟩ := hdelete
            obtain ⟨j, hj⟩ := exists_pending hunsettled
            have hne : j ≠ i := by
              rintro rfl
              rw [hpc] at hj
              exact hj rfl
            simp only [OsWrapper.step, State.advance, hpc, hlive, and_self, if_true,
              Option.some.injEq] at ht
            subst ht
            refine not_truthful_of_overtaken h hj ?_ (by simp [State.goto, State.txMutexDelete, hlive])
            rw [pc_goto_of_ne hne, pending_txMutexDelete]

/-- In every interleaving of the threads, the flag says whether there is a mutex exactly as long as
nobody creates or deletes it before an earlier change has been noted. -/
theorem flag_always_iff (acts : List (Action Tid)) :
    Always step Truthful init acts ↔ Meets step Orderly init acts :=
  always_iff_meets Truthful (fun _ _ _ h hok ht => h.step hok ht) (fun _ h => h)
    (fun _ _ _ h ht hbad => not_truthful h ht hbad) truthful_init acts

end OpenIotSdk.Tfm.OsWrapper
