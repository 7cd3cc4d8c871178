import OpenIotSdk.Library.Transition
import OpenIotSdk.Model.Lwip.Receive

/-! # Delivery of received frames

The semaphore forgets how often it was signalled, so the task must fetch until the EMAC has
no frame left. It stops earlier when the pool has no pbuf for a frame. -/

namespace OpenIotSdk.Lwip.Receive

open Transition

/-- The EMAC holds no frame that was announced. -/
def Drained (s : State) : Prop := ∀ frame ∈ s.announced, frame < s.fetched

instance (s : State) : Decidable (Drained s) :=
  inferInstanceAs (Decidable (∀ frame ∈ s.announced, frame < s.fetched))

/-- While the task waits for a semaphore that is not set, the EMAC holds no frame that was
announced. -/
def NoneStranded (s : State) : Prop := s.pc = .wait → s.semaphore = false → Drained s

/-- An allocation fails only while the semaphore is set again or no other frame was announced. -/
def Excused (s : State) : Action → Prop
  | .arrive | .interrupt _ _ => True
  | .advance ok => s.pc = .alloc → ok = false → s.semaphore = true ∨ Drained s

instance (s : State) (a : Action) : Decidable (Excused s a) :=
  match a with
  | .arrive | .interrupt _ _ => isTrue trivial
  | .advance _ => inferInstanceAs (Decidable (_ → _ → _))

/-! ## The frames -/

def Pc.held : Pc → List ℕ
  | .wait | .receive | .alloc => []
  | .input buf | .free buf => [buf]

structure Inv (s : State) : Prop where
  announced : ∀ frame ∈ s.announced, frame < s.arrived
  fetched : s.fetched ≤ s.arrived
  pool : s.pool.Balanced s.pc.held -- lwIP or `free` gets every other pbuf, once

theorem inv_init : Inv init where
  announced := List.forall_mem_nil _
  fetched := Nat.le_refl 0
  pool := Ledger.balanced_empty

theorem Inv.advance {s t : State} {ok : Bool} (h : Inv s) (hs : s.advance ok = some t) :
    Inv t := by
  dsimp only [State.advance] at hs
  have hpool := h.pool
  cases hpc : s.pc with
  | wait =>
      rw [hpc] at hs hpool
      obtain ⟨_, hs⟩ := Option.ite_none_right_eq_some.mp hs
      cases hs
      exact ⟨h.announced, h.fetched, hpool⟩
  | receive =>
      rw [hpc] at hs hpool
      cases hs
      by_cases hlt : s.fetched < s.arrived
      · rw [if_pos hlt]
        exact ⟨h.announced, hlt, hpool⟩
      · rw [if_neg hlt]
        exact ⟨h.announced, h.fetched, hpool⟩
  | alloc =>
      rw [hpc] at hs hpool
      cases hs
      cases ok with
      | true => exact ⟨h.announced, h.fetched, hpool.issue (List.Perm.refl _)⟩
      | false => exact ⟨h.announced, h.fetched, hpool⟩
  | input buf =>
      rw [hpc] at hs hpool
      cases hs
      cases ok with
      | true => exact ⟨h.announced, h.fetched, hpool.settle (List.Perm.refl _)⟩
      | false => exact ⟨h.announced, h.fetched, hpool⟩
  | free buf =>
      rw [hpc] at hs hpool
      cases hs
      exact ⟨h.announced, h.fetched, hpool.settle (List.Perm.refl _)⟩

theorem Inv.step {s t : State} {a : Action} (h : Inv s) (hs : Receive.step s a = some t) :
    Inv t := by
  cases a with
  | arrive =>
      cases hs
      exact ⟨fun frame hframe => Nat.lt_succ_of_lt (h.announced frame hframe),
        Nat.le_succ_of_le h.fetched, h.pool⟩
  | interrupt frame done =>
      dsimp only [Receive.step, State.ethernetifInput] at hs
      cases done with
      | false =>
          cases hs
          exact h
      | true =>
          obtain ⟨hlt, hs⟩ := Option.ite_none_right_eq_some.mp hs
          cases hs
          exact ⟨List.forall_mem_cons.mpr ⟨hlt, h.announced⟩, h.fetched, h.pool⟩
  | advance ok => exact h.advance hs

/-! ## The frames left behind -/

theorem noneStranded_of_ne {s : State} (h : s.pc ≠ .wait) : NoneStranded s :=
  fun hpc => absurd hpc h

theorem excused_of_ne {s : State} (h : s.pc ≠ .alloc) (ok : Bool) : Excused s (.advance ok) :=
  fun hpc => absurd hpc h

theorem noneStranded_interrupt {s t : State} {frame : ℕ} {done : Bool} (h : NoneStranded s)
    (hs : s.ethernetifInput frame done = some t) : NoneStranded t := by
  dsimp only [State.ethernetifInput] at hs
  cases done with
  | false =>
      cases hs
      exact h
  | true =>
      obtain ⟨-, hs⟩ := Option.ite_none_right_eq_some.mp hs
      cases hs
      intro _ hsemaphore
      cases hsemaphore

theorem advance_noneStranded_iff {s t : State} {ok : Bool} (h : Inv s)
    (hs : s.advance ok = some t) : NoneStranded t ↔ Excused s (.advance ok) := by
  dsimp only [State.advance] at hs
  cases hpc : s.pc with
  | wait =>
      rw [hpc] at hs
      obtain ⟨-, hs⟩ := Option.ite_none_right_eq_some.mp hs
      cases hs
      exact iff_of_true (noneStranded_of_ne (by simp)) (excused_of_ne (by simp [hpc]) ok)
  | receive =>
      rw [hpc] at hs
      refine iff_of_true ?_ (excused_of_ne (by simp [hpc]) ok)
      cases hs
      by_cases hlt : s.fetched < s.arrived
      · rw [if_pos hlt]
        exact noneStranded_of_ne (by simp)
      · rw [if_neg hlt]
        intro _ _
        -- The EMAC is empty, so every frame that was announced has been fetched.
        exact fun frame hframe => Nat.lt_of_lt_of_le (h.announced frame hframe) (Nat.not_lt.mp hlt)
  | alloc =>
      rw [hpc] at hs
      cases hs
      cases ok with
      | true => simp [NoneStranded, Excused]
      | false =>
          simp only [NoneStranded, Excused, Drained, hpc, Bool.false_eq_true, if_false, true_imp_iff]
          cases s.semaphore <;> simp
  | input buf =>
      rw [hpc] at hs
      refine iff_of_true ?_ (excused_of_ne (by simp [hpc]) ok)
      cases hs
      cases ok with
      | true => exact noneStranded_of_ne (by simp)
      | false => exact noneStranded_of_ne (by simp)
  | free buf =>
      rw [hpc] at hs
      cases hs
      exact iff_of_true (noneStranded_of_ne (by simp)) (excused_of_ne (by simp [hpc]) ok)

theorem step_noneStranded_iff {s t : State} {a : Action} (hinv : Inv s) (h : NoneStranded s)
    (hs : step s a = some t) : NoneStranded t ↔ Excused s a := by
  cases a with
  | arrive =>
      cases hs
      exact iff_of_true h trivial
  | interrupt frame done => exact iff_of_true (noneStranded_interrupt h hs) trivial
  | advance ok => exact advance_noneStranded_iff hinv hs

/-! ## Runs -/

/-- In any interleaving of frames, interrupts and the task, whatever the pool and lwIP
answer: no frame is stranded if and only if every failed allocation is excused. -/
theorem noneStranded_iff_excused (acts : List Action) :
    Always step NoneStranded init acts ↔ Meets step Excused init acts := by
  apply always_iff_meets fun s => Inv s ∧ NoneStranded s
  · intro s a t h hok hs
    exact ⟨h.1.step hs, (step_noneStranded_iff h.1 h.2 hs).mpr hok⟩
  · exact fun s h => h.2
  · intro s a t h hs hn ht
    exact hn ((step_noneStranded_iff h.1 h.2 hs).mp ht)
  · exact ⟨inv_init, fun _ _ => List.forall_mem_nil _⟩

/-- Two frames share one signal, and there is no pbuf for the first. -/
def exhausted : List Action :=
  [.arrive, .interrupt 0 true, .arrive, .interrupt 1 true, .advance true, .advance true,
    .advance false]

theorem exhausted_stranded :
    ¬ ∀ acts s, run step init acts = some s → NoneStranded s := by
  intro h
  have hlt : 1 < 1 := h exhausted _ rfl rfl rfl 1 (by decide)
  exact absurd hlt (by decide)

end OpenIotSdk.Lwip.Receive
