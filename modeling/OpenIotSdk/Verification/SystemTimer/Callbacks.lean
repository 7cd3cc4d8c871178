import OpenIotSdk.Model.Pigweed.SystemTimer

/-! # Calls of the user callback

While `_set` is true, the `Set` in force has not been accepted yet and `_deadline` is its
deadline. This holds for both types of timer, and whatever `osTimerStop` makes of a
stopped timer. -/

namespace OpenIotSdk.SystemTimer

open Transition

/-- The `Set` that is recorded for an accepted `Invoke` exists and asked for exactly
this deadline. -/
def Accepted.Honours (a : Accepted) (sets : List ℤ) : Prop :=
  ∃ i, a.set = some i ∧ sets[i]? = some a.deadline

/-- Each call of the callback comes no earlier than its deadline and belongs to the `Set`
that was in force when `Invoke` accepted it; no two calls belong to the same `Set`. -/
structure CallsBack (s : State) : Prop where
  due : ∀ c ∈ s.history.calls, c.deadline ≤ c.time
  honours : ∀ c ∈ s.history.calls, c.toAccepted.Honours s.history.sets
  once : (s.history.calls.map fun c => c.set).Nodup

/-- Everything accepted so far, in order: the calls made and those about to be made. -/
def State.allAccepted (s : State) : List Accepted :=
  s.history.calls.map Call.toAccepted ++ s.accepted

/-- `_set` means that the `Set` in force is still to be accepted, at `_deadline`. -/
def Armed (s : State) : Prop :=
  ∃ i, s.history.current = some i ∧ s.history.sets[i]? = some s.deadline ∧
    ∀ a ∈ s.allAccepted, a.set ≠ some i

structure Timely (s : State) : Prop where
  armed : s.halted = false → s.set = true → Armed s
  due : ∀ a ∈ s.accepted, a.deadline ≤ s.now
  called : ∀ c ∈ s.history.calls, c.deadline ≤ c.time
  honours : ∀ a ∈ s.allAccepted, a.Honours s.history.sets
  once : (s.allAccepted.map fun a => a.set).Nodup

theorem timely_init : Timely init :=
  ⟨nofun, nofun, nofun, nofun, List.nodup_nil⟩

theorem Timely.callsBack {s : State} (h : Timely s) : CallsBack s := by
  refine ⟨h.called, ?_, ?_⟩
  · intro c hc
    exact h.honours _ (List.mem_append_left _ (List.mem_map_of_mem hc))
  · have hn := h.once
    rw [State.allAccepted, List.map_append] at hn
    simpa [Function.comp_def] using (List.nodup_append.mp hn).1

theorem Timely.frame {s t : State} (h : Timely s) (hh : t.history = s.history)
    (ha : t.accepted = s.accepted) (hn : s.now ≤ t.now)
    (harmed : t.halted = false → t.set = true → Armed s ∧ t.deadline = s.deadline) :
    Timely t := by
  have hall : t.allAccepted = s.allAccepted := by rw [State.allAccepted, hh, ha]; rfl
  refine ⟨?_, ?_, by rw [hh]; exact h.called, ?_, by rw [hall]; exact h.once⟩
  · intro hhalt hset
    obtain ⟨hs, hd⟩ := harmed hhalt hset
    dsimp only [Armed]
    rw [hh, hall, hd]
    exact hs
  · intro a hmem
    rw [ha] at hmem
    exact (h.due a hmem).trans hn
  · intro a hmem
    rw [hall] at hmem
    rw [hh]
    exact h.honours a hmem

/-! ## The functions of the timer -/

/-- `Unset` keeps everything but `_set`, which it clears unless a check fails. -/
theorem unset_frame (os : Os) (s : State) :
    (unset os s).history = s.history ∧ (unset os s).accepted = s.accepted ∧
      (unset os s).now = s.now ∧ (unset os s).deadline = s.deadline ∧
      ((unset os s).halted = false → s.halted = false ∧ (unset os s).set = false) := by
  dsimp only [unset]
  split
  · split <;> simp [osTimerStop]
  · next h => simp [Bool.eq_false_iff.mpr h]

theorem unsetAfterInvoke_frame (os : Os) (s : State) :
    (unsetAfterInvoke os s).history = s.history ∧
      (unsetAfterInvoke os s).accepted = s.accepted ∧
      (unsetAfterInvoke os s).now = s.now ∧
      ((unsetAfterInvoke os s).halted = false → (unsetAfterInvoke os s).set = false) := by
  dsimp only [unsetAfterInvoke]
  split
  · obtain ⟨hh, ha, hn, _, hc⟩ := unset_frame os s
    exact ⟨hh, ha, hn, fun h => (hc h).2⟩
  · simp

theorem set_frame (os : Os) (s : State) (deadline : ℤ) :
    (set os s deadline).history = s.history ∧ (set os s deadline).accepted = s.accepted ∧
      (set os s deadline).now = s.now ∧ (set os s deadline).deadline = deadline ∧
      ((set os s deadline).halted = false → s.halted = false) := by
  obtain ⟨hh, ha, hn, hd, hc⟩ := unset_frame os { s with deadline := deadline }
  dsimp only [set]
  split
  · exact ⟨hh, ha, hn, hd, fun h => (hc h).1⟩
  · exact ⟨hh, ha, hn, hd, fun h => (hc h).1⟩

/-! ## One step -/

theorem Accepted.Honours.append {a : Accepted} {sets : List ℤ} (h : a.Honours sets)
    (more : List ℤ) : a.Honours (sets ++ more) := by
  obtain ⟨i, hi, hd⟩ := h
  exact ⟨i, hi, (List.getElem?_append_left (List.getElem?_eq_some_iff.mp hd).1).trans hd⟩

/-- A `Set` that is being recorded is not the one of anything accepted before. -/
theorem Timely.fresh {s : State} (h : Timely s) {a : Accepted} (ha : a ∈ s.allAccepted) :
    a.set ≠ some s.history.sets.length := by
  obtain ⟨i, hi, hd⟩ := h.honours a ha
  have hlt : i < s.history.sets.length := (List.getElem?_eq_some_iff.mp hd).1
  rw [hi]
  exact fun he => absurd (Option.some.inj he) (Nat.ne_of_lt hlt)

theorem Timely.set {s : State} (h : Timely s) (os : Os) (deadline : ℤ) :
    Timely { SystemTimer.set os s deadline with
      history := { s.history with
        sets := s.history.sets ++ [deadline], current := some s.history.sets.length } } := by
  obtain ⟨hh, ha, hn, hd, _⟩ := set_frame os s deadline
  have hall : (State.allAccepted { SystemTimer.set os s deadline with
      history := { s.history with
        sets := s.history.sets ++ [deadline], current := some s.history.sets.length } }) =
      s.allAccepted := by
    simp only [State.allAccepted, ha]
  refine ⟨?_, ?_, h.called, ?_, by rw [hall]; exact h.once⟩
  · intro _ _
    refine ⟨s.history.sets.length, rfl, ?_, ?_⟩
    · simp [hd]
    · rw [hall]
      exact fun a hmem => h.fresh hmem
  · intro a hmem
    change a ∈ (SystemTimer.set os s deadline).accepted at hmem
    rw [ha] at hmem
    exact (h.due a hmem).trans hn.ge
  · rw [hall]
    exact fun a hmem => (h.honours a hmem).append _

theorem Timely.unset {s : State} (h : Timely s) (os : Os) :
    Timely { SystemTimer.unset os s with
      history := { s.history with current := none } } := by
  obtain ⟨_, ha, hn, _, hc⟩ := unset_frame os s
  have hall : (State.allAccepted { SystemTimer.unset os s with
      history := { s.history with current := none } }) = s.allAccepted := by
    simp only [State.allAccepted, ha]
  refine ⟨?_, ?_, h.called, by rw [hall]; exact h.honours, by rw [hall]; exact h.once⟩
  · intro hhalt hset
    exact absurd hset (by simp [(hc hhalt).2])
  · intro a hmem
    change a ∈ (SystemTimer.unset os s).accepted at hmem
    rw [ha] at hmem
    exact (h.due a hmem).trans hn.ge

/-- Accepting the `Set` in force: `_set` is cleared and the callback will follow. -/
theorem Timely.accept {s t : State} (h : Timely s) (harmed : Armed s)
    (hdue : s.deadline ≤ s.now) (hh : t.history = s.history)
    (ha : t.accepted = s.accepted ++ [⟨s.history.current, s.deadline⟩])
    (hn : t.now = s.now) (hset : t.set = false) : Timely t := by
  obtain ⟨i, hi, hd, hnew⟩ := harmed
  have hall : t.allAccepted = s.allAccepted ++ [⟨s.history.current, s.deadline⟩] := by
    rw [State.allAccepted, hh, ha, State.allAccepted, List.append_assoc]
  refine ⟨fun _ hs => absurd hs (by simp [hset]), ?_, by rw [hh]; exact h.called, ?_, ?_⟩
  · intro a hmem
    rw [ha] at hmem
    rw [hn]
    rcases List.mem_append.mp hmem with hmem | hmem
    · exact h.due a hmem
    · rw [List.mem_singleton.mp hmem]
      exact hdue
  · intro a hmem
    rw [hall] at hmem
    rw [hh]
    rcases List.mem_append.mp hmem with hmem | hmem
    · exact h.honours a hmem
    · rw [List.mem_singleton.mp hmem]
      exact ⟨i, hi, hd⟩
  · rw [hall, List.map_append]
    refine List.nodup_append.mpr ⟨h.once, List.nodup_singleton _, ?_⟩
    intro x hx y hy
    obtain ⟨a, hmem, rfl⟩ := List.mem_map.mp hx
    rw [List.map_singleton, List.mem_singleton] at hy
    rw [hy, hi]
    exact hnew a hmem

theorem Timely.invoke {s : State} (h : Timely s) (hhalt : s.halted = false) (os : Os)
    (elapsed : ℕ) : Timely (SystemTimer.invoke os s elapsed) := by
  dsimp only [SystemTimer.invoke]
  split
  · exact h
  · next hset =>
      have harmed : Armed s := h.armed hhalt (by simpa using hset)
      split
      · obtain ⟨hh, ha, hn, hd, _⟩ := set_frame os { s with now := s.now + elapsed } s.deadline
        exact h.frame hh ha (by rw [hn]; exact le_add_of_nonneg_right (Int.natCast_nonneg _))
          (fun _ _ => ⟨harmed, hd⟩)
      · next hdue =>
          obtain ⟨hh, ha, hn, hc⟩ := unsetAfterInvoke_frame os s
          split
          · next hx => exact h.frame hh ha hn.ge (fun hf => absurd hf (by simp [hx]))
          · next hx =>
              refine h.accept harmed (not_lt.mp hdue) hh ?_ hn (hc (by simpa using hx))
              rw [ha, hh]

theorem Timely.callback {s : State} (h : Timely s) {a : Accepted} {rest : List Accepted}
    (ha : s.accepted = a :: rest) :
    Timely { s with
      accepted := rest
      history := { s.history with calls := s.history.calls ++ [⟨a, s.now⟩] } } := by
  have hall : (State.allAccepted { s with
      accepted := rest
      history := { s.history with calls := s.history.calls ++ [⟨a, s.now⟩] } }) =
      s.allAccepted := by
    simp [State.allAccepted, ha]
  refine ⟨?_, ?_, ?_, by rw [hall]; exact h.honours, by rw [hall]; exact h.once⟩
  · intro hhalt hset
    dsimp only [Armed]
    rw [hall]
    exact h.armed hhalt hset
  · exact fun b hb => h.due b (by rw [ha]; exact List.mem_cons_of_mem _ hb)
  · intro c hc
    rcases List.mem_append.mp hc with hc | hc
    · exact h.called c hc
    · rw [List.mem_singleton.mp hc]
      exact h.due a (by rw [ha]; exact List.mem_cons_self)

theorem Timely.step {os : Os} {s s' : State} {a : Action} (hs : Timely s)
    (h : step os s a = some s') : Timely s' := by
  rw [SystemTimer.step.eq_def] at h
  obtain ⟨hx, h⟩ := Option.ite_none_left_eq_some.mp h
  have hhalt : s.halted = false := by simpa using hx
  cases a with
  | tick n =>
      cases h
      exact hs.frame rfl rfl (le_add_of_nonneg_right (Int.natCast_nonneg _))
        (fun hf hset => ⟨hs.armed hf hset, rfl⟩)
  | set deadline => cases h; exact hs.set os deadline
  | unset => cases h; exact hs.unset os
  | expire =>
      obtain ⟨-, h⟩ := Option.ite_none_right_eq_some.mp h
      cases h
      dsimp only [expire]
      split <;> exact hs.frame rfl rfl le_rfl (fun hf hset => ⟨hs.armed hf hset, rfl⟩)
  | invoke elapsed =>
      obtain ⟨-, h⟩ := Option.ite_none_right_eq_some.mp h
      cases h
      have hd : Timely { s with pending := s.pending - 1 } :=
        hs.frame rfl rfl le_rfl (fun hf hset => ⟨hs.armed hf hset, rfl⟩)
      exact hd.invoke hhalt os elapsed
  | callback =>
      simp only at h
      split at h
      · cases h
      · next ha => cases h; exact hs.callback ha

/-- For either type of timer, any treatment of a stopped timer by `osTimerStop` and any
sequence of steps, the callback is called back correctly. -/
theorem callsBack_always (os : Os) (acts : List Action) : Always (step os) CallsBack init acts :=
  Always.of_inductive Timely (fun _ _ _ hs h => hs.step h)
    (fun _ hs => hs.callsBack) timely_init acts

end OpenIotSdk.SystemTimer
