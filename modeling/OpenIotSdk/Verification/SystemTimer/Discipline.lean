import OpenIotSdk.Model.Pigweed.SystemTimer

/-! # Use of the OS timer

`_set` follows the OS timer only while no expiry waits for its `Invoke`. A one-shot
timer is stopped by its expiry, and the `_set` of that moment makes `Set` and `Unset`
stop it again. -/

namespace OpenIotSdk.SystemTimer

open Transition

/-- `osTimerStop` was called on running timers only, and no `PW_CHECK` failed. -/
def NoMisuse (s : State) : Prop := s.badStops = 0 ∧ s.halted = false

instance (s : State) : Decidable (NoMisuse s) := inferInstanceAs (Decidable (_ ∧ _))

/-- On a one-shot timer, `Set` and `Cancel` are called while no expiry waits for its
`Invoke`, and an `Invoke` of a set timer runs no earlier than the deadline. -/
def Disciplined (os : Os) (s : State) : Action → Prop
  | .set _ | .unset => os.timerType = .once → s.pending = 0
  | .invoke _ => os.timerType = .once → s.set = true → s.deadline ≤ s.now
  | _ => True

instance (os : Os) (s : State) : ∀ a, Decidable (Disciplined os s a)
  | .set _ | .unset => inferInstanceAs (Decidable (_ → _))
  | .invoke _ => inferInstanceAs (Decidable (_ → _ → _))
  | .tick _ | .expire | .callback => isTrue trivial

/-- `_set` tells whether the timer runs, except between the expiry of a one-shot timer
and its `Invoke`. -/
structure Shadow (os : Os) (s : State) : Prop where
  noMisuse : NoMisuse s
  periodic : os.timerType = .periodic → s.running = s.set
  armed : os.timerType = .once → s.running = (s.set && (s.pending == 0))
  pending : os.timerType = .once → s.pending ≤ s.set.toNat

theorem shadow_init (os : Os) : Shadow os init :=
  ⟨⟨rfl, rfl⟩, fun _ => rfl, fun _ => rfl, fun _ => Nat.zero_le _⟩

/-- A timer may be stopped when it runs or `_set` is false. -/
def Stoppable (s : State) : Prop := s.set = true → s.running = true

theorem Shadow.stoppable {os : Os} {s : State} (hs : Shadow os s)
    (hp : os.timerType = .once → s.pending = 0) : Stoppable s := by
  intro hset
  cases ht : os.timerType with
  | once => simp [hs.armed ht, hset, hp ht]
  | periodic => rw [hs.periodic ht, hset]

theorem unset_of_stoppable (os : Os) {s : State} (h : Stoppable s) :
    unset os s = { s with set := false, running := s.running && !s.set } := by
  cases hset : s.set with
  | false => simp [unset, hset]; cases s; simp_all
  | true => simp [unset, hset, osTimerStop, h hset]

theorem set_of_stoppable (os : Os) {s : State} (h : Stoppable s) (hh : s.halted = false)
    (deadline : ℤ) :
    set os s deadline =
      osTimerStart { s with deadline := deadline, set := true }
        (clampTicks deadline s.now) := by
  have hu := unset_of_stoppable os (s := { s with deadline := deadline }) h
  dsimp only [set]
  rw [hu]
  simp [hh, osTimerStart]

theorem unset_misuse (os : Os) {s : State} (hset : s.set = true) (hr : s.running = false) :
    0 < (unset os s).badStops := by
  simp only [unset, hset, hr, osTimerStop, Bool.false_or, if_true]
  split <;> simp

theorem set_misuse (os : Os) {s : State} (hset : s.set = true) (hr : s.running = false)
    (deadline : ℤ) : 0 < (set os s deadline).badStops := by
  have h : 0 < (unset os { s with deadline := deadline }).badStops := unset_misuse os hset hr
  simp only [set]
  split
  · exact h
  · exact h

/-! ## Preservation -/

theorem Shadow.unset {os : Os} {s : State} (hs : Shadow os s)
    (hp : os.timerType = .once → s.pending = 0) :
    Shadow os (SystemTimer.unset os s) := by
  rw [unset_of_stoppable os (hs.stoppable hp)]
  refine ⟨hs.noMisuse, ?_, ?_, ?_⟩
  · intro ht
    simp [hs.periodic ht]
  · intro ht
    simp +contextual [hs.armed ht]
  · intro ht
    simp [hp ht]

theorem Shadow.set {os : Os} {s : State} (hs : Shadow os s)
    (hp : os.timerType = .once → s.pending = 0) (deadline : ℤ) :
    Shadow os (SystemTimer.set os s deadline) := by
  rw [set_of_stoppable os (hs.stoppable hp) hs.noMisuse.2]
  refine ⟨hs.noMisuse, fun _ => rfl, ?_, ?_⟩
  · intro ht
    simp [osTimerStart, hp ht]
  · intro ht
    simp [osTimerStart, hp ht]

theorem Shadow.expire {os : Os} {s : State} (hs : Shadow os s) (hr : s.running = true) :
    Shadow os (SystemTimer.expire os s) := by
  cases ht : os.timerType with
  | once =>
      have ha : s.set = true ∧ s.pending = 0 := by simpa [hr] using hs.armed ht
      refine ⟨by simpa [SystemTimer.expire, ht, NoMisuse] using hs.noMisuse, ?_, ?_, ?_⟩ <;>
        simp [SystemTimer.expire, ht, ha]
  | periodic =>
      refine ⟨by simpa [SystemTimer.expire, ht, NoMisuse] using hs.noMisuse, ?_, ?_, ?_⟩ <;>
        simp [SystemTimer.expire, ht, hs.periodic ht]

/-- Taking a pending expiry of a periodic timer leaves `_set` and the timer alone. -/
theorem Shadow.dequeue {os : Os} {s : State} (hs : Shadow os s)
    (ht : os.timerType = .periodic) (now : ℤ) :
    Shadow os { s with pending := s.pending - 1, now := now } :=
  ⟨hs.noMisuse, hs.periodic, fun h => by simp [ht] at h, fun h => by simp [ht] at h⟩

theorem Shadow.invoke {os : Os} {s : State} (hs : Shadow os s) (hpos : 0 < s.pending)
    (elapsed : ℕ) (hok : Disciplined os s (.invoke elapsed)) :
    Shadow os (SystemTimer.invoke os { s with pending := s.pending - 1 } elapsed) := by
  have hh : s.halted = false := hs.noMisuse.2
  cases ht : os.timerType with
  | periodic =>
      have hd : Shadow os { s with pending := s.pending - 1 } := hs.dequeue ht s.now
      have hu : Shadow os (SystemTimer.unset os { s with pending := s.pending - 1 }) :=
        hd.unset (by simp [ht])
      dsimp only [SystemTimer.invoke]
      split
      · exact hd
      · split
        · exact (hs.dequeue ht _).set (by simp [ht]) _
        · simp only [unsetAfterInvoke, ht]
          split
          · exact hu
          · exact ⟨hu.noMisuse, hu.periodic, hu.armed, hu.pending⟩
  | once =>
      have hone : s.set = true ∧ s.pending = 1 := by
        have hle : s.pending ≤ s.set.toNat := hs.pending ht
        cases hset : s.set with
        | true => exact ⟨rfl, le_antisymm (by simpa [hset] using hle) hpos⟩
        | false => rw [hset] at hle; exact absurd hpos (not_lt.mpr hle)
      have hr : s.running = false := by simp [hs.armed ht, hone]
      have hdue : ¬ s.now < s.deadline := not_lt.mpr (hok ht hone.1)
      have hdone : Shadow os { s with pending := s.pending - 1, set := false } :=
        ⟨hs.noMisuse, fun h => by simp [ht] at h, fun _ => by simp [hr],
          fun _ => by simp [hone.2]⟩
      dsimp only [SystemTimer.invoke]
      rw [if_neg (by simp [hone.1]), if_neg hdue]
      simp only [unsetAfterInvoke, ht]
      split
      · exact hdone
      · exact ⟨hdone.noMisuse, hdone.periodic, hdone.armed, hdone.pending⟩

theorem Shadow.step {os : Os} {s s' : State} {a : Action} (hs : Shadow os s)
    (hok : Disciplined os s a) (h : step os s a = some s') : Shadow os s' := by
  have hh : s.halted = false := hs.noMisuse.2
  rw [SystemTimer.step.eq_def, if_neg (by simp [hh])] at h
  cases a with
  | tick n => cases h; exact ⟨hs.noMisuse, hs.periodic, hs.armed, hs.pending⟩
  | set deadline =>
      cases h
      have hs' := hs.set hok deadline
      exact ⟨hs'.noMisuse, hs'.periodic, hs'.armed, hs'.pending⟩
  | unset =>
      cases h
      have hs' := hs.unset hok
      exact ⟨hs'.noMisuse, hs'.periodic, hs'.armed, hs'.pending⟩
  | expire =>
      obtain ⟨hr, h⟩ := Option.ite_none_right_eq_some.mp h
      cases h
      exact hs.expire hr.1
  | invoke elapsed =>
      obtain ⟨hpos, h⟩ := Option.ite_none_right_eq_some.mp h
      cases h
      exact hs.invoke hpos elapsed hok
  | callback =>
      simp only at h
      split at h
      · cases h
      · cases h; exact ⟨hs.noMisuse, hs.periodic, hs.armed, hs.pending⟩

/-- A `Set`, `Cancel` or early `Invoke` between the expiry of a one-shot timer and the
end of its `Invoke` stops a timer that does not run. -/
theorem misuse_of_not_disciplined {os : Os} {s s' : State} {a : Action}
    (hs : Shadow os s) (h : step os s a = some s') (hbad : ¬ Disciplined os s a) :
    ¬ NoMisuse s' := by
  have hh : s.halted = false := hs.noMisuse.2
  have hstopped : os.timerType = .once → s.pending ≠ 0 → s.set = true ∧ s.running = false := by
    intro ht hp
    have hle : s.pending ≤ s.set.toNat := hs.pending ht
    have hset : s.set = true := by
      cases hset : s.set with
      | true => rfl
      | false => rw [hset] at hle; exact absurd (Nat.le_zero.mp hle) hp
    exact ⟨hset, by simp [hs.armed ht, hp]⟩
  rw [SystemTimer.step.eq_def, if_neg (by simp [hh])] at h
  cases a with
  | tick | expire | callback => exact absurd trivial hbad
  | set deadline =>
      cases h
      simp only [Disciplined, Classical.not_imp] at hbad
      obtain ⟨hset, hr⟩ := hstopped hbad.1 hbad.2
      exact fun hn => absurd hn.1 (Nat.pos_iff_ne_zero.mp (set_misuse os hset hr deadline))
  | unset =>
      cases h
      simp only [Disciplined, Classical.not_imp] at hbad
      obtain ⟨hset, hr⟩ := hstopped hbad.1 hbad.2
      exact fun hn => absurd hn.1 (Nat.pos_iff_ne_zero.mp (unset_misuse os hset hr))
  | invoke elapsed =>
      obtain ⟨hpos, h⟩ := Option.ite_none_right_eq_some.mp h
      cases h
      simp only [Disciplined, Classical.not_imp, not_le] at hbad
      obtain ⟨ht, hset, hearly⟩ := hbad
      have hr : s.running = false := (hstopped ht (Nat.pos_iff_ne_zero.mp hpos)).2
      have hmis := set_misuse os (s := { s with
        pending := s.pending - 1, now := s.now + elapsed }) hset hr s.deadline
      intro hn
      dsimp only [SystemTimer.invoke] at hn
      rw [if_neg (by simp [hset]), if_pos hearly] at hn
      exact absurd hn.1 (Nat.pos_iff_ne_zero.mp hmis)

/-- For either type of timer and any sequence of steps, the OS timer is never misused
exactly when the run is disciplined. -/
theorem noMisuse_iff_disciplined (os : Os) (acts : List Action) :
    Always (step os) NoMisuse init acts ↔ Meets (step os) (Disciplined os) init acts :=
  always_iff_meets (Shadow os) (fun _ _ _ hs hok h => hs.step hok h)
    (fun _ hs => hs.noMisuse) (fun _ _ _ hs h hbad => misuse_of_not_disciplined hs h hbad)
    (shadow_init os) acts

/-- One far deadline on RTX: the first expiry comes at the clamped wait, before the
deadline, and the `Set` inside `Invoke` stops the expired timer. -/
def farDeadline : List Action :=
  [.set (2 ^ 33), .tick (2 ^ 32), .expire, .invoke 0]

theorem farDeadline_misuse :
    ¬ ∀ (acts : List Action) (s : State), run (step rtx) init acts = some s → NoMisuse s := by
  intro h
  have hn := h farDeadline _ rfl
  revert hn
  decide

/-- A periodic timer is never misused. -/
theorem noMisuse_periodic {os : Os} (ht : os.timerType = .periodic) (acts : List Action) :
    Always (step os) NoMisuse init acts := by
  refine Always.of_inductive (Shadow os) ?_ (fun _ hs => hs.noMisuse)
    (shadow_init os) acts
  intro s a s' hs h
  refine hs.step ?_ h
  cases a <;> simp [Disciplined, ht]

end OpenIotSdk.SystemTimer
