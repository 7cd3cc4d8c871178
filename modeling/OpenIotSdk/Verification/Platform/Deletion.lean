import OpenIotSdk.Verification.Platform.Semantics

/-! # The deletions of the mutex and the event flags

The network task keeps `network_state_callback`, and the handles keep their values when the objects
are deleted. -/

namespace OpenIotSdk.Azure.Platform

open Transition

/-- Nothing has been misused, and no callback that comes later will misuse anything. -/
def Safe (b : Build) (s : Platform) : Prop :=
  ∀ acts t, (∀ a ∈ acts, Action.Late a) → run (step b) s acts = some t → t.misused = false

/-- A callback can set the event flags, now or later. -/
def Exposed (s : Platform) : Prop :=
  s.listening = true ∨ s.callback = .set ∨ s.started = true ∧ s.lock = .live

/-- Nothing is deleted twice, the mutex is deleted only if the network task has not been started,
and the event flags only if no callback can set them. -/
structure Deletable (s : Platform) (a : Action) : Prop where
  lock : ∀ res, a = .main res → s.pc = .lockDelete →
    s.lock ≠ .deleted ∧ (s.lock = .live → res = 0 → s.started = false)
  flags : ∀ res, a = .main res → s.pc = .flagsDelete ∨ s.pc = .flagsDeleteEarly →
    s.flags ≠ .deleted ∧ (s.flags = .live → res = 0 → ¬ s.Exposed)

/-! ## The invariant -/

/-- The calls between the creation of the mutex and the cleanup. -/
def Pc.NeedsLock : Pc → Prop
  | .ntpInit | .startNetwork | .check | .waitNetwork | .clearNetwork | .recheck | .addListener
  | .ntpStart | .waitTime | .clearTime | .clearListeners => True
  | .idle | .flagsNew | .lockNew | .flagsDeleteEarly | .ntpDeinit | .lockDelete
  | .flagsDelete => False

structure Guarded (s : Platform) : Prop where
  misused : s.misused = false
  started : s.started = true → s.lock ≠ .deleted
  exposed : s.Exposed → s.flags ≠ .deleted
  lock : s.pc.NeedsLock → s.lock = .live
  flags : s.pc.NeedsLock ∨ s.pc = .lockNew → s.flags = .live

variable {b : Build} {s t : Platform}

theorem guarded_init : init.Guarded :=
  ⟨rfl, nofun, fun _ => nofun, False.elim, fun h => by rcases h with h | h <;> cases h⟩

theorem use_misused {handle : Ntp.Handle} (h : s.misused = false) (hne : handle ≠ .deleted) :
    (s.use handle).misused = false := by
  simp [use, h, hne]

theorem Guarded.congr (h : s.Guarded)
    (hobjects : t.flags = s.flags ∧ t.lock = s.lock ∧ t.misused = s.misused)
    (hexposed : t.Exposed → s.Exposed) (hstarted : t.started = true → s.started = true)
    (hpc : t.pc.NeedsLock ∨ t.pc = .lockNew → s.pc.NeedsLock) : t.Guarded := by
  obtain ⟨hflags, hlock, hmisused⟩ := hobjects
  refine ⟨?_, ?_, ?_, ?_, ?_⟩
  · exact hmisused.trans h.misused
  · rw [hlock]
    exact fun ht => h.started (hstarted ht)
  · rw [hflags]
    exact fun ht => h.exposed (hexposed ht)
  · rw [hlock]
    exact fun ht => h.lock (hpc (Or.inl ht))
  · rw [hflags]
    exact fun ht => h.flags (Or.inl (hpc ht))

/-! ## The callbacks -/

theorem Guarded.late {a : Action} (h : s.Guarded) (hs : step b s a = some t) (ha : a.Late) :
    t.Guarded := by
  have hmain := step_late_main hs ha
  have hkeep : t.misused = false → (t.callback = .set → s.Exposed) → t.Guarded := by
    intro hmisused hset
    have hflags : t.flags = s.flags := congrArg Main.flags hmain
    have hlock : t.lock = s.lock := congrArg Main.lock hmain
    have hpc : t.pc = s.pc := congrArg Main.pc hmain
    have hstarted : t.started = s.started := congrArg Main.started hmain
    have hlistening : t.listening = s.listening := congrArg Main.listening hmain
    refine ⟨hmisused, ?_, ?_, ?_, ?_⟩
    · rw [hstarted, hlock]
      exact h.started
    · rw [hflags]
      rintro (ht | ht | ⟨ht, hlive⟩)
      · exact h.exposed (Or.inl (hlistening ▸ ht))
      · exact h.exposed (hset ht)
      · exact h.exposed (Or.inr (Or.inr ⟨hstarted ▸ ht, hlock ▸ hlive⟩))
    · rw [hpc, hlock]
      exact h.lock
    · rw [hpc, hflags]
      exact h.flags
  cases a with
  | init => exact ha.elim
  | deinit => exact ha.elim
  | main res => exact ha.elim
  | network up res =>
      obtain ⟨⟨hstarted, -⟩, hs⟩ := Option.ite_none_right_eq_some.mp hs
      cases hs
      dsimp only [networkStateCallback] at hkeep ⊢
      by_cases hlive : s.lock = .live ∧ res = 0
      · simp only [if_pos hlive] at hkeep ⊢
        have hexposed : s.Exposed := Or.inr (Or.inr ⟨hstarted, hlive.1⟩)
        split
        · rw [if_pos ‹_›] at hkeep
          exact hkeep h.misused fun _ => hexposed
        · rw [if_neg ‹_›] at hkeep
          exact hkeep h.misused fun hset => by cases hset
      · rw [if_neg hlive] at hkeep ⊢
        exact hkeep (use_misused h.misused (h.started hstarted)) fun hset => Or.inr (Or.inl hset)
  | callback res =>
      change s.callbackAdvance res = some t at hs
      cases hcallback : s.callback with
      | idle => simp [callbackAdvance, hcallback] at hs
      | set =>
          simp only [callbackAdvance, hcallback, Option.some.injEq] at hs
          subst hs
          have hexposed : s.Exposed := Or.inr (Or.inl hcallback)
          by_cases hlive : s.flags = .live ∧ 0 ≤ res
          · rw [if_pos hlive] at hkeep ⊢
            exact hkeep h.misused fun hset => by cases hset
          · rw [if_neg hlive] at hkeep ⊢
            exact hkeep (use_misused h.misused (h.exposed hexposed)) fun hset => by cases hset
      | release =>
          simp only [callbackAdvance, hcallback, Option.some.injEq] at hs
          subst hs
          exact hkeep h.misused fun hset => by cases hset
  | listener res =>
      obtain ⟨hlistening, hs⟩ := Option.ite_none_right_eq_some.mp hs
      cases hs
      dsimp only [ntpListenerCallback] at hkeep ⊢
      by_cases hlive : s.flags = .live ∧ 0 ≤ res
      · rw [if_pos hlive] at hkeep ⊢
        exact hkeep h.misused fun hset => Or.inr (Or.inl hset)
      · rw [if_neg hlive] at hkeep ⊢
        exact hkeep (use_misused h.misused (h.exposed (Or.inl hlistening)))
          fun hset => Or.inr (Or.inl hset)

theorem Guarded.safe (h : s.Guarded) : Safe b s := by
  intro acts
  induction acts generalizing s with
  | nil =>
      intro t _ hr
      cases hr
      exact h.misused
  | cons a acts ih =>
      intro t hlate hr
      obtain ⟨u, hu, hr⟩ := Option.bind_eq_some_iff.mp hr
      have hlate' : a.Late ∧ ∀ a ∈ acts, a.Late := List.forall_mem_cons.mp hlate
      exact ih (h.late hu hlate'.1) t hlate'.2 hr

/-! ## `platform_init` and `platform_deinit` -/

theorem not_needsLock_deinitPc (b : Build) :
    ¬ ((deinitPc b).NeedsLock ∨ deinitPc b = .lockNew) := by
  dsimp only [deinitPc]
  split <;> rintro (hpc | hpc) <;> cases hpc

theorem Guarded.cleanup (h : s.Guarded) (res : ℤ) : (s.cleanup b res).Guarded :=
  h.congr ⟨rfl, rfl, rfl⟩ id id fun hpc => absurd hpc (not_needsLock_deinitPc b)

theorem Guarded.proceed (h : s.Guarded) (hpc : s.pc.NeedsLock) (res : ℤ) :
    (s.proceed b res).Guarded := by
  dsimp only [Platform.proceed]
  split
  · exact h.congr ⟨rfl, rfl, rfl⟩ id id fun _ => hpc
  · exact h.congr ⟨rfl, rfl, rfl⟩ id id fun _ => hpc

theorem Guarded.waitForEvent (h : s.Guarded) (hpc : s.pc.NeedsLock) {flag : Bool} {res : ℤ}
    {pc : Pc} (hs : s.waitForEvent b flag res pc = some t) : t.Guarded := by
  dsimp only [Platform.waitForEvent] at hs
  split at hs
  · cases hs
    exact h.cleanup b.failure
  · obtain ⟨-, hs⟩ := Option.ite_none_right_eq_some.mp hs
    cases hs
    exact h.congr ⟨rfl, rfl, rfl⟩ id id fun _ => hpc

/-- Between the creation of the mutex and the cleanup, both objects live. -/
theorem Guarded.working (h : s.Guarded) (hneeds : s.pc.NeedsLock) {res : ℤ}
    (hs : s.advance b res = some t) : t.Guarded := by
  have hlock := h.lock hneeds
  have hflags := h.flags (Or.inl hneeds)
  have hmove : ∀ {u : Platform}, u.flags = s.flags ∧ u.lock = s.lock ∧ u.misused = s.misused →
      (u.Exposed → s.Exposed) → (u.started = true → s.started = true) → u.Guarded :=
    fun hobjects hexposed hstarted => h.congr hobjects hexposed hstarted fun _ => hneeds
  cases hpc : s.pc with
  | idle | flagsNew | lockNew | flagsDeleteEarly | ntpDeinit | lockDelete | flagsDelete =>
      rw [hpc] at hneeds
      exact hneeds.elim
  | ntpInit | ntpStart =>
      simp only [advance, hpc, Option.some.injEq] at hs
      subst hs
      split
      · exact hmove ⟨rfl, rfl, rfl⟩ id id
      · exact h.cleanup res
  | startNetwork =>
      simp only [advance, hpc, Option.some.injEq] at hs
      subst hs
      split
      · -- The callbacks start with both objects alive.
        exact ⟨h.misused, fun _ => hlock.trans_ne nofun, fun _ => hflags.trans_ne nofun,
          fun _ => hlock, fun _ => hflags⟩
      · exact h.cleanup res
  | check =>
      simp only [advance, hpc] at hs
      obtain ⟨up, -, rfl⟩ := Option.map_eq_some_iff.mp hs
      cases up with
      | true => exact h.proceed hneeds s.res
      | false => exact hmove ⟨rfl, rfl, rfl⟩ id id
  | recheck =>
      simp only [advance, hpc] at hs
      obtain ⟨up, -, rfl⟩ := Option.map_eq_some_iff.mp hs
      cases up with
      | true => exact h.proceed hneeds s.res
      | false => exact h.cleanup s.res
  | waitNetwork | waitTime =>
      simp only [advance, hpc] at hs
      exact h.waitForEvent hneeds hs
  | clearNetwork | clearTime =>
      simp only [advance, hpc, Option.some.injEq] at hs
      subst hs
      exact hmove ⟨rfl, rfl, rfl⟩ id id
  | addListener =>
      simp only [advance, hpc, Option.some.injEq] at hs
      subst hs
      split
      · exact ⟨h.misused, h.started, fun _ => hflags.trans_ne nofun, fun _ => hlock, fun _ => hflags⟩
      · exact h.cleanup res
  | clearListeners =>
      simp only [advance, hpc, Option.some.injEq] at hs
      subst hs
      split
      · exact hmove ⟨rfl, rfl, rfl⟩ (Or.imp_left nofun) id
      · exact h.cleanup res

/-- The objects are created anew, whatever became of the ones before. -/
theorem Guarded.create (h : s.Guarded) {res : ℤ} (hpc : s.pc = .flagsNew ∨ s.pc = .lockNew)
    (hs : s.advance b res = some t) : t.Guarded := by
  rcases hpc with hpc | hpc
  · simp only [advance, hpc, Option.some.injEq] at hs
    subst hs
    split
    · exact ⟨h.misused, h.started, fun _ => nofun, False.elim, fun _ => rfl⟩
    · exact ⟨h.misused, h.started, fun _ => nofun, False.elim,
        fun hneeds => by rcases hneeds with hneeds | hneeds <;> cases hneeds⟩
  · have hflags := h.flags (Or.inr hpc)
    have hflags' : s.flags ≠ .deleted := by rw [hflags]; nofun
    simp only [advance, hpc, Option.some.injEq] at hs
    subst hs
    split
    · exact ⟨h.misused, fun _ => nofun, fun _ => hflags', fun _ => rfl, fun _ => hflags⟩
    · exact ⟨h.misused, fun _ => nofun, fun _ => hflags', False.elim, fun _ => hflags⟩

theorem Guarded.use (h : s.Guarded) {handle : Ntp.Handle} (hne : handle ≠ .deleted) :
    (s.use handle).Guarded :=
  ⟨use_misused h.misused hne, h.started, h.exposed, h.lock, h.flags⟩

theorem Guarded.deleteLock (h : s.Guarded) (hpc : ¬ s.pc.NeedsLock) {res : ℤ}
    (hne : s.lock ≠ .deleted) (hfree : s.lock = .live → res = 0 → s.started = false) :
    (s.deleteLock res).Guarded := by
  dsimp only [Platform.deleteLock]
  split
  · rename_i hlive
    have hstarted := hfree hlive.1 hlive.2
    refine ⟨h.misused, fun ht => ?_, fun ht => h.exposed ?_, fun hneeds => absurd hneeds hpc, h.flags⟩
    · cases hstarted.symm.trans ht
    · exact ht.imp_right (Or.imp_right fun hnetwork => nomatch hnetwork.2)
  · exact h.use hne

/-- The event flags go when no callback can set them. -/
theorem Guarded.deleteFlags (h : s.Guarded) (hpc : ¬ (s.pc.NeedsLock ∨ s.pc = .lockNew)) {res : ℤ}
    (hne : s.flags ≠ .deleted) (hfree : s.flags = .live → res = 0 → ¬ s.Exposed) :
    (s.deleteFlags res).Guarded := by
  dsimp only [Platform.deleteFlags]
  split
  · rename_i hlive
    exact ⟨h.misused, h.started, fun ht => absurd ht (hfree hlive.1 hlive.2), h.lock,
      fun hneeds => absurd hneeds hpc⟩
  · exact h.use hne

/-- Only what no callback can reach is deleted. -/
theorem Guarded.delete (h : s.Guarded) {res : ℤ} (hok : s.Deletable (.main res))
    (hpc : s.pc = .flagsDeleteEarly ∨ s.pc = .ntpDeinit ∨ s.pc = .lockDelete ∨ s.pc = .flagsDelete)
    (hs : s.advance b res = some t) : t.Guarded := by
  have hquiet : ∀ {pc : Pc}, pc = .idle ∨ pc = .lockDelete ∨ pc = .flagsDelete →
      ¬ (pc.NeedsLock ∨ pc = .lockNew) := by
    rintro pc (rfl | rfl | rfl) (hneeds | hneeds) <;> cases hneeds
  rcases hpc with hpc | hpc | hpc | hpc
  · obtain ⟨hne, hfree⟩ := hok.flags res rfl (Or.inr hpc)
    have hdelete := h.deleteFlags (by rw [hpc]; rintro (hneeds | hneeds) <;> cases hneeds) hne hfree
    simp only [advance, hpc, Option.some.injEq] at hs
    subst hs
    exact hdelete.congr ⟨rfl, rfl, rfl⟩ id id fun hneeds => absurd hneeds (hquiet (Or.inl rfl))
  · simp only [advance, hpc, Option.some.injEq] at hs
    subst hs
    split
    · exact h.congr ⟨rfl, rfl, rfl⟩ (Or.imp_left nofun) id
        fun hneeds => absurd hneeds (hquiet (Or.inr (Or.inl rfl)))
    · exact h.congr ⟨rfl, rfl, rfl⟩ id id
        fun hneeds => absurd hneeds (hquiet (Or.inr (Or.inl rfl)))
  · obtain ⟨hne, hfree⟩ := hok.lock res rfl hpc
    have hdelete := h.deleteLock (by rw [hpc]; nofun) hne hfree
    simp only [advance, hpc, Option.some.injEq] at hs
    subst hs
    exact hdelete.congr ⟨rfl, rfl, rfl⟩ id id
      fun hneeds => absurd hneeds (hquiet (Or.inr (Or.inr rfl)))
  · obtain ⟨hne, hfree⟩ := hok.flags res rfl (Or.inl hpc)
    have hdelete := h.deleteFlags (by rw [hpc]; rintro (hneeds | hneeds) <;> cases hneeds) hne hfree
    simp only [advance, hpc, Option.some.injEq] at hs
    subst hs
    split
    · exact hdelete.congr ⟨rfl, rfl, rfl⟩ id id fun hneeds => absurd hneeds (hquiet (Or.inl rfl))
    · exact hdelete.congr ⟨rfl, rfl, rfl⟩ id id fun hneeds => absurd hneeds (hquiet (Or.inl rfl))

theorem Guarded.advance (h : s.Guarded) {res : ℤ} (hok : s.Deletable (.main res))
    (hs : s.advance b res = some t) : t.Guarded := by
  cases hpc : s.pc with
  | idle => simp [Platform.advance, hpc] at hs
  | flagsNew => exact h.create (Or.inl hpc) hs
  | lockNew => exact h.create (Or.inr hpc) hs
  | flagsDeleteEarly => exact h.delete hok (Or.inl hpc) hs
  | ntpDeinit => exact h.delete hok (Or.inr (Or.inl hpc)) hs
  | lockDelete => exact h.delete hok (Or.inr (Or.inr (Or.inl hpc))) hs
  | flagsDelete => exact h.delete hok (Or.inr (Or.inr (Or.inr hpc))) hs
  | ntpInit | startNetwork | check | waitNetwork | clearNetwork | recheck | addListener | ntpStart
  | waitTime | clearTime | clearListeners => exact h.working (by rw [hpc]; trivial) hs

theorem Guarded.step {a : Action} (h : s.Guarded) (hok : s.Deletable a)
    (hs : step b s a = some t) : t.Guarded := by
  cases a with
  | init =>
      obtain ⟨-, hs⟩ := Option.ite_none_right_eq_some.mp hs
      cases hs
      refine h.congr ⟨rfl, rfl, rfl⟩ id id fun hneeds => ?_
      rcases hneeds with hneeds | hneeds <;> cases hneeds
  | deinit =>
      obtain ⟨-, hs⟩ := Option.ite_none_right_eq_some.mp hs
      cases hs
      exact h.congr ⟨rfl, rfl, rfl⟩ id id fun hneeds => absurd hneeds (not_needsLock_deinitPc b)
  | main res => exact h.advance hok hs
  | network up res => exact h.late hs trivial
  | callback res => exact h.late hs trivial
  | listener res => exact h.late hs trivial

/-! ## Late callbacks -/

theorem Safe.misused (h : Safe b s) : s.misused = false :=
  h [] s (fun _ ha => nomatch ha) rfl

theorem Safe.step (h : Safe b s) {a : Action} (hs : Platform.step b s a = some t) (ha : a.Late) :
    Safe b t := by
  intro acts u hlate hr
  exact h (a :: acts) u (List.forall_mem_cons.mpr ⟨ha, hlate⟩) ((run_cons hs acts).trans hr)

theorem Safe.finish (h : Safe b s) : ∃ t, Safe b t ∧ t.callback = .idle ∧ t.main = s.main := by
  have hrelease : ∀ u : Platform, Safe b u → u.callback = .release → u.main = s.main →
      ∃ t, Safe b t ∧ t.callback = .idle ∧ t.main = s.main := by
    intro u hu hcallback hmain
    have hs : Platform.step b u (.callback 0) = some { u with callback := .idle, held := false } := by
      simp only [Platform.step, callbackAdvance, hcallback]
    exact ⟨_, hu.step hs trivial, rfl, hmain⟩
  cases hcallback : s.callback with
  | idle => exact ⟨s, h, hcallback, rfl⟩
  | release => exact hrelease s h hcallback rfl
  | set =>
      obtain ⟨u, hu, hrel⟩ : ∃ u, Platform.step b s (.callback 0) = some u ∧ u.callback = .release := by
        refine ⟨_, by simp only [Platform.step, callbackAdvance, hcallback]; rfl, ?_⟩
        split <;> rfl
      exact hrelease u (h.step hu trivial) hrel (step_late_main hu trivial)

theorem use_deleted (s : Platform) : (s.use .deleted).misused = true :=
  Bool.or_true _

theorem Safe.listening (h : Safe b s) (hlistening : s.listening = true) : s.flags ≠ .deleted := by
  intro hflags
  have hs : Platform.step b s (.listener 0) = some (s.use .deleted) := by
    simp [Platform.step, hlistening, ntpListenerCallback, hflags]
  cases (use_deleted s).symm.trans (h.step hs trivial).misused

theorem Safe.set (h : Safe b s) (hcallback : s.callback = .set) : s.flags ≠ .deleted := by
  intro hflags
  have hs : Platform.step b s (.callback 0) =
      some { s.use .deleted with callback := .release } := by
    simp [Platform.step, callbackAdvance, hcallback, hflags]
  cases (use_deleted s).symm.trans (h.step hs trivial).misused

theorem Safe.started (h : Safe b s) (hstarted : s.started = true) : s.lock ≠ .deleted := by
  intro hlock
  obtain ⟨t, ht, hidle, hmain⟩ := h.finish
  have hstarted' : t.started = true := (congrArg Main.started hmain).trans hstarted
  have hlock' : t.lock = .deleted := (congrArg Main.lock hmain).trans hlock
  have hs : Platform.step b t (.network true 0) = some (t.use .deleted) := by
    simp [Platform.step, hstarted', hidle, networkStateCallback, hlock']
  cases (use_deleted t).symm.trans (ht.step hs trivial).misused

/-- The network changes once more, and the callback goes on to set the event flags. -/
theorem Safe.network (h : Safe b s) (hstarted : s.started = true) (hlock : s.lock = .live) :
    s.flags ≠ .deleted := by
  intro hflags
  obtain ⟨t, ht, hidle, hmain⟩ := h.finish
  have hstarted' : t.started = true := (congrArg Main.started hmain).trans hstarted
  have hlock' : t.lock = .live := (congrArg Main.lock hmain).trans hlock
  have hflags' : t.flags = .deleted := (congrArg Main.flags hmain).trans hflags
  have hs : Platform.step b t (.network (!t.networkUp) 0) =
      some { t with networkUp := !t.networkUp, callback := .set, held := true } := by
    simp [Platform.step, hstarted', hidle, networkStateCallback, hlock']
  exact (ht.step hs trivial).set rfl hflags'

theorem Safe.exposed (h : Safe b s) (hexposed : s.Exposed) : s.flags ≠ .deleted := by
  rcases hexposed with hlistening | hset | ⟨hstarted, hlock⟩
  · exact h.listening hlistening
  · exact h.set hset
  · exact h.network hstarted hlock

/-! ## Runs -/

/-- The deletion of the event flags, and what comes after it. -/
theorem advance_deleteFlags {res : ℤ} (hpc : s.pc = .flagsDelete ∨ s.pc = .flagsDeleteEarly)
    (hs : s.advance b res = some t) :
    t.flags = (s.deleteFlags res).flags ∧ t.misused = (s.deleteFlags res).misused ∧
      (s.Exposed → t.Exposed) := by
  have hexposed : s.Exposed → (s.deleteFlags res).Exposed := by
    dsimp only [deleteFlags]
    split <;> exact id
  rcases hpc with hpc | hpc
  · simp only [advance, hpc, Option.some.injEq] at hs
    subst hs
    split
    · exact ⟨rfl, rfl, hexposed⟩
    · exact ⟨rfl, rfl, hexposed⟩
  · simp only [advance, hpc, Option.some.injEq] at hs
    subst hs
    exact ⟨rfl, rfl, hexposed⟩

/-- What is deleted otherwise will be misused, or is already. -/
theorem deletable_of_safe {a : Action} (hs : step b s a = some t) (h : Safe b t) :
    s.Deletable a := by
  constructor
  · rintro res rfl hpc
    change s.advance b res = some t at hs
    simp only [advance, hpc, Option.some.injEq] at hs
    subst hs
    constructor
    · intro hlock
      have hmisused : (s.deleteLock res).misused = true := by
        simp [deleteLock, hlock, use_deleted]
      cases hmisused.symm.trans h.misused
    · rintro hlive rfl
      rw [deleteLock_zero hlive] at h
      by_contra hstarted
      exact h.started (eq_true_of_ne_false hstarted) rfl
  · rintro res rfl hpc
    obtain ⟨hflags, hmisused, hexposed⟩ := advance_deleteFlags hpc hs
    constructor
    · intro hdeleted
      have hused : (s.deleteFlags res).misused = true := by
        simp [deleteFlags, hdeleted, use_deleted]
      cases (hmisused.trans hused).symm.trans h.misused
    · rintro hlive rfl hs'
      refine h.exposed (hexposed hs') (hflags.trans ?_)
      rw [deleteFlags_zero hlive]

/-- Whatever the callbacks do in whatever order, and whatever fails: no object of the platform is
or will be used by a callback or deleted after its deletion exactly if none is deleted twice, the
mutex never after the network task has been started, and the event flags never within the reach of
a callback. -/
theorem safe_iff_deletable (b : Build) (acts : List Action) :
    Always (step b) (Safe b) init acts ↔ Meets (step b) Deletable init acts := by
  apply always_iff_meets Guarded
  · exact fun _ _ _ h hok hs => h.step hok hs
  · exact fun _ h => h.safe
  · exact fun _ _ _ _ hs hok hsafe => hok (deletable_of_safe hs hsafe)
  · exact guarded_init

/-- The network is up, and goes down after `platform_deinit`. -/
def lateNetwork : List Action :=
  [.init, .main 0, .main 0, .main 0, .network true 0, .callback 0, .callback 0, .main 0, .deinit,
    .main 0, .main 0]

/-- Both objects are gone. -/
def torn : Platform :=
  { init with
    flags := .deleted
    lock := .deleted
    networkUp := true
    change := true
    started := true
    result := some 0
    seen := true }

/-- The callback acquires the mutex that `platform_deinit` has deleted. -/
theorem lateNetwork_not_safe : ¬ ∀ b acts, Always (step b) (Safe b) init acts := by
  intro h
  let b : Build := ⟨false, 1, by decide⟩
  have hrun : run (step b) init lateNetwork = some torn := by decide +kernel
  have hmisused := (h b lateNetwork).reached hrun [.network false 0] _ (by simp [Action.Late]) rfl
  cases hmisused

end OpenIotSdk.Azure.Platform
