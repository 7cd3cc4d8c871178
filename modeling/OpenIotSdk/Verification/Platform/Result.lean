import OpenIotSdk.Verification.Platform.Semantics

/-! # The result of `platform_init`

A cleanup that is entered because of the network itself finds the result of the call before it,
which has succeeded. Deletions that fail are forgotten. -/

namespace OpenIotSdk.Azure.Platform

open Transition

/-- What `platform_init` has answered, and what it is about to answer while it cleans up. -/
structure Truthful (b : Build) (s t : Platform) : Prop where
  success : s.initialising = true → s.pc ≠ .idle → t.pc = .idle → t.result = some 0 →
    t.seen = true ∧ t.cleaned = false ∧ t.flags = .live ∧ t.lock = .live ∧
      (b.ntpTime = true → t.ntp = true)
  failure : s.initialising = true → s.pc ≠ .idle → t.pc = .idle → t.result ≠ some 0 →
    t.own = .none
  cleanup : t.initialising = true → t.pc = .ntpDeinit ∨ t.pc = .lockDelete ∨ t.pc = .flagsDelete →
    t.res ≠ 0 ∧ (t.pc ≠ .ntpDeinit → t.own.ntp = false) ∧
      (t.pc = .flagsDelete → t.own.lock = false)

/-- `platform_init` is about to delete what it has created. -/
def Releases (s : Platform) : Prop :=
  s.initialising = true ∧
    (s.pc = .flagsDeleteEarly ∨ s.pc = .flagsDelete ∨ s.pc = .lockDelete ∨
      s.pc = .ntpDeinit ∧ s.own.ntp = true)

/-- The network is still up when it is looked at again, and no deletion fails. -/
structure Clean (s : Platform) (a : Action) : Prop where
  recheck : ∀ res, a = .main res → s.pc = .recheck → s.isNetworkUp res ≠ some false
  deletion : ∀ res, a = .main res → s.Releases → res = 0

/-! ## The invariant -/

/-- The event flags and the mutex have been created. -/
structure Main.Created (b : Build) (m : Main) : Prop where
  initialising : m.initialising = true
  cleaned : m.cleaned = false
  flags : m.flags = .live
  lock : m.lock = .live
  ownFlags : m.own.flags = true
  ownLock : m.own.lock = true
  ownNtp : b.ntpTime = false → m.own.ntp = false

/-- What is left to release, with the result to return. -/
structure Main.Failing (m : Main) : Prop where
  res : m.res ≠ 0
  flags : m.flags = .live
  ownFlags : m.own.flags = true
  lock : m.pc ≠ .flagsDelete → m.lock = .live ∧ m.own.lock = true
  ownLock : m.pc = .flagsDelete → m.own.lock = false
  ownNtp : m.pc ≠ .ntpDeinit → m.own.ntp = false

/-- What `platform_init` relies on at each call. -/
def Main.ExpectsAt (b : Build) (m : Main) : Pc → Prop
  | .idle => True
  | .flagsNew => m.initialising = true ∧ m.cleaned = false ∧ m.own = .none
  | .lockNew => m.initialising = true ∧ m.cleaned = false ∧ m.flags = .live ∧
      m.own = ⟨true, false, false⟩
  | .flagsDeleteEarly => m.initialising = true ∧ m.flags = .live ∧ m.own = ⟨true, false, false⟩
  | .ntpInit => m.Created b ∧ b.ntpTime = true
  | .startNetwork | .waitNetwork | .clearNetwork =>
      m.Created b ∧ (b.ntpTime = true → m.ntp = true)
  | .check | .recheck => m.Created b ∧ (b.ntpTime = true → m.ntp = true) ∧ m.res = 0
  | .addListener | .ntpStart | .waitTime | .clearTime | .clearListeners =>
      m.Created b ∧ b.ntpTime = true ∧ m.ntp = true ∧ m.seen = true
  | .ntpDeinit | .lockDelete | .flagsDelete => m.initialising = true → m.Failing

def Main.Expects (b : Build) (m : Main) : Prop := m.ExpectsAt b m.pc

variable {b : Build} {s t : Platform}

theorem Main.Expects.of_pc {pc : Pc} (h : s.main.Expects b) (hpc : s.pc = pc) :
    s.main.ExpectsAt b pc :=
  hpc ▸ h

theorem Main.expects_of_pc {pc : Pc} (hpc : t.pc = pc) (h : t.main.ExpectsAt b pc) :
    t.main.Expects b := by
  cases hpc
  exact h

theorem Main.Expects.failing (h : t.main.Expects b) (hinit : t.initialising = true)
    (hpc : t.pc = .ntpDeinit ∨ t.pc = .lockDelete ∨ t.pc = .flagsDelete) : t.main.Failing := by
  rcases hpc with hpc | hpc | hpc <;> exact h.of_pc hpc hinit

theorem truthful_of_working (h : t.main.Expects b)
    (hpc : t.pc = .idle → s.initialising = true → s.pc = .idle) : Truthful b s t := by
  refine ⟨fun hinit hs ht => absurd (hpc ht hinit) hs, fun hinit hs ht => absurd (hpc ht hinit) hs,
    fun hinit hcleanup => ?_⟩
  have hfailing := h.failing hinit hcleanup
  exact ⟨hfailing.res, hfailing.ownNtp, hfailing.ownLock⟩

theorem truthful_of_released (hpc : t.pc = .idle) (hresult : t.result ≠ some 0)
    (hown : t.own = .none) : Truthful b s t := by
  refine ⟨fun _ _ _ hzero => absurd hzero hresult, fun _ _ _ _ => hown, fun _ hcleanup => ?_⟩
  rw [hpc] at hcleanup
  simp at hcleanup

theorem truthful_of_success (hpc : t.pc = .idle) (hresult : t.result = some 0)
    (h : t.main.Created b) (hntp : b.ntpTime = true → t.ntp = true) (hseen : t.seen = true) :
    Truthful b s t := by
  refine ⟨fun _ _ _ _ => ⟨hseen, h.cleaned, h.flags, h.lock, hntp⟩,
    fun _ _ _ hne => absurd hresult hne, fun _ hcleanup => ?_⟩
  rw [hpc] at hcleanup
  simp at hcleanup

/-! ## The calls of `platform_init` -/

/-- What a step has to leave behind. -/
def Judged (b : Build) (s t : Platform) : Prop :=
  t.main.Expects b ∧ Truthful b s t

theorem judged_of_working (h : t.main.Expects b) (hpc : t.pc ≠ .idle) : Judged b s t :=
  ⟨h, truthful_of_working h fun hidle => absurd hidle hpc⟩

theorem Main.Created.congr {m n : Main} (h : m.Created b)
    (hctl : n.initialising = m.initialising ∧ n.cleaned = m.cleaned)
    (hobjects : n.flags = m.flags ∧ n.lock = m.lock) (hown : n.own = m.own) : n.Created b := by
  obtain ⟨hinit, hcleaned⟩ := hctl
  obtain ⟨hflags, hlock⟩ := hobjects
  refine ⟨?_, ?_, ?_, ?_, ?_, ?_, ?_⟩
  · exact hinit.trans h.initialising
  · exact hcleaned.trans h.cleaned
  · exact hflags.trans h.flags
  · exact hlock.trans h.lock
  · rw [hown]
    exact h.ownFlags
  · rw [hown]
    exact h.ownLock
  · rw [hown]
    exact h.ownNtp

theorem Main.Created.cleanup (h : s.main.Created b) {res : ℤ} (hres : res ≠ 0) :
    Judged b s (s.cleanup b res) := by
  cases hntp : b.ntpTime with
  | true =>
      have hpc : s.cleanup b res = { s with res := res, cleaned := true }.goto .ntpDeinit := by
        rw [Platform.cleanup, deinitPc, hntp]
        rfl
      rw [hpc]
      exact judged_of_working (fun _ => ⟨hres, h.flags, h.ownFlags, fun _ => ⟨h.lock, h.ownLock⟩,
        nofun, fun hne => absurd rfl hne⟩) nofun
  | false =>
      have hpc : s.cleanup b res = { s with res := res, cleaned := true }.goto .lockDelete := by
        rw [Platform.cleanup, deinitPc, hntp]
        rfl
      rw [hpc]
      exact judged_of_working (fun _ => ⟨hres, h.flags, h.ownFlags, fun _ => ⟨h.lock, h.ownLock⟩,
        nofun, fun _ => h.ownNtp hntp⟩) nofun

theorem Main.Created.proceed (h : s.main.Created b) (hntp : b.ntpTime = true → s.ntp = true) :
    Judged b s (s.proceed b 0) := by
  cases htime : b.ntpTime with
  | true =>
      simp only [Platform.proceed, htime, if_true]
      exact judged_of_working ⟨h.congr ⟨rfl, rfl⟩ ⟨rfl, rfl⟩ rfl, htime, hntp htime, rfl⟩ nofun
  | false =>
      simp only [Platform.proceed, htime, Bool.false_eq_true, if_false]
      exact ⟨trivial, truthful_of_success rfl rfl (h.congr ⟨rfl, rfl⟩ ⟨rfl, rfl⟩ rfl) hntp rfl⟩

theorem Main.Created.waitForEvent (h : s.main.Created b) {flag : Bool} {res : ℤ} {pc : Pc}
    (hs : s.waitForEvent b flag res pc = some t) : Judged b s t ∨ t = s.goto pc := by
  dsimp only [Platform.waitForEvent] at hs
  split at hs
  · cases hs
    exact Or.inl (h.cleanup b.failure_ne_zero)
  · obtain ⟨-, hs⟩ := Option.ite_none_right_eq_some.mp hs
    cases hs
    exact Or.inr rfl

theorem Main.Expects.create (h : s.main.Expects b) {res : ℤ}
    (hpc : s.pc = .flagsNew ∨ s.pc = .lockNew ∨ s.pc = .ntpInit ∨ s.pc = .startNetwork)
    (hs : s.advance b res = some t) : Judged b s t := by
  rcases hpc with hpc | hpc | hpc | hpc
  · obtain ⟨hinit, hcleaned, hown⟩ := h.of_pc hpc
    change s.own = _ at hown
    simp only [advance, hpc, Option.some.injEq] at hs
    subst hs
    split
    · exact judged_of_working ⟨hinit, hcleaned, rfl, by rw [hown]; rfl⟩ nofun
    · exact ⟨trivial, truthful_of_released rfl (by simp [ret, b.failure_ne_zero]) hown⟩
  · obtain ⟨hinit, hcleaned, hflags, hown⟩ := h.of_pc hpc
    change s.own = _ at hown
    simp only [advance, hpc, Option.some.injEq] at hs
    subst hs
    split
    · have hcreated : ∀ pc, Main.Created b (main ({ s with
          lock := .live, held := false, own := { s.own with lock := true } }.goto pc)) := by
        intro pc
        refine ⟨hinit, hcleaned, hflags, rfl, ?_, rfl, fun _ => ?_⟩
        · change s.own.flags = true
          rw [hown]
        · change s.own.ntp = false
          rw [hown]
      cases htime : b.ntpTime with
      | true => exact judged_of_working ⟨hcreated _, htime⟩ nofun
      | false => exact judged_of_working ⟨hcreated _, by simp [htime]⟩ nofun
    · exact judged_of_working ⟨hinit, hflags, hown⟩ nofun
  · obtain ⟨hcreated, htime⟩ := h.of_pc hpc
    simp only [advance, hpc, Option.some.injEq] at hs
    subst hs
    split
    · have hntp : b.ntpTime = false → (!s.ntp) = false := by simp [htime]
      exact judged_of_working ⟨⟨hcreated.initialising, hcreated.cleaned, hcreated.flags,
        hcreated.lock, hcreated.ownFlags, hcreated.ownLock, hntp⟩, fun _ => rfl⟩ nofun
    · exact hcreated.cleanup ‹_›
  · obtain ⟨hcreated, hntp⟩ := h.of_pc hpc
    simp only [advance, hpc, Option.some.injEq] at hs
    subst hs
    split
    · exact judged_of_working ⟨hcreated.congr ⟨rfl, rfl⟩ ⟨rfl, rfl⟩ rfl, hntp, ‹_›⟩ nofun
    · exact hcreated.cleanup ‹_›

theorem Main.Expects.network (h : s.main.Expects b) {res : ℤ}
    (hpc : s.pc = .check ∨ s.pc = .waitNetwork ∨ s.pc = .clearNetwork ∨
      s.pc = .recheck ∧ s.isNetworkUp res ≠ some false)
    (hs : s.advance b res = some t) : Judged b s t := by
  rcases hpc with hpc | hpc | hpc | ⟨hpc, hup⟩
  · obtain ⟨hcreated, hntp, hres⟩ := h.of_pc hpc
    simp only [advance, hpc] at hs
    obtain ⟨up, -, rfl⟩ := Option.map_eq_some_iff.mp hs
    cases up with
    | true =>
        have hproceed := hcreated.proceed hntp
        rwa [← hres] at hproceed
    | false => exact judged_of_working ⟨hcreated.congr ⟨rfl, rfl⟩ ⟨rfl, rfl⟩ rfl, hntp⟩ nofun
  · obtain ⟨hcreated, hntp⟩ := h.of_pc hpc
    simp only [advance, hpc] at hs
    obtain hjudged | rfl := hcreated.waitForEvent hs
    · exact hjudged
    · exact judged_of_working ⟨hcreated.congr ⟨rfl, rfl⟩ ⟨rfl, rfl⟩ rfl, hntp⟩ nofun
  · obtain ⟨hcreated, hntp⟩ := h.of_pc hpc
    simp only [advance, hpc, Option.some.injEq] at hs
    subst hs
    exact judged_of_working ⟨hcreated.congr ⟨rfl, rfl⟩ ⟨rfl, rfl⟩ rfl, hntp, rfl⟩ nofun
  · obtain ⟨hcreated, hntp, hres⟩ := h.of_pc hpc
    simp only [advance, hpc] at hs
    obtain ⟨up, hanswer, rfl⟩ := Option.map_eq_some_iff.mp hs
    cases up with
    | true =>
        have hproceed := hcreated.proceed hntp
        rwa [← hres] at hproceed
    | false => exact absurd hanswer hup

theorem Main.Expects.time (h : s.main.Expects b) {res : ℤ}
    (hpc : s.pc = .addListener ∨ s.pc = .ntpStart ∨ s.pc = .waitTime ∨ s.pc = .clearTime ∨
      s.pc = .clearListeners)
    (hs : s.advance b res = some t) : Judged b s t := by
  obtain ⟨hcreated, htime, hntp, hseen⟩ : s.main.Created b ∧ b.ntpTime = true ∧ s.ntp = true ∧
      s.seen = true := by
    rcases hpc with hpc | hpc | hpc | hpc | hpc <;> exact h.of_pc hpc
  rcases hpc with hpc | hpc | hpc | hpc | hpc
  · simp only [advance, hpc, Option.some.injEq] at hs
    subst hs
    split
    · exact judged_of_working ⟨hcreated.congr ⟨rfl, rfl⟩ ⟨rfl, rfl⟩ rfl, htime, hntp, hseen⟩ nofun
    · exact hcreated.cleanup ‹_›
  · simp only [advance, hpc, Option.some.injEq] at hs
    subst hs
    split
    · exact judged_of_working ⟨hcreated.congr ⟨rfl, rfl⟩ ⟨rfl, rfl⟩ rfl, htime, hntp, hseen⟩ nofun
    · exact hcreated.cleanup ‹_›
  · simp only [advance, hpc] at hs
    obtain hjudged | rfl := hcreated.waitForEvent hs
    · exact hjudged
    · exact judged_of_working ⟨hcreated.congr ⟨rfl, rfl⟩ ⟨rfl, rfl⟩ rfl, htime, hntp, hseen⟩ nofun
  · simp only [advance, hpc, Option.some.injEq] at hs
    subst hs
    exact judged_of_working ⟨hcreated.congr ⟨rfl, rfl⟩ ⟨rfl, rfl⟩ rfl, htime, hntp, hseen⟩ nofun
  · simp only [advance, hpc, Option.some.injEq] at hs
    subst hs
    split
    · rename_i hres
      refine ⟨trivial, truthful_of_success rfl ?_ (hcreated.congr ⟨rfl, rfl⟩ ⟨rfl, rfl⟩ rfl)
        (fun _ => hntp) hseen⟩
      rw [hres]
      rfl
    · exact hcreated.cleanup ‹_›

/-! ## The deletions -/

/-- `platform_deinit` alone promises nothing. -/
theorem judged_of_deinit (ht : t.initialising = false)
    (hpc : t.pc = .ntpDeinit ∨ t.pc = .lockDelete ∨ t.pc = .flagsDelete ∨ t.pc = .idle)
    (hs : s.initialising = false ∨ s.pc = .idle) : Judged b s t := by
  have hfailing : t.main.initialising = true → t.main.Failing := fun hinit => by
    cases ht.symm.trans hinit
  have hexpects : t.main.Expects b := by
    rcases hpc with hpc | hpc | hpc | hpc
    · exact Main.expects_of_pc hpc hfailing
    · exact Main.expects_of_pc hpc hfailing
    · exact Main.expects_of_pc hpc hfailing
    · exact Main.expects_of_pc hpc trivial
  refine ⟨hexpects, truthful_of_working hexpects fun _ hinit => hs.resolve_left ?_⟩
  rw [hinit]
  nofun

theorem Main.Expects.release (h : s.main.Expects b) {res : ℤ} (hinit : s.initialising = true)
    (hpc : s.pc = .flagsDeleteEarly ∨ s.pc = .ntpDeinit ∨ s.pc = .lockDelete ∨ s.pc = .flagsDelete)
    (hres : s.Releases → res = 0) (hs : s.advance b res = some t) : Judged b s t := by
  rcases hpc with hpc | hpc | hpc | hpc
  · obtain ⟨-, hflags, hown⟩ := h.of_pc hpc
    change s.own = _ at hown
    cases hres ⟨hinit, Or.inl hpc⟩
    simp only [advance, hpc, deleteFlags_zero hflags, Option.some.injEq] at hs
    subst hs
    refine ⟨trivial, truthful_of_released rfl (by simp [ret, b.failure_ne_zero]) ?_⟩
    change { s.own with flags := false } = _
    rw [hown]
    rfl
  · have hfailing := h.failing hinit (Or.inl hpc)
    simp only [advance, hpc, Option.some.injEq] at hs
    subst hs
    have hlock := hfailing.lock (by rw [main, hpc]; nofun)
    split
    · exact judged_of_working (fun _ => ⟨hfailing.res, hfailing.flags, hfailing.ownFlags,
        fun _ => hlock, nofun, fun _ => rfl⟩) nofun
    · rename_i hne
      have hown : s.own.ntp = false := by
        by_contra hown
        exact hne (hres ⟨hinit, Or.inr (Or.inr (Or.inr ⟨hpc, eq_true_of_ne_false hown⟩))⟩)
      exact judged_of_working (fun _ => ⟨hfailing.res, hfailing.flags, hfailing.ownFlags,
        fun _ => hlock, nofun, fun _ => hown⟩) nofun
  · have hfailing := h.failing hinit (Or.inr (Or.inl hpc))
    cases hres ⟨hinit, Or.inr (Or.inr (Or.inl hpc))⟩
    have hlock := hfailing.lock (by rw [main, hpc]; nofun)
    simp only [advance, hpc, deleteLock_zero hlock.1, Option.some.injEq] at hs
    subst hs
    refine judged_of_working (fun _ => ⟨hfailing.res, hfailing.flags, hfailing.ownFlags,
      fun hne => absurd rfl hne, fun _ => rfl, fun _ => ?_⟩) nofun
    exact hfailing.ownNtp (by rw [main, hpc]; nofun)
  · have hfailing := h.failing hinit (Or.inr (Or.inr hpc))
    cases hres ⟨hinit, Or.inr (Or.inl hpc)⟩
    simp only [advance, hpc, deleteFlags_zero hfailing.flags, hinit, if_true,
      Option.some.injEq] at hs
    subst hs
    refine ⟨trivial, truthful_of_released rfl ?_ ?_⟩
    · intro hzero
      exact hfailing.res (Option.some.inj hzero)
    · change Resources.mk false s.own.lock s.own.ntp = _
      have hlock : s.own.lock = false := hfailing.ownLock hpc
      have hntp : s.own.ntp = false := hfailing.ownNtp (by rw [main, hpc]; nofun)
      rw [hlock, hntp]
      rfl

/-! ## Runs -/

/-- `platform_deinit` alone, one call after the other. -/
theorem judged_deinit {res : ℤ} (hinit : s.initialising = false)
    (hpc : s.pc = .ntpDeinit ∨ s.pc = .lockDelete ∨ s.pc = .flagsDelete)
    (hs : s.advance b res = some t) : Judged b s t := by
  rcases hpc with hpc | hpc | hpc
  · simp only [advance, hpc, Option.some.injEq] at hs
    subst hs
    split
    · exact judged_of_deinit hinit (Or.inr (Or.inl rfl)) (Or.inl hinit)
    · exact judged_of_deinit hinit (Or.inr (Or.inl rfl)) (Or.inl hinit)
  · simp only [advance, hpc, Option.some.injEq] at hs
    subst hs
    refine judged_of_deinit ?_ (Or.inr (Or.inr (Or.inl rfl))) (Or.inl hinit)
    dsimp only [goto, deleteLock]
    split <;> exact hinit
  · simp only [advance, hpc, hinit, Bool.false_eq_true, if_false, Option.some.injEq] at hs
    subst hs
    refine judged_of_deinit ?_ (Or.inr (Or.inr (Or.inr rfl))) (Or.inl hinit)
    dsimp only [goto, deleteFlags]
    split <;> exact hinit

theorem Main.Expects.advance (h : s.main.Expects b) {res : ℤ} (hok : s.Clean (.main res))
    (hs : s.advance b res = some t) : Judged b s t := by
  have hrelease := hok.deletion res rfl
  have hdeinit : ∀ hpc : s.pc = .ntpDeinit ∨ s.pc = .lockDelete ∨ s.pc = .flagsDelete,
      Judged b s t := by
    intro hpc
    cases hinit : s.initialising with
    | true => exact h.release hinit (Or.inr hpc) hrelease hs
    | false => exact judged_deinit hinit hpc hs
  cases hpc : s.pc with
  | idle => simp [Platform.advance, hpc] at hs
  | flagsNew => exact h.create (Or.inl hpc) hs
  | lockNew => exact h.create (Or.inr (Or.inl hpc)) hs
  | flagsDeleteEarly => exact h.release (h.of_pc hpc).1 (Or.inl hpc) hrelease hs
  | ntpInit => exact h.create (Or.inr (Or.inr (Or.inl hpc))) hs
  | startNetwork => exact h.create (Or.inr (Or.inr (Or.inr hpc))) hs
  | check => exact h.network (Or.inl hpc) hs
  | waitNetwork => exact h.network (Or.inr (Or.inl hpc)) hs
  | clearNetwork => exact h.network (Or.inr (Or.inr (Or.inl hpc))) hs
  | recheck => exact h.network (Or.inr (Or.inr (Or.inr ⟨hpc, hok.recheck res rfl hpc⟩))) hs
  | addListener => exact h.time (Or.inl hpc) hs
  | ntpStart => exact h.time (Or.inr (Or.inl hpc)) hs
  | waitTime => exact h.time (Or.inr (Or.inr (Or.inl hpc))) hs
  | clearTime => exact h.time (Or.inr (Or.inr (Or.inr (Or.inl hpc)))) hs
  | clearListeners => exact h.time (Or.inr (Or.inr (Or.inr (Or.inr hpc)))) hs
  | ntpDeinit => exact hdeinit (Or.inl hpc)
  | lockDelete => exact hdeinit (Or.inr (Or.inl hpc))
  | flagsDelete => exact hdeinit (Or.inr (Or.inr hpc))

theorem judged_step {a : Action} (h : s.main.Expects b) (hok : s.Clean a)
    (hs : step b s a = some t) : Judged b s t := by
  have hlate : a.Late → Judged b s t := by
    intro ha
    have hmain := step_late_main hs ha
    have hexpects : t.main.Expects b := by
      rw [hmain]
      exact h
    have hpc : t.pc = s.pc := congrArg Main.pc hmain
    exact ⟨hexpects, truthful_of_working hexpects fun hidle _ => hpc ▸ hidle⟩
  cases a with
  | init =>
      obtain ⟨-, hs⟩ := Option.ite_none_right_eq_some.mp hs
      cases hs
      exact judged_of_working ⟨rfl, rfl, rfl⟩ nofun
  | deinit =>
      obtain ⟨hidle, hs⟩ := Option.ite_none_right_eq_some.mp hs
      cases hs
      refine judged_of_deinit rfl ?_ (Or.inr hidle)
      dsimp only [platformDeinit, goto, deinitPc]
      split
      · exact Or.inl rfl
      · exact Or.inr (Or.inl rfl)
  | main res => exact h.advance hok hs
  | network up res => exact hlate trivial
  | callback res => exact hlate trivial
  | listener res => exact hlate trivial

/-! ## What goes wrong -/

theorem cleaning_of_deinitPc (b : Build) :
    deinitPc b = .ntpDeinit ∨ deinitPc b = .lockDelete ∨ deinitPc b = .flagsDelete := by
  dsimp only [deinitPc]
  split
  · exact Or.inl rfl
  · exact Or.inr (Or.inl rfl)

/-- The network is down again: the result is still that of the wait, which has succeeded. -/
theorem not_truthful_of_recheck (h : s.main.Expects b) {res : ℤ} (hpc : s.pc = .recheck)
    (hdown : s.isNetworkUp res = some false) (hs : s.advance b res = some t) :
    ¬ Truthful b s t := by
  obtain ⟨hcreated, -, hres⟩ := h.of_pc hpc
  simp only [advance, hpc, hdown, Option.map_some, Option.some.injEq] at hs
  subst hs
  intro htruthful
  exact (htruthful.cleanup hcreated.initialising (cleaning_of_deinitPc b)).1 hres

/-- An object whose deletion fails is not released any more. -/
theorem not_truthful_of_deletion (h : s.main.Expects b) {res : ℤ} (hreleases : s.Releases)
    (hres : res ≠ 0) (hs : s.advance b res = some t) : ¬ Truthful b s t := by
  intro htruthful
  obtain ⟨hinit, hpc | hpc | hpc | ⟨hpc, hown⟩⟩ := hreleases
  · obtain ⟨-, -, hown⟩ := h.of_pc hpc
    change s.own = _ at hown
    simp only [advance, hpc, deleteFlags_of_ne hres, Option.some.injEq] at hs
    subst hs
    have hnone : s.own = .none := htruthful.failure hinit (by rw [hpc]; nofun) rfl
      (by simp [ret, b.failure_ne_zero])
    cases hown.symm.trans hnone
  · have hfailing := h.failing hinit (Or.inr (Or.inr hpc))
    simp only [advance, hpc, deleteFlags_of_ne hres, use, hinit, if_true, Option.some.injEq] at hs
    subst hs
    have hnone : s.own = .none := htruthful.failure hinit (by rw [hpc]; nofun) rfl
      (fun hzero => hfailing.res (Option.some.inj hzero))
    cases hfailing.ownFlags.symm.trans (congrArg Resources.flags hnone)
  · have hfailing := h.failing hinit (Or.inr (Or.inl hpc))
    simp only [advance, hpc, deleteLock_of_ne hres, Option.some.injEq] at hs
    subst hs
    have hlock : s.own.lock = false :=
      (htruthful.cleanup hinit (Or.inr (Or.inr rfl))).2.2 rfl
    cases (hfailing.lock (by rw [main, hpc]; nofun)).2.symm.trans hlock
  · simp only [advance, hpc, if_neg hres, Option.some.injEq] at hs
    subst hs
    have hntp : s.own.ntp = false := (htruthful.cleanup hinit (Or.inr (Or.inl rfl))).2.1 nofun
    cases hown.symm.trans hntp

theorem clean_of_truthful {a : Action} (h : s.main.Expects b) (hs : step b s a = some t)
    (htruthful : Truthful b s t) : s.Clean a := by
  constructor
  · rintro res rfl hpc hdown
    exact not_truthful_of_recheck h hpc hdown hs htruthful
  · rintro res rfl hreleases
    by_contra hres
    exact not_truthful_of_deletion h hreleases hres hs htruthful

/-- Whatever the callbacks do in whatever order, and whatever fails: `platform_init` tells the
truth throughout exactly if the network, once up, is not down when it is looked at again, and no
object that it has created fails to be deleted. -/
theorem truthful_iff_clean (b : Build) (acts : List Action) :
    Steps (step b) (fun s _ t => Truthful b s t) init acts ↔ Meets (step b) Clean init acts := by
  apply steps_iff_meets fun s => s.main.Expects b
  · exact fun _ _ _ h hok hs => (judged_step h hok hs).1
  · exact fun _ _ _ h hok hs => (judged_step h hok hs).2
  · exact fun _ _ _ h hs hok htruthful => hok (clean_of_truthful h hs htruthful)
  · trivial

/-- The network goes up, and down again before it is looked at. -/
def flappingNetwork : List Action :=
  [.init, .main 0, .main 0, .main 0, .main 0, .network true 0, .callback 0, .callback 0, .main 0,
    .main 0, .network false 0, .callback 0, .callback 0, .main 0, .main 0]

/-- The mutex is gone, and the event flags are next. -/
def flapped : Platform :=
  { init with
    flags := .live
    lock := .deleted
    change := true
    started := true
    pc := .flagsDelete
    initialising := true
    cleaned := true
    own := ⟨true, false, false⟩ }

/-- `platform_init` has cleaned up when it returns 0. -/
theorem flappingNetwork_not_truthful :
    ¬ ∀ b acts, Steps (step b) (fun s _ t => Truthful b s t) init acts := by
  intro h
  let b : Build := ⟨false, 1, by decide⟩
  have hrun : run (step b) init flappingNetwork = some flapped := by decide +kernel
  have hlast := (h b (flappingNetwork ++ [.main 0])).last hrun rfl
  obtain ⟨-, hcleaned, -⟩ := hlast.success rfl (by decide) rfl rfl
  cases hcleaned

end OpenIotSdk.Azure.Platform
