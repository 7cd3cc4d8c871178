import Mathlib.Data.Fintype.Basic
import OpenIotSdk.Library.Transition
import OpenIotSdk.Verification.Ntp.Calls
import OpenIotSdk.Verification.Ntp.Semantics

/-! # Acknowledgements of the NTP task

A call returns with success where its wait has seen the flag of its event. A wait that fails
returns `ntp_context.error`, which is `IOT_NTP_CLIENT_OK` as long as nothing was reported. -/

namespace OpenIotSdk.Ntp

open Transition

variable {ι : Type*}

/-- The wait of a call has seen the flag of its event. -/
def Call.Seen (c : Call) : Prop := ∃ flags, c.pc = .clear flags ∧ c.op.flag ∈ flags

def Shared.objects (s : Shared) : List Handle := [s.mutex, s.eventQueue, s.eventFlags]

/-- Only the task sets flags, an operation succeeds only with its flag, and the objects are
deleted only after the tasks have ended. -/
structure Earned (s : State ι) (a : Action ι) (t : State ι) : Prop where
  raised : ∀ flag ∈ t.shared.flags, flag ∉ s.shared.flags →
    s.task.pc = flag.pc ∧ ∃ res seconds, a = .task res seconds
  waited : ∀ i res shared, a = .call i (.advance res) →
    Call.waitForNtpEvent s.shared (s.calls i).op.flag (s.calls i).pc res =
      some (shared, .inr .ok) → (s.calls i).Seen
  running : s.shared.state ≠ .running → t.shared.state = .running → ∃ i res,
    a = .call i (.advance res) ∧ (s.calls i).op = .start ∧ (s.calls i).Seen
  stopped : s.shared.state = .running → t.shared.state = .stopped → ∃ i res,
    a = .call i (.advance res) ∧ (s.calls i).op.flag = .stop ∧ (s.calls i).Seen
  deleted : s.shared.objects ≠ t.shared.objects → s.task.pc = .done ∧ s.shared.strays = 0

/-- A wait fails only after an error was reported, and the client is initialised only while no
other call is under way. -/
def Cautious (s : State ι) : Action ι → Prop
  | .call i (.advance _) => (s.calls i).pc = .wait →
      s.shared.eventFlags = .live ∧
        ((s.calls i).op.flag ∈ s.shared.flags ∨ .error ∈ s.shared.flags) ∨
      s.shared.error ≠ .ok
  | .call i (.init _ _) => s.shared.state = .uninitialised →
      ∀ j, j ≠ i → (s.calls j).pc = .idle
  | .task _ _ | .tick | .timerCallback | .stray _ | .call _ .start | .call _ .stop
  | .call _ .deinit => True

instance [DecidableEq ι] [Fintype ι] (s : State ι) (a : Action ι) : Decidable (Cautious s a) :=
  match a with
  | .call _ (.advance _) => inferInstanceAs (Decidable (_ → _))
  | .call _ (.init _ _) => inferInstanceAs (Decidable (_ → _))
  | .task _ _ | .tick | .timerCallback | .stray _ | .call _ .start | .call _ .stop
  | .call _ .deinit => isTrue trivial

/-- A wait fails only after an error was reported, or is excused. -/
def Call.Warned (s : Shared) (c : Call) (excused : Prop) : Prop :=
  c.pc = .wait → s.eventFlags = .live ∧ (c.op.flag ∈ s.flags ∨ .error ∈ s.flags) ∨
    s.error ≠ .ok ∨ excused

instance (s : Shared) (c : Call) (excused : Prop) [Decidable excused] :
    Decidable (c.Warned s excused) :=
  inferInstanceAs (Decidable (_ → _))

/-- A wait for the end of the task fails only after an error was reported or the task has ended,
and the client is initialised only while no other call is under way. -/
def Patient (s : State ι) : Action ι → Prop
  | .call i (.advance _) =>
      (s.calls i).Warned s.shared ((s.calls i).op.flag = .terminated → s.task.pc = .done)
  | .call i (.init _ _) => s.shared.state = .uninitialised →
      ∀ j, j ≠ i → (s.calls j).pc = .idle
  | .task _ _ | .tick | .timerCallback | .stray _ | .call _ .start | .call _ .stop
  | .call _ .deinit => True

theorem Cautious.patient {s : State ι} {a : Action ι} (h : Cautious s a) : Patient s a := by
  cases a with
  | call i action =>
      cases action with
      | advance res => exact fun hpc => (h hpc).imp_right Or.inl
      | init config created => exact h
      | start | stop | deinit => trivial
  | task res seconds | tick | timerCallback | stray effect => trivial

/-! ## The invariant -/

/-- An error is reported, or the mutex that guards it is gone. -/
def Shared.Recorded (s : Shared) : Prop := s.error ≠ .ok ∨ s.mutex ≠ .live

/-- The context while the last task has ended, or has not. -/
structure Shared.Grounded (s : Shared) (ended : Prop) : Prop where
  thread : s.thread = false → ended
  state : s.state = .uninitialised → s.thread = false
  strays : s.strays = 0
  terminated : .terminated ∈ s.flags → ended
  error : s.eventFlags = .live → .error ∈ s.flags → s.Recorded

/-- The task sets `NTP_CLIENT_ERROR_FLAG` after it has written its error. -/
def Task.Grounded (s : Shared) (t : Task) : Prop :=
  match t.pc with
  | .errAcquire => t.error ≠ .ok
  | .errRelease | .errSet => s.Recorded
  | _ => True

/-- A call deletes after the task has ended, and has seen the flags that it works on. -/
def Call.Grounded (s : Shared) (ended : Prop) (c : Call) : Prop :=
  match c.pc with
  | .idle | .put | .wait => True
  | .clear flags => (.terminated ∈ flags → ended) ∧ (.error ∈ flags → s.Recorded)
  | .errAcquire => s.Recorded
  | .errRelease error => error ≠ .ok
  | .deleteFlags | .deleteQueue | .deleteMutex => s.thread = false

structure Grounded (s : State ι) : Prop where
  shared : s.shared.Grounded (s.task.pc = .done)
  task : s.task.Grounded s.shared
  calls : ∀ i, (s.calls i).Grounded s.shared (s.task.pc = .done)

/-- What every step keeps that does not initialise the client. -/
structure Shared.Keeps (s t : Shared) : Prop where
  thread : s.thread = false → t.thread = false
  recorded : s.Recorded → t.Recorded

/-- A call sets no flag, and replaces no object of a task that goes on. -/
structure Shared.Shrinks (s : Shared) (ended : Prop) (t : Shared) : Prop extends s.Keeps t where
  flags : t.flags ⊆ s.flags
  objects : t.objects ≠ s.objects → ended

section Shared

variable {s t : Shared} {ended ended' : Prop}

theorem Shared.Shrinks.of_eq (hthread : s.thread = false → t.thread = false)
    (herror : t.error = s.error) (hflags : t.flags = s.flags) (hobjects : t.objects = s.objects) :
    s.Shrinks ended t := by
  refine ⟨⟨hthread, ?_⟩, hflags.subset, fun hne => absurd hobjects hne⟩
  rw [Shared.Recorded, Shared.Recorded, herror, (List.cons.inj hobjects).1]
  exact id

theorem Shared.Shrinks.refl (s : Shared) : s.Shrinks ended s :=
  .of_eq id rfl rfl rfl

theorem Shared.Shrinks.trans {u : Shared} (h : s.Shrinks ended t) (h' : t.Shrinks ended u) :
    s.Shrinks ended u := by
  refine ⟨⟨h'.thread ∘ h.thread, h'.recorded ∘ h.recorded⟩, h'.flags.trans h.flags, fun hne => ?_⟩
  by_cases heq : u.objects = t.objects
  · exact h.objects (heq ▸ hne)
  · exact h'.objects heq

theorem Shared.Keeps.call (h : s.Keeps t) (hended : ended → ended') {c : Call}
    (hc : c.Grounded s ended) : c.Grounded t ended' := by
  dsimp only [Call.Grounded] at hc ⊢
  cases hpc : c.pc with
  | clear flags =>
      rw [hpc] at hc
      exact ⟨fun hmem => hended (hc.1 hmem), fun hmem => h.recorded (hc.2 hmem)⟩
  | errAcquire =>
      rw [hpc] at hc
      exact h.recorded hc
  | errRelease error =>
      rw [hpc] at hc
      exact hc
  | deleteFlags | deleteQueue | deleteMutex =>
      rw [hpc] at hc
      exact h.thread hc
  | _ => trivial

theorem Shared.Keeps.task (h : s.Keeps t) {task : Task} (hc : task.Grounded s) :
    task.Grounded t := by
  dsimp only [Task.Grounded] at hc ⊢
  split at hc
  · exact hc
  · exact h.recorded hc
  · exact h.recorded hc
  · trivial

/-- Without a thread, `memset` leaves nothing to wait for. -/
theorem Shared.Grounded.memset (h : s.Grounded ended) (hthread : s.thread = false) :
    s.memset.Grounded ended :=
  ⟨fun _ => h.thread hthread, fun _ => rfl, h.strays, h.terminated,
    by simp [Shared.memset, Shared.zero]⟩

theorem Shared.Shrinks.memset (hended : ended) : s.Shrinks ended s.memset :=
  ⟨⟨fun _ => rfl, fun _ => Or.inr (by simp [Shared.memset, Shared.zero])⟩, subset_rfl,
    fun _ => hended⟩

end Shared

/-! ## The wait for an event -/

section Call

variable {s : Shared} {c : Call} {ended : Prop} {res : ℤ} {next : Shared × Call}

theorem Call.grounded_of_idle (hpc : c.pc = .idle) : c.Grounded s ended := by
  rw [Grounded, hpc]
  trivial

/-- What the step of a call must keep, for itself and for the others. -/
structure Sound (s : Shared) (ended : Prop) (next : Shared × Call) : Prop where
  shrinks : s.Shrinks ended next.1
  shared : next.1.Grounded ended
  call : next.2.Grounded next.1 ended

/-- The wait goes on with flags that it has seen, and only with its flag it succeeds, if it does
not fail otherwise than it may. -/
theorem Call.wait_spec {out : Shared × (Call.Pc ⊕ Result)} {excused : Prop}
    (hw : Call.waitForNtpEvent s c.op.flag c.pc res = some out)
    (h : s.Grounded ended) (hc : c.Grounded s ended) (hok : c.Warned s excused) :
    (∀ pc, out.2 = .inl pc → (c.goto pc).Grounded out.1 ended) ∧
    (out.2 = .inr .ok → c.Seen ∨ excused) := by
  rw [Call.Grounded] at hc
  cases hpc : c.pc with
  | wait =>
      simp only [Call.waitForNtpEvent, hpc] at hw
      by_cases hseen : s.eventFlags = .live ∧ (c.op.flag ∈ s.flags ∨ .error ∈ s.flags)
      · rw [if_pos hseen] at hw
        cases hw
        refine ⟨fun pc heq => ?_, fun heq => by cases heq⟩
        cases heq
        exact ⟨h.terminated, h.error hseen.1⟩
      · rw [if_neg hseen] at hw
        obtain ⟨-, hw⟩ := Option.ite_none_right_eq_some.mp hw
        cases hw
        refine ⟨fun pc heq => (by cases heq), fun heq => ?_⟩
        rcases hok hpc with hflags | herror | hexcused
        · exact absurd hflags hseen
        · exact absurd (Sum.inr.inj heq) herror
        · exact Or.inr hexcused
  | clear flags =>
      rw [hpc] at hc
      simp only [Call.waitForNtpEvent, hpc] at hw
      cases hw
      split
      · refine ⟨fun pc heq => ?_, fun heq => ?_⟩
        · dsimp only at heq
          split at heq
          · cases heq
          · split at heq
            · next hmem =>
                cases heq
                exact hc.2 hmem
            · cases heq
        · dsimp only at heq
          split at heq
          · next hflag => exact Or.inl ⟨flags, hpc, by simp [hflag]⟩
          · split at heq <;> cases heq
      · exact ⟨fun pc heq => (by cases heq), fun heq => by cases heq⟩
  | errAcquire =>
      rw [hpc] at hc
      simp only [Call.waitForNtpEvent, hpc] at hw
      cases hw
      refine ⟨fun pc heq => ?_, fun heq => ?_⟩
      · dsimp only at heq
        split at heq
        · next hmutex =>
            cases heq
            exact hc.resolve_right (not_not_intro hmutex.1)
        · cases heq
      · dsimp only at heq
        split at heq <;> cases heq
  | errRelease error =>
      rw [hpc] at hc
      simp only [Call.waitForNtpEvent, hpc] at hw
      cases hw
      refine ⟨fun pc heq => (by cases heq), fun heq => ?_⟩
      dsimp only at heq
      split at heq
      · exact absurd (Sum.inr.inj heq) hc
      · cases heq
  | idle | put | deleteFlags | deleteQueue | deleteMutex =>
      simp only [Call.waitForNtpEvent, hpc] at hw
      cases hw

/-! ## The deletions -/

theorem Sound.after {s' : Shared} (hs : Sound s' ended next) (h : s.Shrinks ended s') :
    Sound s ended next :=
  ⟨h.trans hs.shrinks, hs.shared, hs.call⟩

theorem Call.conclude_grounded (c : Call) (result : Result) :
    (c.conclude result).Grounded s ended :=
  grounded_of_idle (c.conclude_pc result)

theorem Sound.deinitMutex (h : s.Grounded ended) (hthread : s.thread = false) (c : Call) :
    Sound s ended (c.deinitMutex s) := by
  dsimp only [Call.deinitMutex]
  split
  · exact ⟨.refl s, h, hthread⟩
  · exact ⟨.memset (h.thread hthread), h.memset hthread, c.conclude_grounded .ok⟩

theorem Sound.deinitQueue (h : s.Grounded ended) (hthread : s.thread = false) (c : Call) :
    Sound s ended (c.deinitQueue s) := by
  dsimp only [Call.deinitQueue]
  split
  · exact ⟨.refl s, h, hthread⟩
  · exact .deinitMutex h hthread c

theorem Sound.deinitFlags (h : s.Grounded ended) (hthread : s.thread = false) (c : Call) :
    Sound s ended (c.deinitFlags s) := by
  dsimp only [Call.deinitFlags]
  split
  · exact ⟨.refl s, h, hthread⟩
  · exact .deinitQueue h hthread c

theorem Sound.deinitThread (h : s.Grounded ended) (c : Call) :
    Sound s ended (c.deinitThread s) := by
  dsimp only [Call.deinitThread]
  split
  · exact ⟨.refl s, h, trivial⟩
  · next hthread => exact .deinitFlags h (Bool.eq_false_of_not_eq_true hthread) _

/-! ## One step of a call -/

theorem Shared.Grounded.withState (h : s.Grounded ended) {state : ClientState}
    (hstate : state ≠ .uninitialised) : { s with state := state }.Grounded ended :=
  ⟨h.thread, fun heq => absurd heq hstate, h.strays, h.terminated, h.error⟩

theorem Sound.waited (h : s.Grounded ended) {result : Result}
    (hflag : result = .ok → c.op.flag = .terminated → ended) :
    Sound s ended (c.waited s result) := by
  dsimp only [Call.waited]
  by_cases hresult : result = .ok
  · rw [if_neg (not_not_intro hresult)]
    cases hop : c.op with
    | start => exact ⟨.of_eq id rfl rfl rfl, h.withState (by simp), trivial⟩
    | stop => exact ⟨.of_eq id rfl rfl rfl, h.withState (by simp), trivial⟩
    | deinitStop =>
        have hstopped : { s with state := .stopped }.Grounded ended := h.withState (by simp)
        exact (Sound.deinitThread hstopped c).after (.of_eq id rfl rfl rfl)
    | deinit =>
        have hended : ended := hflag hresult (by rw [hop]; rfl)
        have hforgotten : { s with thread := false }.Grounded ended :=
          ⟨fun _ => hended, fun _ => rfl, h.strays, h.terminated, h.error⟩
        exact (Sound.deinitFlags hforgotten rfl c).after (.of_eq (fun _ => rfl) rfl rfl rfl)
    | cleanup error => exact ⟨.refl s, h, trivial⟩
  · rw [if_pos hresult]
    exact ⟨.refl s, h, trivial⟩

theorem Sound.wait (h : s.Grounded ended) (hc : c.Grounded s ended)
    {out : Shared × (Call.Pc ⊕ Result)}
    (hw : Call.waitForNtpEvent s c.op.flag c.pc res = some out)
    (hok : c.Warned s (c.op.flag = .terminated → ended)) :
    Sound s ended (match out.2 with
      | .inl pc => (out.1, c.goto pc)
      | .inr result => c.waited out.1 result) := by
  obtain ⟨flags, hsub, hout⟩ := Call.wait_frame hw
  obtain ⟨hgoto, hret⟩ := Call.wait_spec hw h hc hok
  have hshrinks : s.Shrinks ended out.1 := by
    rw [hout]
    exact ⟨⟨id, id⟩, hsub, fun hne => absurd rfl hne⟩
  have hshared : out.1.Grounded ended := by
    rw [hout]
    exact ⟨h.thread, h.state, h.strays, fun hmem => h.terminated (hsub hmem),
      fun hlive hmem => h.error hlive (hsub hmem)⟩
  cases hout2 : out.2 with
  | inl pc => exact ⟨hshrinks, hshared, hgoto pc hout2⟩
  | inr result =>
      refine (Sound.waited hshared fun hresult hflag => ?_).after hshrinks
      obtain ⟨flags, hpc, hmem⟩ | hexcused := hret (hout2.trans (congrArg _ hresult))
      · rw [Call.Grounded, hpc] at hc
        exact hc.1 (hflag ▸ hmem)
      · exact hexcused hflag

theorem Sound.advance (h : s.Grounded ended) (hc : c.Grounded s ended)
    (hs : c.advance s res = some next)
    (hok : c.Warned s (c.op.flag = .terminated → ended)) : Sound s ended next := by
  have hthread : c.pc = .deleteFlags ∨ c.pc = .deleteQueue ∨ c.pc = .deleteMutex →
      s.thread = false := by
    rw [Call.Grounded] at hc
    rintro (hpc | hpc | hpc)
    · rwa [hpc] at hc
    · rwa [hpc] at hc
    · rwa [hpc] at hc
  cases Call.advance_effect hs with
  | put hpc hroom =>
      exact ⟨.of_eq id rfl rfl rfl, ⟨h.thread, h.state, h.strays, h.terminated, h.error⟩, trivial⟩
  | full hpc hroom => exact ⟨.refl s, h, trivial⟩
  | waits hflags hw | waited hflags hw => exact .wait h hc hw hok
  | deleteFlags hpc hdeleted =>
      have hthread := hthread (Or.inl hpc)
      have hgone : { s with eventFlags := .deleted }.Grounded ended :=
        ⟨h.thread, h.state, h.strays, h.terminated, by simp⟩
      exact (Sound.deinitQueue hgone hthread c).after
        ⟨⟨id, id⟩, subset_rfl, fun _ => h.thread hthread⟩
  | deleteQueue hpc hdeleted =>
      have hthread := hthread (Or.inr (Or.inl hpc))
      have hgone : { s with eventQueue := .null }.Grounded ended :=
        ⟨h.thread, h.state, h.strays, h.terminated, h.error⟩
      exact (Sound.deinitMutex hgone hthread c).after
        ⟨⟨id, id⟩, subset_rfl, fun _ => h.thread hthread⟩
  | deleteMutex hpc hdeleted =>
      have hthread := hthread (Or.inr (Or.inr hpc))
      exact ⟨.memset (h.thread hthread), h.memset hthread, c.conclude_grounded .ok⟩
  | refused herror hpc => exact ⟨.refl s, h, c.conclude_grounded _⟩

theorem Sound.deinit (h : s.Grounded ended) (c : Call) :
    Sound s ended (c.iotNtpClientDeinit s) := by
  dsimp only [Call.iotNtpClientDeinit]
  split
  · exact ⟨.refl s, h, trivial⟩
  · exact .deinitThread h c

/-! ## The client state -/

theorem state_of_eq {t : Shared} (h : t = s ∨ t = s.memset) :
    t.state = s.state ∨ t.state = .uninitialised := by
  rcases h with rfl | rfl
  · exact Or.inl rfl
  · exact Or.inr rfl

theorem Call.waited_state (s : Shared) (c : Call) (result : Result) :
    (c.waited s result).1.state = s.state ∨ (c.waited s result).1.state = .uninitialised ∨
      result = .ok ∧ ((c.waited s result).1.state = .running ∧ c.op = .start ∨
        (c.waited s result).1.state = .stopped ∧ c.op.flag = .stop) := by
  dsimp only [waited]
  by_cases hresult : result = .ok
  · rw [if_neg (not_not_intro hresult)]
    cases hop : c.op with
    | start => exact Or.inr (Or.inr ⟨hresult, Or.inl ⟨rfl, rfl⟩⟩)
    | stop => exact Or.inr (Or.inr ⟨hresult, Or.inr ⟨rfl, rfl⟩⟩)
    | deinitStop =>
        rcases state_of_eq (deinitThread_fst { s with state := .stopped } c) with h | h
        · exact Or.inr (Or.inr ⟨hresult, Or.inr ⟨h, rfl⟩⟩)
        · exact Or.inr (Or.inl h)
    | deinit =>
        rcases state_of_eq (deinitFlags_fst { s with thread := false } c) with h | h
        · exact Or.inl h
        · exact Or.inr (Or.inl h)
    | cleanup error => exact Or.inl rfl
  · rw [if_pos hresult]
    exact Or.inl rfl

/-- The client goes to RUNNING or to STOPPED only where a wait succeeds. -/
theorem Call.advance_state (hs : c.advance s res = some next) :
    next.1.state = s.state ∨ next.1.state = .uninitialised ∨
      (∃ shared, waitForNtpEvent s c.op.flag c.pc res = some (shared, .inr .ok)) ∧
        (next.1.state = .running ∧ c.op = .start ∨
          next.1.state = .stopped ∧ c.op.flag = .stop) := by
  cases advance_effect hs with
  | put | full | waits | refused => exact Or.inl rfl
  | @waited flags result hflags hw =>
      rcases waited_state { s with flags := flags } c result with h | h | ⟨hresult, h⟩
      · exact Or.inl h
      · exact Or.inr (Or.inl h)
      · exact Or.inr (Or.inr ⟨⟨_, hresult ▸ hw⟩, h⟩)
  | deleteFlags hpc hok =>
      rcases state_of_eq (deinitQueue_fst { s with eventFlags := .deleted } c) with h | h
      · exact Or.inl h
      · exact Or.inr (Or.inl h)
  | deleteQueue hpc hok =>
      rcases state_of_eq (deinitMutex_fst { s with eventQueue := .null } c) with h | h
      · exact Or.inl h
      · exact Or.inr (Or.inl h)
  | deleteMutex => exact Or.inr (Or.inl rfl)

theorem Shared.Blank.grounded {t : Shared} (hb : s.Blank t) (h : s.Grounded ended)
    (hended : ended) : t.Grounded ended :=
  ⟨fun _ => hended, fun _ => hb.thread, hb.strays.trans h.strays, fun _ => hended,
    fun hlive hmem => by simp [hb.eventFlags hlive] at hmem⟩

theorem Shared.Fresh.grounded {t : Shared} (hf : s.Fresh t) (h : s.Grounded ended)
    (ended' : Prop) : t.Grounded ended' := by
  refine ⟨fun hthread => ?_, fun hstate => ?_, hf.strays.trans h.strays, fun hmem => ?_,
    fun _ hmem => ?_⟩
  · cases hf.thread.symm.trans hthread
  · cases hf.state.symm.trans hstate
  · simp [hf.flags] at hmem
  · simp [hf.flags] at hmem

end Call

/-! ## One step of the task -/

section Task

variable {s : Shared} {t : Task} {res : ℤ} {seconds : BitVec 32} {next : Shared × Task}

theorem Shared.Keeps.ntpTimerCallback (s : Shared) : s.Keeps s.ntpTimerCallback := by
  obtain ⟨events, -, hput⟩ := s.ntpTimerCallback_eq
  rw [hput]
  exact ⟨id, id⟩

theorem Shared.Grounded.ntpTimerCallback {ended : Prop} (h : s.Grounded ended) :
    s.ntpTimerCallback.Grounded ended := by
  obtain ⟨events, -, hput⟩ := s.ntpTimerCallback_eq
  rw [hput]
  exact ⟨h.thread, h.state, h.strays, h.terminated, h.error⟩

theorem Task.Grounded.keeps (h : t.Grounded s) (hs : t.advance s res seconds = some next) :
    s.Keeps next.1 := by
  obtain ⟨s', t'⟩ := next
  have heffect : t.Effect s s' := Task.advance_effect hs
  cases heffect with
  | retry hpc => exact .ntpTimerCallback s
  | setError hpc =>
      rw [Task.Grounded, hpc] at h
      exact ⟨id, fun _ => Or.inl h⟩
  | none | take hpc hqueue | setTime hpc | setFlag hpc hlive => exact ⟨id, id⟩

theorem Task.Grounded.advance (h : t.Grounded s) (hs : t.advance s res seconds = some next) :
    next.2.Grounded next.1 := by
  rw [Task.Grounded]
  rcases Task.advance_flow hs with hflow | hover
  · cases hpc : next.2.pc with
    | errAcquire =>
        rw [hpc] at hflow
        exact absurd hflow t.pc.not_flow_errAcquire
    | errRelease =>
        rw [hpc] at hflow
        have hacquire := hflow.errAcquire
        rw [Task.Grounded, hacquire] at h
        simp only [Task.advance, hacquire] at hs
        cases hs
        split at hpc
        · next hok =>
            rw [if_pos hok]
            exact Or.inl h
        · have hleaving := t.leave_leaving
          rw [hpc] at hleaving
          cases hleaving
    | errSet =>
        rw [hpc] at hflow
        have hkeeps := h.keeps hs
        rw [Task.Grounded, hflow.errRelease] at h
        exact hkeeps.recorded h
    | _ => trivial
  · rw [Task.Over] at hover
    cases hpc : next.2.pc with
    | errAcquire =>
        rw [hpc] at hover
        exact hover
    | errRelease | errSet =>
        rw [hpc] at hover
        cases hover
    | _ => trivial

/-- The task sets flags, and changes neither the client state nor the objects. -/
theorem Task.advance_frame (hs : t.advance s res seconds = some next) :
    next.1.state = s.state ∧ next.1.objects = s.objects ∧
      ∀ flag ∈ next.1.flags, flag ∈ s.flags ∨ t.pc = flag.pc := by
  obtain ⟨s', t'⟩ := next
  have heffect : t.Effect s s' := Task.advance_effect hs
  cases heffect with
  | retry hpc =>
      obtain ⟨events, -, hput⟩ := s.ntpTimerCallback_eq
      rw [hput]
      exact ⟨rfl, rfl, fun _ => Or.inl⟩
  | none | take hpc hqueue | setTime hpc | setError hpc => exact ⟨rfl, rfl, fun _ => Or.inl⟩
  | setFlag hpc hlive =>
      refine ⟨rfl, rfl, fun flag hmem => ?_⟩
      rcases Finset.mem_insert.mp hmem with hflag | hmem
      · exact Or.inr (hflag ▸ hpc)
      · exact Or.inl hmem

theorem Shared.Grounded.task (h : s.Grounded (t.pc = .done)) (ht : t.Grounded s)
    (hs : t.advance s res seconds = some next) : next.1.Grounded (next.2.pc = .done) := by
  have hrun : t.pc ≠ .done := by
    intro hpc
    simp [Task.advance, hpc] at hs
  have hnext : s.Grounded (next.2.pc = .done) :=
    ⟨fun hthread => absurd (h.thread hthread) hrun, h.state, h.strays,
      fun hmem => absurd (h.terminated hmem) hrun, h.error⟩
  obtain ⟨s', t'⟩ := next
  have heffect : t.Effect s s' := Task.advance_effect hs
  cases heffect with
  | none => exact hnext
  | take hpc hqueue | setTime hpc =>
      exact ⟨hnext.thread, hnext.state, hnext.strays, hnext.terminated, hnext.error⟩
  | retry hpc => exact hnext.ntpTimerCallback
  | setError hpc =>
      rw [Task.Grounded, hpc] at ht
      exact ⟨hnext.thread, hnext.state, hnext.strays, hnext.terminated, fun _ _ => Or.inl ht⟩
  | @setFlag flag hpc hlive =>
      refine ⟨hnext.thread, hnext.state, hnext.strays, fun hmem => ?_, fun _ hmem => ?_⟩
      · rcases Finset.mem_insert.mp hmem with hflag | hmem
        · subst hflag
          exact Task.exitFlag_ends hpc hs
        · exact hnext.terminated hmem
      · rcases Finset.mem_insert.mp hmem with hflag | hmem
        · subst hflag
          rw [Task.Grounded, hpc] at ht
          exact ht
        · exact hnext.error hlive hmem

end Task

/-! ## Runs -/

variable {s t : State ι}

theorem newTask_shared (hdone : s.task.pc = .done) :
    ∃ leaks, s.newTask.shared = { s.shared with leaks := leaks } := by
  dsimp only [State.newTask]
  rw [if_neg (not_not_intro hdone)]
  split
  · exact ⟨_, rfl⟩
  · exact ⟨s.shared.leaks, rfl⟩

theorem Shared.Grounded.newTask (h : ∀ ended, s.shared.Grounded ended)
    (hdone : s.task.pc = .done) : s.newTask.shared.Grounded (s.newTask.task.pc = .done) := by
  obtain ⟨leaks, hleaks⟩ := newTask_shared hdone
  have hfresh := h (s.newTask.task.pc = .done)
  rw [hleaks]
  exact ⟨hfresh.thread, hfresh.state, hfresh.strays, hfresh.terminated, hfresh.error⟩

theorem Earned.of_shrinks {a : Action ι} (hflags : t.shared.flags ⊆ s.shared.flags)
    (hobjects : t.shared.objects ≠ s.shared.objects → s.task.pc = .done ∧ s.shared.strays = 0)
    (hstate : t.shared.state = s.shared.state ∨ t.shared.state = .uninitialised ∨
      s.shared.state = .uninitialised ∧ t.shared.state ≠ .running)
    (ha : ∀ i res, a ≠ .call i (.advance res)) : Earned s a t := by
  refine ⟨fun flag hmem hnot => absurd (hflags hmem) hnot,
    fun i res _ heq => absurd heq (ha i res), fun hs ht => ?_, fun hs ht => ?_,
    fun hne => hobjects hne.symm⟩
  · rcases hstate with heq | heq | ⟨-, hne⟩
    · exact absurd (heq.symm.trans ht) hs
    · cases heq.symm.trans ht
    · exact absurd ht hne
  · rcases hstate with heq | heq | ⟨heq, -⟩
    · cases (heq.symm.trans ht).symm.trans hs
    · cases heq.symm.trans ht
    · cases heq.symm.trans hs

theorem grounded_init : Grounded (init ι) := by
  refine ⟨⟨fun _ => rfl, fun _ => rfl, rfl, ?_, ?_⟩, trivial, fun _ => trivial⟩
  · intro hmem
    simp [init, Shared.zero] at hmem
  · intro _ hmem
    simp [init, Shared.zero] at hmem

theorem Grounded.withShared (h : Grounded s) {u : Shared} (hu : u.Grounded (s.task.pc = .done))
    (hkeeps : s.shared.Keeps u) : Grounded { s with shared := u } :=
  ⟨hu, hkeeps.task h.task, fun i => hkeeps.call id (h.calls i)⟩

variable [DecidableEq ι]

theorem Grounded.setCall (h : Grounded s) {i : ι} {next : Shared × Call}
    (hn : Sound s.shared (s.task.pc = .done) next) : Grounded (s.setCall i next) := by
  refine ⟨hn.shared, hn.shrinks.toKeeps.task h.task, fun j => ?_⟩
  dsimp only [State.setCall]
  by_cases hj : j = i
  · subst hj
    rw [Function.update_self]
    exact hn.call
  · rw [Function.update_of_ne hj]
    exact hn.shrinks.toKeeps.call id (h.calls j)

theorem Grounded.initialise (h : Grounded s) {i : ι} {config : Option Config}
    {created : Creation} (huninit : s.shared.state = .uninitialised)
    (hidle : ∀ j, j ≠ i → (s.calls j).pc = .idle) :
    Grounded (s.iotNtpClientInit i config created) := by
  have hdone : s.task.pc = .done := h.shared.thread (h.shared.state huninit)
  have hcalls : ∀ (next : Shared × Call) (u : Shared) (ended : Prop), next.2.Grounded u ended →
      ∀ j, ((s.setCall i next).calls j).Grounded u ended := by
    intro next u ended hnext j
    dsimp only [State.setCall]
    by_cases hj : j = i
    · subst hj
      rw [Function.update_self]
      exact hnext
    · rw [Function.update_of_ne hj]
      exact Call.grounded_of_idle (hidle j hj)
  dsimp only [State.iotNtpClientInit]
  obtain ⟨u, error, hblank, heq⟩ | ⟨u, hfresh, heq⟩ :=
    Call.init_cases s.shared (s.calls i) config created huninit
  · rw [heq]
    have hsound := Sound.deinitFlags (hblank.grounded h.shared hdone) hblank.thread
      { s.calls i with op := .cleanup error }
    have htask : s.task.Grounded (({ s.calls i with op := .cleanup error } : Call).deinitFlags
        u).1 := by
      rw [Task.Grounded, hdone]
      trivial
    exact ⟨hsound.shared, htask, hcalls _ _ _ hsound.call⟩
  · rw [heq]
    have hshared := Shared.Grounded.newTask (s := s.setCall i (u, (s.calls i).ret .ok))
      (hfresh.grounded h.shared) hdone
    exact ⟨hshared, trivial, hcalls _ _ _ trivial⟩

theorem Grounded.call (h : Grounded s) {i : ι} {action : CallAction}
    (hok : Patient s (.call i action)) (hs : s.call i action = some t) : Grounded t := by
  dsimp only [State.call] at hs
  cases action with
  | init config created =>
      obtain ⟨hidle, hs⟩ := Option.ite_none_right_eq_some.mp hs
      cases hs
      by_cases huninit : s.shared.state = .uninitialised
      · exact h.initialise huninit (hok huninit)
      · have hsame : Sound s.shared (s.task.pc = .done) (s.shared, (s.calls i).ret .ok) :=
          ⟨.refl _, h.shared, trivial⟩
        simp only [State.iotNtpClientInit, Call.iotNtpClientInit, ne_eq, huninit,
          not_false_eq_true, if_true]
        exact h.setCall hsame
  | start =>
      obtain ⟨-, hs⟩ := Option.ite_none_right_eq_some.mp hs
      cases hs
      refine h.setCall ⟨.refl _, h.shared, ?_⟩
      dsimp only [Call.iotNtpClientStart]
      split <;> trivial
  | stop =>
      obtain ⟨-, hs⟩ := Option.ite_none_right_eq_some.mp hs
      cases hs
      refine h.setCall ⟨.refl _, h.shared, ?_⟩
      dsimp only [Call.iotNtpClientStop]
      split <;> trivial
  | deinit =>
      obtain ⟨-, hs⟩ := Option.ite_none_right_eq_some.mp hs
      cases hs
      exact h.setCall (.deinit h.shared _)
  | advance res =>
      obtain ⟨next, hnext, rfl⟩ := Option.map_eq_some_iff.mp hs
      exact h.setCall (.advance h.shared (h.calls i) hnext hok)

theorem Grounded.step {a : Action ι} (h : Grounded s) (hok : Patient s a)
    (hs : step s a = some t) : Grounded t := by
  cases a with
  | task res seconds =>
      obtain ⟨next, hnext, rfl⟩ := Option.map_eq_some_iff.mp hs
      refine ⟨h.shared.task h.task hnext, h.task.advance hnext, fun i => ?_⟩
      refine (h.task.keeps hnext).call (fun hdone => ?_) (h.calls i)
      simp [Task.advance, hdone] at hnext
  | tick =>
      obtain ⟨-, hs⟩ := Option.ite_none_right_eq_some.mp hs
      cases hs
      exact h.withShared ⟨h.shared.thread, h.shared.state, h.shared.strays, h.shared.terminated,
        h.shared.error⟩ ⟨id, id⟩
  | timerCallback =>
      obtain ⟨-, hs⟩ := Option.ite_none_right_eq_some.mp hs
      cases hs
      have hrun : Shared.Grounded { s.shared with callbacks := s.shared.callbacks - 1 }
          (s.task.pc = .done) :=
        ⟨h.shared.thread, h.shared.state, h.shared.strays, h.shared.terminated, h.shared.error⟩
      have hkeeps := Shared.Keeps.ntpTimerCallback
        { s.shared with callbacks := s.shared.callbacks - 1 }
      exact h.withShared hrun.ntpTimerCallback ⟨hkeeps.thread, hkeeps.recorded⟩
  | stray effect =>
      obtain ⟨hpos, -⟩ := Option.ite_none_right_eq_some.mp hs
      rw [h.shared.strays] at hpos
      cases hpos
  | call i action => exact h.call hok hs

/-! ## What a step earns -/

theorem Earned.advance (h : Grounded s) {i : ι} {res : ℤ}
    (hok : Cautious s (.call i (.advance res))) (hs : s.call i (.advance res) = some t) :
    Earned s (.call i (.advance res)) t := by
  obtain ⟨next, hnext, rfl⟩ := Option.map_eq_some_iff.mp hs
  have hsound := Sound.advance h.shared (h.calls i) hnext hok.patient
  have hwarned : (s.calls i).Warned s.shared False := fun hpc => (hok hpc).imp_right Or.inl
  have hseen : ∀ shared, Call.waitForNtpEvent s.shared (s.calls i).op.flag (s.calls i).pc res =
      some (shared, .inr .ok) → (s.calls i).Seen := fun shared hw =>
    ((Call.wait_spec hw h.shared (h.calls i) hwarned).2 rfl).resolve_right id
  have hstate := Call.advance_state hnext
  constructor
  · exact fun flag hmem hnot => absurd (hsound.shrinks.flags hmem) hnot
  · intro j res' shared heq hw
    cases heq
    exact hseen shared hw
  · intro hrun hrun'
    rcases hstate with heq | heq | ⟨⟨shared, hw⟩, ⟨-, hop⟩ | ⟨heq, -⟩⟩
    · exact absurd (heq.symm.trans hrun') hrun
    · cases heq.symm.trans hrun'
    · exact ⟨i, res, rfl, hop, hseen shared hw⟩
    · cases heq.symm.trans hrun'
  · intro hrun hstop
    rcases hstate with heq | heq | ⟨⟨shared, hw⟩, ⟨heq, -⟩ | ⟨-, hop⟩⟩
    · cases (heq.symm.trans hstop).symm.trans hrun
    · cases heq.symm.trans hstop
    · cases heq.symm.trans hstop
    · exact ⟨i, res, rfl, hop, hseen shared hw⟩
  · exact fun hne => ⟨hsound.shrinks.objects hne.symm, h.shared.strays⟩

theorem Earned.initialise (h : Grounded s) {i : ι} {config : Option Config}
    {created : Creation} : Earned s (.call i (.init config created))
      (s.iotNtpClientInit i config created) := by
  by_cases huninit : s.shared.state = .uninitialised
  · have hdone : s.task.pc = .done := h.shared.thread (h.shared.state huninit)
    have hobjects : s.task.pc = .done ∧ s.shared.strays = 0 := ⟨hdone, h.shared.strays⟩
    dsimp only [State.iotNtpClientInit]
    obtain ⟨u, error, hblank, heq⟩ | ⟨u, hfresh, heq⟩ :=
      Call.init_cases s.shared (s.calls i) config created huninit
    · rw [heq]
      have hsound := Sound.deinitFlags (hblank.grounded h.shared hdone) hblank.thread
        { s.calls i with op := .cleanup error }
      refine .of_shrinks (hsound.shrinks.flags.trans hblank.flags) (fun _ => hobjects)
        (Or.inr (Or.inl ?_)) (by simp)
      have hfst := Call.deinitFlags_fst u { s.calls i with op := .cleanup error }
      rcases state_of_eq hfst with hstate | hstate
      · exact hstate.trans hblank.state
      · exact hstate
    · rw [heq]
      obtain ⟨leaks, hleaks⟩ := newTask_shared (s := s.setCall i (u, (s.calls i).ret .ok)) hdone
      have hempty : u.flags ⊆ s.shared.flags := by simp [hfresh.flags]
      have hstopped : u.state ≠ .running := by simp [hfresh.state]
      refine .of_shrinks ?_ (fun _ => hobjects) (Or.inr (Or.inr ⟨huninit, ?_⟩)) (by simp)
      · rw [if_pos rfl, hleaks]
        exact hempty
      · rw [if_pos rfl, hleaks]
        exact hstopped
  · simp only [State.iotNtpClientInit, Call.iotNtpClientInit, ne_eq, huninit, not_false_eq_true,
      if_true]
    exact .of_shrinks subset_rfl (fun hne => absurd rfl hne) (Or.inl rfl) (by simp)

theorem Earned.call (h : Grounded s) {i : ι} {action : CallAction}
    (hok : Cautious s (.call i action)) (hs : s.call i action = some t) :
    Earned s (.call i action) t := by
  cases action with
  | init config created =>
      obtain ⟨-, hs⟩ := Option.ite_none_right_eq_some.mp hs
      cases hs
      exact .initialise h
  | start | stop =>
      obtain ⟨-, hs⟩ := Option.ite_none_right_eq_some.mp hs
      cases hs
      exact .of_shrinks subset_rfl (fun hne => absurd rfl hne) (Or.inl rfl) (by simp)
  | deinit =>
      obtain ⟨-, hs⟩ := Option.ite_none_right_eq_some.mp hs
      cases hs
      have hsound := Sound.deinit h.shared (s.calls i)
      refine .of_shrinks hsound.shrinks.flags
        (fun hne => ⟨hsound.shrinks.objects hne, h.shared.strays⟩) ?_ (by simp)
      dsimp only [State.setCall, Call.iotNtpClientDeinit]
      split
      · exact Or.inl rfl
      · exact (state_of_eq (Call.deinitThread_fst _ _)).imp_right Or.inl
  | advance res => exact .advance h hok hs

theorem Earned.step {a : Action ι} (h : Grounded s) (hok : Cautious s a)
    (hs : step s a = some t) : Earned s a t := by
  cases a with
  | task res seconds =>
      obtain ⟨next, hnext, rfl⟩ := Option.map_eq_some_iff.mp hs
      obtain ⟨hstate, hobjects, hflags⟩ := Task.advance_frame hnext
      refine ⟨fun flag hmem hnot => ⟨(hflags flag hmem).resolve_left hnot, res, seconds, rfl⟩,
        fun i res' _ heq => (by cases heq), fun hs ht => ?_, fun hs ht => ?_,
        fun hne => absurd hobjects.symm hne⟩
      · exact absurd (hstate.symm.trans ht) hs
      · cases (hstate.symm.trans ht).symm.trans hs
  | tick =>
      obtain ⟨-, hs⟩ := Option.ite_none_right_eq_some.mp hs
      cases hs
      exact .of_shrinks subset_rfl (fun hne => absurd rfl hne) (Or.inl rfl) (by simp)
  | timerCallback =>
      obtain ⟨-, hs⟩ := Option.ite_none_right_eq_some.mp hs
      cases hs
      obtain ⟨events, -, hput⟩ :=
        Shared.ntpTimerCallback_eq { s.shared with callbacks := s.shared.callbacks - 1 }
      rw [hput]
      exact .of_shrinks subset_rfl (fun hne => absurd rfl hne) (Or.inl rfl) (by simp)
  | stray effect =>
      obtain ⟨hpos, -⟩ := Option.ite_none_right_eq_some.mp hs
      rw [h.shared.strays] at hpos
      cases hpos
  | call i action => exact .call h hok hs

/-- In any interleaving of the task, its timer and the callers of the API, whatever fails: only
the task sets flags, a call succeeds only where its wait has seen the flag of its event, and
the objects are deleted only after the task has ended, if no wait fails before an error was
reported and the client is not initialised while another call is under way. -/
theorem earned_of_cautious (acts : List (Action ι)) (h : Meets step Cautious (init ι) acts) :
    Steps step Earned (init ι) acts := by
  apply Steps.of_invariant Grounded _ _ _ h
  · exact fun s a t hs hok ht => hs.step hok.patient ht
  · exact fun s a t hs hok ht => .step hs hok ht
  · exact grounded_init

theorem lifecycle_earned : Steps step Earned (init Unit) lifecycle :=
  earned_of_cautious lifecycle (by decide)

/-- The wait of a START ends with `osErrorTimeout` while the host name is being resolved. -/
def slowStart : List (Action Unit) :=
  initialise :: callStart ++ taskBegin ++ .task 0 0#32 :: .task 3 0#32 ::
    List.replicate 3 (.task 0 0#32)

theorem slowStart_not_earned : ¬ ∀ acts, Steps step Earned (init Unit) acts := by
  intro h
  have hlast := (h (slowStart ++ [.call () (.advance (-2))])).last rfl rfl
  obtain ⟨flags, hpc, -⟩ := hlast.waited () (-2) _ rfl rfl
  cases hpc

end OpenIotSdk.Ntp
