import OpenIotSdk.Model.Ntp.Client

/-! # The steps of the calls of the NTP client

What the parts of a call do to what is shared. -/

namespace OpenIotSdk.Ntp

variable {s : Shared} {c : Call} {res : ℤ}

@[simp] theorem setCall_calls (s : State Unit) (i : Unit) (next : Shared × Call) :
    (s.setCall i next).calls () = next.2 := by
  cases i
  simp [State.setCall]

/-! ## The wait for an event -/

/-- The wait ends with all the flags. -/
theorem Call.advance_seen (hpc : c.pc = .wait)
    (hseen : s.eventFlags = .live ∧ (c.op.flag ∈ s.flags ∨ .error ∈ s.flags)) :
    c.advance s res = some (s, c.goto (.clear s.flags)) := by
  simp only [advance, hpc, waitForNtpEvent, if_pos hseen]
  rfl

theorem Call.advance_alone (hpc : c.pc = .clear {c.op.flag}) (hok : s.FlagsOk res) :
    c.advance s res = some (c.waited
      { s with flags := s.flags \ ({c.op.flag, .error} ∩ {c.op.flag}) } .ok) := by
  simp only [advance, hpc, waitForNtpEvent, if_pos hok, if_true]
  rfl

/-- `wait_for_ntp_event` does nothing but clear flags. -/
theorem Call.wait_frame {flag : Flag} {pc : Pc} {out : Shared × (Pc ⊕ Result)}
    (hw : waitForNtpEvent s flag pc res = some out) :
    ∃ flags, flags ⊆ s.flags ∧ out.1 = { s with flags := flags } := by
  have hsame : ∃ flags, flags ⊆ s.flags ∧ s = { s with flags := flags } :=
    ⟨s.flags, subset_rfl, rfl⟩
  cases pc with
  | wait =>
      dsimp only [waitForNtpEvent] at hw
      split at hw
      · cases hw
        exact hsame
      · obtain ⟨-, hw⟩ := Option.ite_none_right_eq_some.mp hw
        cases hw
        exact hsame
  | clear flags =>
      cases hw
      split
      · exact ⟨_, Finset.sdiff_subset, rfl⟩
      · exact hsame
  | errAcquire | errRelease error =>
      cases hw
      exact hsame
  | idle | put | deleteFlags | deleteQueue | deleteMutex => cases hw

theorem Call.wait_ne_put {flag : Flag} {pc : Pc} {out : Shared × (Pc ⊕ Result)}
    (hw : waitForNtpEvent s flag pc res = some out) : pc ≠ .put := by
  rintro rfl
  cases hw

/-! ## The deletions -/

theorem Call.conclude_pc (c : Call) (result : Result) : (c.conclude result).pc = .idle := by
  dsimp only [conclude]
  split <;> rfl

theorem Call.deinitMutex_fst (s : Shared) (c : Call) :
    (c.deinitMutex s).1 = s ∨ (c.deinitMutex s).1 = s.memset := by
  dsimp only [deinitMutex]
  split
  · exact Or.inl rfl
  · exact Or.inr rfl

theorem Call.deinitQueue_fst (s : Shared) (c : Call) :
    (c.deinitQueue s).1 = s ∨ (c.deinitQueue s).1 = s.memset := by
  dsimp only [deinitQueue]
  split
  · exact Or.inl rfl
  · exact deinitMutex_fst s c

theorem Call.deinitFlags_fst (s : Shared) (c : Call) :
    (c.deinitFlags s).1 = s ∨ (c.deinitFlags s).1 = s.memset := by
  dsimp only [deinitFlags]
  split
  · exact Or.inl rfl
  · exact deinitQueue_fst s c

theorem Call.deinitThread_fst (s : Shared) (c : Call) :
    (c.deinitThread s).1 = s ∨ (c.deinitThread s).1 = s.memset := by
  dsimp only [deinitThread]
  split
  · exact Or.inl rfl
  · exact deinitFlags_fst s _

theorem taken_of_eq {t : Shared} (h : t = s ∨ t = s.memset) : t.taken = s.taken := by
  rcases h with rfl | rfl <;> rfl

theorem Call.waited_taken (s : Shared) (c : Call) (result : Result) :
    (c.waited s result).1.taken = s.taken := by
  dsimp only [waited]
  by_cases hresult : result = .ok
  · rw [if_neg (not_not_intro hresult)]
    cases c.op with
    | start | stop | cleanup error => rfl
    | deinitStop =>
        have htaken := taken_of_eq (deinitThread_fst { s with state := .stopped } c)
        exact htaken
    | deinit =>
        have htaken := taken_of_eq (deinitFlags_fst { s with thread := false } c)
        exact htaken
  · rw [if_pos hresult]

/-! ## One step of a call -/

inductive Call.Effect (s : Shared) (c : Call) (res : ℤ) : Shared × Call → Prop
  | put (hpc : c.pc = .put) (hroom : s.Room) : Effect s c res (s.push c.op.event, c.goto .wait)
  | full (hpc : c.pc = .put) (hroom : ¬ s.Room) : Effect s c res (s, c.ret .errEventQueue)
  | waits {flags : Finset Flag} {pc : Pc} (hflags : flags ⊆ s.flags)
      (hw : waitForNtpEvent s c.op.flag c.pc res = some ({ s with flags := flags }, .inl pc)) :
      Effect s c res ({ s with flags := flags }, c.goto pc)
  | waited {flags : Finset Flag} {result : Result} (hflags : flags ⊆ s.flags)
      (hw : waitForNtpEvent s c.op.flag c.pc res = some ({ s with flags := flags }, .inr result)) :
      Effect s c res (c.waited { s with flags := flags } result)
  | deleteFlags (hpc : c.pc = .deleteFlags) (hok : s.FlagsOk res) :
      Effect s c res (c.deinitQueue { s with eventFlags := .deleted })
  | deleteQueue (hpc : c.pc = .deleteQueue) (hok : s.eventQueue = .live ∧ res = 0) :
      Effect s c res (c.deinitMutex { s with eventQueue := .null })
  | deleteMutex (hpc : c.pc = .deleteMutex) (hok : s.MutexOk res) :
      Effect s c res (s.memset, c.conclude .ok)
  | refused {error : Result} (herror : error ≠ .ok)
      (hpc : c.pc = .deleteFlags ∧ ¬ s.FlagsOk res ∨
        c.pc = .deleteQueue ∧ ¬ (s.eventQueue = .live ∧ res = 0) ∨
        c.pc = .deleteMutex ∧ ¬ s.MutexOk res) :
      Effect s c res (s, c.conclude error)

theorem Call.advance_effect {next : Shared × Call} (hs : c.advance s res = some next) :
    c.Effect s res next := by
  cases hpc : c.pc with
  | idle =>
      simp only [advance, hpc] at hs
      cases hs
  | put =>
      simp only [advance, hpc] at hs
      cases hs
      split
      · exact .put hpc ‹_›
      · exact .full hpc ‹_›
  | wait | clear flags | errAcquire | errRelease error =>
      simp only [advance, hpc] at hs
      rw [← hpc] at hs
      obtain ⟨⟨u, out⟩, hw, rfl⟩ := Option.map_eq_some_iff.mp hs
      obtain ⟨flags, hflags, rfl⟩ := wait_frame hw
      cases out with
      | inl pc => exact .waits hflags hw
      | inr result => exact .waited hflags hw
  | deleteFlags =>
      simp only [advance, hpc] at hs
      cases hs
      split
      · exact .deleteFlags hpc ‹_›
      · exact .refused nofun (Or.inl ⟨hpc, ‹_›⟩)
  | deleteQueue =>
      simp only [advance, hpc] at hs
      cases hs
      split
      · exact .deleteQueue hpc ‹_›
      · exact .refused nofun (Or.inr (Or.inl ⟨hpc, ‹_›⟩))
  | deleteMutex =>
      simp only [advance, hpc] at hs
      cases hs
      split
      · exact .deleteMutex hpc ‹_›
      · exact .refused nofun (Or.inr (Or.inr ⟨hpc, ‹_›⟩))

theorem Call.advance_taken {next : Shared × Call} (hs : c.advance s res = some next) :
    next.1.taken = s.taken := by
  cases advance_effect hs with
  | put | full | waits | deleteMutex | refused => rfl
  | waited hflags hw => exact waited_taken _ c _
  | deleteFlags hpc hok =>
      have htaken := taken_of_eq (deinitQueue_fst { s with eventFlags := .deleted } c)
      exact htaken
  | deleteQueue hpc hok =>
      have htaken := taken_of_eq (deinitMutex_fst { s with eventQueue := .null } c)
      exact htaken

/-! ## The initialization -/

structure Shared.Blank (s t : Shared) : Prop where
  thread : t.thread = false
  state : t.state = .uninitialised
  strays : t.strays = s.strays
  taken : s.taken ≤ t.taken
  flags : t.flags ⊆ s.flags
  eventFlags : t.eventFlags = .live → t.flags = ∅

structure Shared.Fresh (s t : Shared) : Prop where
  thread : t.thread = true
  state : t.state = .stopped
  strays : t.strays = s.strays
  taken : s.taken ≤ t.taken
  flags : t.flags = ∅

/-- The initialization fails, and deletes what it has created, or it creates a task. -/
theorem Call.init_cases (s : Shared) (c : Call) (config : Option Config) (created : Creation)
    (huninit : s.state = .uninitialised) :
    (∃ t error, s.Blank t ∧
      c.iotNtpClientInit s config created =
        ((({ c with op := .cleanup error } : Call).deinitFlags t).1,
          (({ c with op := .cleanup error } : Call).deinitFlags t).2, false)) ∨
    ∃ t, s.Fresh t ∧ c.iotNtpClientInit s config created = (t, c.ret .ok, true) := by
  obtain ⟨mutex, eventQueue, eventFlags, thread⟩ := created
  dsimp only [iotNtpClientInit]
  rw [if_neg (not_not_intro huninit)]
  cases mutex with
  | false =>
      refine Or.inl ⟨_, .errMutex, ?_, rfl⟩
      exact ⟨rfl, rfl, rfl, le_rfl, subset_rfl, fun hlive => by cases hlive⟩
  | true =>
      cases eventQueue with
      | false =>
          refine Or.inl ⟨_, .errEventQueue, ?_, rfl⟩
          exact ⟨rfl, rfl, rfl, le_rfl, subset_rfl, fun hlive => by cases hlive⟩
      | true =>
          cases eventFlags with
          | false =>
              refine Or.inl ⟨_, .errEventFlag, ?_, rfl⟩
              exact ⟨rfl, rfl, rfl, Nat.le_add_right .., subset_rfl, fun hlive => by cases hlive⟩
          | true =>
              cases thread with
              | false =>
                  refine Or.inl ⟨_, .errThread, ?_, rfl⟩
                  exact ⟨rfl, rfl, rfl, Nat.le_add_right .., Finset.empty_subset _, fun _ => rfl⟩
              | true =>
                  refine Or.inr ⟨_, ?_, rfl⟩
                  exact ⟨rfl, rfl, rfl, Nat.le_add_right .., rfl⟩

end OpenIotSdk.Ntp
