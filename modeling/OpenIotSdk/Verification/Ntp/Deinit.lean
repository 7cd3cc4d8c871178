import OpenIotSdk.Library.Ledger
import OpenIotSdk.Library.Monitor
import OpenIotSdk.Verification.Ntp.Acknowledgement

/-! # Deinitialization of the NTP client

`iotNtpClientDeinit` goes on where it has failed, as far as the context tells. The pointer to the
event flags is not cleared when they are deleted. -/

namespace OpenIotSdk.Ntp

open Transition

/-! ## The objects -/

/-- The RTOS objects of each kind that were created and deleted. -/
structure Objects where
  mutex : Ledger
  eventQueue : Ledger
  eventFlags : Ledger

namespace Objects

def none : Objects := ⟨.empty, .empty, .empty⟩

variable (g : Objects)

/-- `iotNtpClientInit` creates one object after the other. -/
def create (created : Creation) : Objects where
  mutex := if created.mutex then g.mutex.issue else g.mutex
  eventQueue := if created.mutex && created.eventQueue then g.eventQueue.issue else g.eventQueue
  eventFlags :=
    if created.mutex && created.eventQueue && created.eventFlags then g.eventFlags.issue
    else g.eventFlags

/-- The context points to the last object of each kind, which is deleted. -/
def delete (s : Shared) (pc : Call.Pc) (res : ℤ) : Objects :=
  match pc with
  | .deleteFlags =>
      if s.FlagsOk res then
        { g with eventFlags := g.eventFlags.settle (g.eventFlags.issued - 1) }
      else g
  | .deleteQueue =>
      if s.eventQueue = .live ∧ res = 0 then
        { g with eventQueue := g.eventQueue.settle (g.eventQueue.issued - 1) }
      else g
  | .deleteMutex =>
      if s.MutexOk res then { g with mutex := g.mutex.settle (g.mutex.issued - 1) } else g
  | .idle | .put | .wait | .clear _ | .errAcquire | .errRelease _ => g

def ledgers : List Ledger := [g.mutex, g.eventQueue, g.eventFlags]

/-- Each object that was created was deleted exactly once. -/
def Released : Prop := ∀ l ∈ g.ledgers, ∀ id < l.issued, l.settled id = 1

end Objects

def recorded (s : State Unit) (a : Action Unit) (_ : State Unit) (g : Objects) : Objects :=
  match a with
  | .call _ (.init _ created) =>
      if s.shared.state = .uninitialised then g.create created else g
  | .call _ (.advance res) => g.delete s.shared (s.calls ()).pc res
  | .task _ _ | .tick | .timerCallback | .stray _ | .call _ .start | .call _ .stop
  | .call _ .deinit => g

/-! ## The use of the objects -/

def Task.used (s : Shared) (t : Task) : Option Handle :=
  match t.pc with
  -- A request is put in the queue again when it does not come through.
  | .get | .send | .recv => some s.eventQueue
  | .configAcquire | .configRelease | .timeAcquire _ | .timeRelease | .errAcquire | .errRelease =>
      some s.mutex
  | .ackStart | .ackStop | .errSet | .exitFlag => some s.eventFlags
  | .timerNew | .startTimerStop | .startClose | .create | .setOpt | .resolve | .connect
  | .listeners | .timerStart | .stopTimer | .stopClose | .exitClose | .exitTimerDelete
  | .done => Option.none

def Stray.used (s : Shared) : Stray → Option Handle
  | .take | .put => some s.eventQueue
  | .setFlag _ => some s.eventFlags
  | .setError _ | .setTime _ => some s.mutex
  | .ends => Option.none

def Call.used (s : Shared) (c : Call) : Option Handle :=
  match c.pc with
  | .put | .deleteQueue => some s.eventQueue
  | .wait | .clear _ | .deleteFlags => some s.eventFlags
  | .errAcquire | .errRelease _ | .deleteMutex => some s.mutex
  | .idle => Option.none

/-- The object that the step uses or deletes. -/
def State.used (s : State Unit) : Action Unit → Option Handle
  | .task _ _ => s.task.used s.shared
  | .timerCallback => some s.shared.eventQueue
  | .stray effect => effect.used s.shared
  | .call _ (.advance _) => (s.calls ()).used s.shared
  | .tick | .call _ (.init _ _) | .call _ .start | .call _ .stop | .call _ .deinit => Option.none

/-- `iotNtpClientDeinit` returns `IOT_NTP_CLIENT_OK` with this step. -/
def Deinitialises (a : Action Unit) (t : State Unit) : Prop :=
  (a = .call () .deinit ∨ ∃ res, a = .call () (.advance res)) ∧
    (t.calls ()).pc = .idle ∧ (t.calls ()).op = .deinit ∧ (t.calls ()).result = some .ok

/-- No object is deleted twice or used after its deletion, and the deinitialization ends with each
deleted once and each task at its end. -/
structure Retryable (x : State Unit × Objects) (a : Action Unit) (y : State Unit × Objects) :
    Prop where
  used : x.1.used a ≠ some .deleted
  once : ∀ l ∈ y.2.ledgers, ∀ id, l.settled id ≤ 1
  deinit : Deinitialises a y.1 → y.2.Released ∧ y.1.shared.state = .uninitialised ∧
    y.1.task.pc = .done ∧ y.1.shared.strays = 0

/-- No deletion fails after that of the event flags, the wait for the end of the task fails only
after an error was reported or the task has ended, and the client is initialised only when nothing
is left. -/
def Prudent (s : State Unit) : Action Unit → Prop
  | .call _ (.advance res) =>
      (s.calls ()).Warned s.shared ((s.calls ()).op.flag = .terminated → s.task.pc = .done) ∧
      (s.shared.eventFlags = .deleted →
        (s.calls ()).pc = .deleteQueue ∨ (s.calls ()).pc = .deleteMutex → res = 0)
  | .call _ (.init _ _) => s.shared.state = .uninitialised →
      ∀ handle ∈ s.shared.objects, handle = .null
  | .task _ _ | .tick | .timerCallback | .stray _ | .call _ .start | .call _ .stop
  | .call _ .deinit => True

instance (s : State Unit) (a : Action Unit) : Decidable (Prudent s a) :=
  match a with
  | .call _ (.advance _) => inferInstanceAs (Decidable (_ ∧ _))
  | .call _ (.init _ _) => inferInstanceAs (Decidable (_ → _))
  | .task _ _ | .tick | .timerCallback | .stray _ | .call _ .start | .call _ .stop
  | .call _ .deinit => isTrue trivial

theorem Prudent.patient {s : State Unit} {a : Action Unit} (h : Prudent s a) : Patient s a := by
  cases a with
  | call i action =>
      cases action with
      | advance res => exact h.1
      | init config created => exact fun _ j hj => absurd (Subsingleton.elim j i) hj
      | start | stop | deinit => trivial
  | task res seconds | tick | timerCallback | stray effect => trivial

/-! ## The invariant -/

/-- The last object of a kind, while it exists. -/
def held (handle : Handle) (l : Ledger) : List ℕ :=
  if handle = .live then [l.issued - 1] else []

theorem held_of_ne {handle : Handle} (h : handle ≠ .live) (l : Ledger) : held handle l = [] :=
  if_neg h

/-- The context holds what was not deleted. -/
structure Accounted (g : Objects) (s : Shared) : Prop where
  mutex : g.mutex.Balanced (held s.mutex g.mutex)
  eventQueue : g.eventQueue.Balanced (held s.eventQueue g.eventQueue)
  eventFlags : g.eventFlags.Balanced (held s.eventFlags g.eventFlags)

/-- A call deletes in order, and only what there is; in between the event flags are there, or
their pointer is cleared. -/
def Call.Orderly (s : Shared) (c : Call) : Prop :=
  match c.pc with
  | .deleteFlags => s.eventFlags = .live
  | .deleteQueue => s.eventFlags ≠ .live ∧ s.eventQueue = .live
  | .deleteMutex => s.eventFlags ≠ .live ∧ s.eventQueue = .null ∧ s.mutex = .live
  | .idle | .put | .wait | .clear _ | .errAcquire | .errRelease _ => s.eventFlags ≠ .deleted

structure Tidy (g : Objects) (next : Shared × Call) : Prop where
  accounted : Accounted g next.1
  mutex : next.1.mutex ≠ .deleted
  eventQueue : next.1.eventQueue ≠ .deleted
  call : next.2.Orderly next.1

variable {g : Objects} {s t : Shared} {c : Call} {res : ℤ} {next : Shared × Call}

theorem Handle.live_of_ne {handle : Handle} (hnull : handle ≠ .null) (hdeleted : handle ≠ .deleted) :
    handle = .live := by
  cases handle with
  | null => exact absurd rfl hnull
  | live => rfl
  | deleted => exact absurd rfl hdeleted

theorem Shared.objects_eq_iff : t.objects = s.objects ↔
    t.mutex = s.mutex ∧ t.eventQueue = s.eventQueue ∧ t.eventFlags = s.eventFlags := by
  simp [Shared.objects]

theorem Accounted.congr (h : Accounted g s) (hobjects : t.objects = s.objects) :
    Accounted g t := by
  obtain ⟨hmutex, hqueue, hflags⟩ := Shared.objects_eq_iff.mp hobjects
  refine ⟨?_, ?_, ?_⟩
  · rw [hmutex]
    exact h.mutex
  · rw [hqueue]
    exact h.eventQueue
  · rw [hflags]
    exact h.eventFlags

theorem Tidy.congr (h : Tidy g (s, c)) (hobjects : t.objects = s.objects) : Tidy g (t, c) := by
  obtain ⟨hmutex, hqueue, hflags⟩ := Shared.objects_eq_iff.mp hobjects
  refine ⟨h.accounted.congr hobjects, hmutex.trans_ne h.mutex, hqueue.trans_ne h.eventQueue, ?_⟩
  have hcall := h.call
  rw [Call.Orderly] at hcall ⊢
  rwa [hmutex, hqueue, hflags]

theorem Tidy.goto (h : Tidy g (s, c)) (hflags : s.eventFlags ≠ .deleted) {c' : Call}
    (hpc : c'.pc ≠ .deleteFlags ∧ c'.pc ≠ .deleteQueue ∧ c'.pc ≠ .deleteMutex) :
    Tidy g (s, c') := by
  refine ⟨h.accounted, h.mutex, h.eventQueue, ?_⟩
  obtain ⟨hdeleteFlags, hdeleteQueue, hdeleteMutex⟩ := hpc
  rw [Call.Orderly]
  cases hpc : c'.pc with
  | deleteFlags => exact absurd hpc hdeleteFlags
  | deleteQueue => exact absurd hpc hdeleteQueue
  | deleteMutex => exact absurd hpc hdeleteMutex
  | idle | put | wait | clear flags | errAcquire | errRelease error => exact hflags

theorem Tidy.idle (h : Tidy g (s, c)) (hflags : s.eventFlags ≠ .deleted) {c' : Call}
    (hpc : c'.pc = .idle) : Tidy g (s, c') :=
  h.goto hflags (by simp [hpc])

/-! ## The deletions -/

theorem Accounted.memset (h : Accounted g s) (hmutex : s.mutex ≠ .live)
    (hqueue : s.eventQueue ≠ .live) (hflags : s.eventFlags ≠ .live) : Accounted g s.memset := by
  have hmutex' := h.mutex
  have hqueue' := h.eventQueue
  have hflags' := h.eventFlags
  rw [held_of_ne hmutex] at hmutex'
  rw [held_of_ne hqueue] at hqueue'
  rw [held_of_ne hflags] at hflags'
  exact ⟨hmutex', hqueue', hflags'⟩

theorem Tidy.memset (h : Accounted g s.memset) (hpc : c.pc = .idle) : Tidy g (s.memset, c) := by
  refine ⟨h, nofun, nofun, ?_⟩
  rw [Call.Orderly, hpc]
  nofun

theorem Accounted.deinitMutex (h : Accounted g s) (hmutex : s.mutex ≠ .deleted)
    (hqueue : s.eventQueue = .null) (hflags : s.eventFlags ≠ .live) (c : Call) :
    Tidy g (c.deinitMutex s) := by
  dsimp only [Call.deinitMutex]
  split
  · next hnull =>
      exact ⟨h, hmutex, hqueue.trans_ne nofun, hflags, hqueue, Handle.live_of_ne hnull hmutex⟩
  · next hnull =>
      have hnull := not_not.mp hnull
      exact .memset (h.memset (hnull.trans_ne nofun) (hqueue.trans_ne nofun) hflags)
        (c.conclude_pc .ok)

theorem Accounted.deinitQueue (h : Accounted g s) (hmutex : s.mutex ≠ .deleted)
    (hqueue : s.eventQueue ≠ .deleted) (hflags : s.eventFlags ≠ .live) (c : Call) :
    Tidy g (c.deinitQueue s) := by
  dsimp only [Call.deinitQueue]
  split
  · next hnull => exact ⟨h, hmutex, hqueue, hflags, Handle.live_of_ne hnull hqueue⟩
  · next hnull => exact h.deinitMutex hmutex (not_not.mp hnull) hflags c

theorem Accounted.deinitFlags (h : Accounted g s) (hmutex : s.mutex ≠ .deleted)
    (hqueue : s.eventQueue ≠ .deleted) (hflags : s.eventFlags ≠ .deleted) (c : Call) :
    Tidy g (c.deinitFlags s) := by
  dsimp only [Call.deinitFlags]
  split
  · next hnull => exact ⟨h, hmutex, hqueue, Handle.live_of_ne hnull hflags⟩
  · next hnull => exact h.deinitQueue hmutex hqueue ((not_not.mp hnull).trans_ne nofun) c

theorem Accounted.deinitThread (h : Accounted g s) (hmutex : s.mutex ≠ .deleted)
    (hqueue : s.eventQueue ≠ .deleted) (hflags : s.eventFlags ≠ .deleted) (c : Call) :
    Tidy g (c.deinitThread s) := by
  dsimp only [Call.deinitThread]
  split
  · exact ⟨h, hmutex, hqueue, hflags⟩
  · exact h.deinitFlags hmutex hqueue hflags _

theorem balanced_settle {l : Ledger} {handle handle' : Handle} (h : l.Balanced (held handle l))
    (hlive : handle = .live) (hgone : handle' ≠ .live) :
    (l.settle (l.issued - 1)).Balanced (held handle' (l.settle (l.issued - 1))) := by
  rw [held_of_ne hgone]
  rw [held, if_pos hlive] at h
  exact h.settle (List.Perm.refl _)

theorem Tidy.deleteFlags (h : Tidy g (s, c)) (hpc : c.pc = .deleteFlags) :
    Tidy { g with eventFlags := g.eventFlags.settle (g.eventFlags.issued - 1) }
      (c.deinitQueue { s with eventFlags := .deleted }) := by
  have hlive := h.call
  rw [Call.Orderly, hpc] at hlive
  have haccounted : Accounted
      { g with eventFlags := g.eventFlags.settle (g.eventFlags.issued - 1) }
      { s with eventFlags := .deleted } :=
    ⟨h.accounted.mutex, h.accounted.eventQueue,
      balanced_settle h.accounted.eventFlags hlive (by simp)⟩
  exact haccounted.deinitQueue h.mutex h.eventQueue (by simp) c

theorem Tidy.deleteQueue (h : Tidy g (s, c)) (hpc : c.pc = .deleteQueue) :
    Tidy { g with eventQueue := g.eventQueue.settle (g.eventQueue.issued - 1) }
      (c.deinitMutex { s with eventQueue := .null }) := by
  have hcall := h.call
  rw [Call.Orderly, hpc] at hcall
  obtain ⟨hflags, hlive⟩ := hcall
  have haccounted : Accounted
      { g with eventQueue := g.eventQueue.settle (g.eventQueue.issued - 1) }
      { s with eventQueue := .null } :=
    ⟨h.accounted.mutex, balanced_settle h.accounted.eventQueue hlive (by simp),
      h.accounted.eventFlags⟩
  exact haccounted.deinitMutex h.mutex rfl hflags c

theorem Tidy.deleteMutex (h : Tidy g (s, c)) (hpc : c.pc = .deleteMutex) :
    Tidy { g with mutex := g.mutex.settle (g.mutex.issued - 1) } (s.memset, c.conclude .ok) := by
  have hcall := h.call
  rw [Call.Orderly, hpc] at hcall
  obtain ⟨hflags, hqueue, hlive⟩ := hcall
  have haccounted : Accounted { g with mutex := g.mutex.settle (g.mutex.issued - 1) }
      { s with mutex := .null } :=
    ⟨balanced_settle h.accounted.mutex hlive (by simp), h.accounted.eventQueue,
      h.accounted.eventFlags⟩
  exact .memset (haccounted.memset (by simp) (hqueue.trans_ne (by decide)) hflags)
    (c.conclude_pc .ok)

/-- A deletion that is refused leaves the event flags, or the pointer to them is null. -/
theorem Tidy.refused (h : Tidy g (s, c))
    (hpc : c.pc = .deleteFlags ∧ ¬ s.FlagsOk res ∨
      c.pc = .deleteQueue ∧ ¬ (s.eventQueue = .live ∧ res = 0) ∨
      c.pc = .deleteMutex ∧ ¬ s.MutexOk res)
    (hok : s.eventFlags = .deleted → c.pc = .deleteQueue ∨ c.pc = .deleteMutex → res = 0)
    (error : Result) : Tidy (g.delete s c.pc res) (s, c.conclude error) := by
  have hcall := h.call
  rw [Call.Orderly] at hcall
  rcases hpc with ⟨hpc, hfails⟩ | ⟨hpc, hfails⟩ | ⟨hpc, hfails⟩
  · rw [hpc] at hcall ⊢
    rw [Objects.delete, if_neg hfails]
    exact h.idle (hcall.trans_ne (by decide)) (c.conclude_pc error)
  · rw [hpc] at hcall ⊢
    rw [Objects.delete, if_neg hfails]
    exact h.idle (fun hdeleted => hfails ⟨hcall.2, hok hdeleted (Or.inl hpc)⟩)
      (c.conclude_pc error)
  · rw [hpc] at hcall ⊢
    rw [Objects.delete, if_neg hfails]
    exact h.idle (fun hdeleted => hfails ⟨hcall.2.2, hok hdeleted (Or.inr hpc)⟩)
      (c.conclude_pc error)

/-! ## One step of a call -/

theorem Tidy.waited (h : Tidy g (s, c)) (hflags : s.eventFlags ≠ .deleted) (result : Result) :
    Tidy g (c.waited s result) := by
  dsimp only [Call.waited]
  by_cases hresult : result = .ok
  · rw [if_neg (not_not_intro hresult)]
    have hkeep : ∀ {u : Shared}, u.objects = s.objects → Accounted g u ∧ u.mutex ≠ .deleted ∧
        u.eventQueue ≠ .deleted ∧ u.eventFlags ≠ .deleted := by
      intro u hobjects
      obtain ⟨hmutex, hqueue, hflags'⟩ := Shared.objects_eq_iff.mp hobjects
      exact ⟨h.accounted.congr hobjects, hmutex.trans_ne h.mutex, hqueue.trans_ne h.eventQueue,
        hflags'.trans_ne hflags⟩
    cases c.op with
    | start =>
        have hrunning : Tidy g ({ s with state := .running }, c) := h.congr rfl
        exact hrunning.idle hflags rfl
    | stop =>
        have hstopped : Tidy g ({ s with state := .stopped }, c) := h.congr rfl
        exact hstopped.idle hflags rfl
    | deinitStop =>
        obtain ⟨haccounted, hmutex, hqueue, hflags⟩ :=
          hkeep (u := { s with state := .stopped }) rfl
        exact haccounted.deinitThread hmutex hqueue hflags c
    | deinit =>
        obtain ⟨haccounted, hmutex, hqueue, hflags⟩ := hkeep (u := { s with thread := false }) rfl
        exact haccounted.deinitFlags hmutex hqueue hflags c
    | cleanup error => exact h.idle hflags rfl
  · rw [if_pos hresult]
    exact h.idle hflags rfl

/-- A wait that goes on does so with no deletion. -/
theorem Call.wait_pc {flag : Flag} {pc pc' : Pc} {u : Shared}
    (hw : waitForNtpEvent s flag pc res = some (u, .inl pc')) :
    pc' ≠ .idle ∧ pc' ≠ .deleteFlags ∧ pc' ≠ .deleteQueue ∧ pc' ≠ .deleteMutex := by
  cases pc with
  | wait =>
      dsimp only [waitForNtpEvent] at hw
      split at hw
      · cases hw
        simp
      · obtain ⟨-, hw⟩ := Option.ite_none_right_eq_some.mp hw
        cases hw
  | clear flags =>
      have hout := congrArg Prod.snd (Option.some.inj hw)
      split at hout
      · dsimp only at hout
        split at hout
        · cases hout
        · split at hout
          · cases hout
            simp
          · cases hout
      · cases hout
  | errAcquire =>
      have hout := congrArg Prod.snd (Option.some.inj hw)
      dsimp only at hout
      split at hout
      · cases hout
        simp
      · cases hout
  | errRelease error => cases congrArg Prod.snd (Option.some.inj hw)
  | idle | put | deleteFlags | deleteQueue | deleteMutex => cases hw

theorem Tidy.wait (h : Tidy g (s, c)) {flag : Flag} {out : Shared × (Call.Pc ⊕ Result)}
    (hw : Call.waitForNtpEvent s flag c.pc res = some out) :
    g.delete s c.pc res = g ∧ s.eventFlags ≠ .deleted := by
  have hcall := h.call
  rw [Call.Orderly] at hcall
  cases hpc : c.pc with
  | wait | clear flags | errAcquire | errRelease error =>
      rw [hpc] at hcall
      exact ⟨rfl, hcall⟩
  | idle | put | deleteFlags | deleteQueue | deleteMutex =>
      rw [hpc] at hw
      cases hw

theorem Tidy.advance (h : Tidy g (s, c))
    (hok : s.eventFlags = .deleted → c.pc = .deleteQueue ∨ c.pc = .deleteMutex → res = 0)
    (hs : c.advance s res = some next) : Tidy (g.delete s c.pc res) next := by
  have hcall := h.call
  rw [Call.Orderly] at hcall
  cases Call.advance_effect hs with
  | put hpc hroom =>
      rw [hpc] at hcall ⊢
      have hput : Tidy g (s.push c.op.event, c) := h.congr rfl
      exact hput.goto hcall (by simp [Call.goto])
  | full hpc hroom =>
      rw [hpc] at hcall ⊢
      exact h.idle hcall rfl
  | @waits flags pc hflags hw =>
      obtain ⟨hdelete, hlive⟩ := h.wait hw
      have hkept : Tidy g ({ s with flags := flags }, c) := h.congr rfl
      rw [hdelete]
      exact hkept.goto hlive (Call.wait_pc hw).2
  | @waited flags result hflags hw =>
      obtain ⟨hdelete, hlive⟩ := h.wait hw
      have hkept : Tidy g ({ s with flags := flags }, c) := h.congr rfl
      rw [hdelete]
      exact hkept.waited hlive result
  | deleteFlags hpc hlive =>
      rw [hpc, Objects.delete, if_pos hlive]
      exact h.deleteFlags hpc
  | deleteQueue hpc hlive =>
      rw [hpc, Objects.delete, if_pos hlive]
      exact h.deleteQueue hpc
  | deleteMutex hpc hlive =>
      rw [hpc, Objects.delete, if_pos hlive]
      exact h.deleteMutex hpc
  | @refused error herror hpc => exact h.refused hpc hok error

/-! ## The initialization -/

theorem balanced_create {l : Ledger} {handle handle' : Handle} (h : l.Balanced (held handle l))
    (hnull : handle = .null) {created : Bool} (hcreated : handle' = if created then .live else .null) :
    (if created then l.issue else l).Balanced
      (held handle' (if created then l.issue else l)) := by
  rw [held_of_ne (hnull.trans_ne nofun)] at h
  cases created with
  | false =>
      rw [held_of_ne (hcreated.trans_ne nofun)]
      exact h
  | true =>
      have hlive : handle' = .live := hcreated
      rw [held, if_pos hlive]
      exact h.issue (List.Perm.refl _)

/-- The objects that could be created, each if the ones before it could. -/
structure Shared.Holds (created : Creation) (t : Shared) : Prop where
  mutex : t.mutex = if created.mutex then .live else .null
  eventQueue : t.eventQueue = if created.mutex && created.eventQueue then .live else .null
  eventFlags : t.eventFlags =
    if created.mutex && created.eventQueue && created.eventFlags then .live else .null

theorem Shared.Holds.ne_deleted {created : Creation} (h : t.Holds created) :
    t.mutex ≠ .deleted ∧ t.eventQueue ≠ .deleted ∧ t.eventFlags ≠ .deleted := by
  have hne : ∀ b : Bool, (if b then Handle.live else Handle.null) ≠ .deleted := by
    intro b
    cases b <;> nofun
  exact ⟨h.mutex.trans_ne (hne _), h.eventQueue.trans_ne (hne _), h.eventFlags.trans_ne (hne _)⟩

theorem Accounted.create {created : Creation} (h : Accounted g s)
    (hnull : ∀ handle ∈ s.objects, handle = .null) (ht : t.Holds created) :
    Accounted (g.create created) t :=
  ⟨balanced_create h.mutex (hnull _ (by simp [Shared.objects])) ht.mutex,
    balanced_create h.eventQueue (hnull _ (by simp [Shared.objects])) ht.eventQueue,
    balanced_create h.eventFlags (hnull _ (by simp [Shared.objects])) ht.eventFlags⟩

/-- What was created is deleted in turn, or is all there is to use. -/
theorem Call.init_created (s : Shared) (c : Call) (config : Option Config) (created : Creation)
    (huninit : s.state = .uninitialised) :
    ∃ u, u.Holds created ∧
      ((∃ error, c.iotNtpClientInit s config created =
        ((({ c with op := .cleanup error } : Call).deinitFlags u).1,
          (({ c with op := .cleanup error } : Call).deinitFlags u).2, false)) ∨
      c.iotNtpClientInit s config created = (u, c.ret .ok, true)) := by
  obtain ⟨mutex, eventQueue, eventFlags, thread⟩ := created
  dsimp only [iotNtpClientInit]
  rw [if_neg (not_not_intro huninit)]
  cases mutex with
  | false => exact ⟨_, ⟨rfl, rfl, rfl⟩, Or.inl ⟨.errMutex, rfl⟩⟩
  | true =>
      cases eventQueue with
      | false => exact ⟨_, ⟨rfl, rfl, rfl⟩, Or.inl ⟨.errEventQueue, rfl⟩⟩
      | true =>
          cases eventFlags with
          | false => exact ⟨_, ⟨rfl, rfl, rfl⟩, Or.inl ⟨.errEventFlag, rfl⟩⟩
          | true =>
              cases thread with
              | false => exact ⟨_, ⟨rfl, rfl, rfl⟩, Or.inl ⟨.errThread, rfl⟩⟩
              | true => exact ⟨_, ⟨rfl, rfl, rfl⟩, Or.inr rfl⟩

/-! ## The end of the deinitialization -/

theorem Call.deinitMutex_idle (h : (c.deinitMutex s).2.pc = .idle) :
    (c.deinitMutex s).1 = s.memset := by
  dsimp only [deinitMutex] at h ⊢
  split at h
  · cases h
  · next hnull => rw [if_neg hnull]

theorem Call.deinitQueue_idle (h : (c.deinitQueue s).2.pc = .idle) :
    (c.deinitQueue s).1 = s.memset := by
  dsimp only [deinitQueue] at h ⊢
  split at h
  · cases h
  · next hnull =>
      rw [if_neg hnull]
      exact deinitMutex_idle h

theorem Call.deinitFlags_idle (h : (c.deinitFlags s).2.pc = .idle) :
    (c.deinitFlags s).1 = s.memset := by
  dsimp only [deinitFlags] at h ⊢
  split at h
  · cases h
  · next hnull =>
      rw [if_neg hnull]
      exact deinitQueue_idle h

theorem Call.deinitThread_idle (h : (c.deinitThread s).2.pc = .idle) :
    (c.deinitThread s).1 = s.memset := by
  dsimp only [deinitThread] at h ⊢
  split at h
  · cases h
  · next hthread =>
      rw [if_neg hthread]
      exact deinitFlags_idle h

theorem Call.conclude_result {result : Result} (h : (c.conclude result).op = .deinit) :
    (c.conclude result).result = some result := by
  dsimp only [conclude] at h ⊢
  cases hop : c.op with
  | cleanup error =>
      rw [hop] at h
      cases hop.symm.trans h
  | start | stop | deinitStop | deinit => rfl

theorem Call.waited_ok {result : Result} (hpc : (c.waited s result).2.pc = .idle)
    (hop : (c.waited s result).2.op = .deinit) (hok : (c.waited s result).2.result = some .ok) :
    ∃ u : Shared, (c.waited s result).1 = u.memset := by
  dsimp only [waited] at hpc hop hok ⊢
  by_cases hresult : result = .ok
  · rw [if_neg (not_not_intro hresult)] at hpc hop hok ⊢
    cases hop' : c.op with
    | start =>
        rw [hop'] at hop
        cases hop'.symm.trans hop
    | stop =>
        rw [hop'] at hop
        cases hop'.symm.trans hop
    | deinitStop =>
        rw [hop'] at hpc
        exact ⟨_, deinitThread_idle hpc⟩
    | deinit =>
        rw [hop'] at hpc
        exact ⟨_, deinitFlags_idle hpc⟩
    | cleanup error =>
        rw [hop'] at hop
        cases hop'.symm.trans hop
  · rw [if_pos hresult] at hok
    exact absurd (Option.some.inj hok) hresult

/-- A call of `iotNtpClientDeinit` that returns with success has cleared the context. -/
theorem Call.advance_ok (hs : c.advance s res = some next) (hpc : next.2.pc = .idle)
    (hop : next.2.op = .deinit) (hok : next.2.result = some .ok) :
    ∃ u : Shared, next.1 = u.memset := by
  cases advance_effect hs with
  | put => cases hpc
  | full => cases hok
  | waits hflags hw => exact absurd hpc (wait_pc hw).1
  | waited hflags hw => exact waited_ok hpc hop hok
  | deleteFlags => exact ⟨_, deinitQueue_idle hpc⟩
  | deleteQueue => exact ⟨_, deinitMutex_idle hpc⟩
  | deleteMutex => exact ⟨s, rfl⟩
  | refused herror => exact absurd (Option.some.inj ((conclude_result hop).symm.trans hok)) herror

/-! ## Runs -/

structure Managed (x : State Unit × Objects) : Prop where
  grounded : Grounded x.1
  tidy : Tidy x.2 (x.1.shared, x.1.calls ())

theorem managed_init : Managed (init Unit, .none) := by
  refine ⟨grounded_init, ⟨?_, ?_, ?_⟩, nofun, nofun, nofun⟩
  · exact Ledger.balanced_empty
  · exact Ledger.balanced_empty
  · exact Ledger.balanced_empty

variable {x y : State Unit × Objects} {a : Action Unit}

theorem Accounted.initialise {s : State Unit} (h : Accounted g s.shared) {i : Unit}
    {config : Option Config} {created : Creation}
    (hnull : ∀ handle ∈ s.shared.objects, handle = .null)
    (huninit : s.shared.state = .uninitialised) (hdone : s.task.pc = .done) :
    Tidy (g.create created) ((s.iotNtpClientInit i config created).shared,
      (s.iotNtpClientInit i config created).calls ()) := by
  dsimp only [State.iotNtpClientInit]
  obtain ⟨u, hholds, ⟨error, heq⟩ | heq⟩ :=
    Call.init_created s.shared (s.calls i) config created huninit
  · rw [heq]
    obtain ⟨hmutex, hqueue, hflags⟩ := hholds.ne_deleted
    have htidy := (h.create hnull hholds).deinitFlags hmutex hqueue hflags
      { s.calls i with op := .cleanup error }
    simp only [Bool.false_eq_true, if_false, setCall_calls]
    exact htidy
  · rw [heq]
    obtain ⟨hmutex, hqueue, hflags⟩ := hholds.ne_deleted
    obtain ⟨leaks, hleaks⟩ := newTask_shared (s := s.setCall i (u, (s.calls i).ret .ok)) hdone
    have htidy : Tidy (g.create created) (u, (s.calls i).ret .ok) :=
      ⟨h.create hnull hholds, hmutex, hqueue, hflags⟩
    have hcalls : (s.setCall i (u, (s.calls i).ret .ok)).newTask.calls () = (s.calls i).ret .ok :=
      setCall_calls s i (u, (s.calls i).ret .ok)
    simp only [if_true]
    rw [hleaks, hcalls]
    exact htidy.congr rfl

theorem Managed.call_tidy (h : Managed x) {i : Unit} {action : CallAction} {u : State Unit}
    (hok : Prudent x.1 (.call i action)) (hs : x.1.call i action = some u) :
    Tidy (recorded x.1 (.call i action) u x.2) (u.shared, u.calls ()) := by
  dsimp only [State.call] at hs
  have hidle : (x.1.calls i).pc = .idle → x.1.shared.eventFlags ≠ .deleted := by
    intro hpc
    have hcall := h.tidy.call
    rwa [Call.Orderly, hpc] at hcall
  cases action with
  | init config created =>
      obtain ⟨hpc, hs⟩ := Option.ite_none_right_eq_some.mp hs
      cases hs
      by_cases huninit : x.1.shared.state = .uninitialised
      · have hdone : x.1.task.pc = .done :=
          h.grounded.shared.thread (h.grounded.shared.state huninit)
        simp only [recorded, huninit, if_true]
        exact h.tidy.accounted.initialise (hok huninit) huninit hdone
      · simp only [recorded, huninit, if_false, State.iotNtpClientInit, Call.iotNtpClientInit,
          ne_eq, not_false_eq_true, if_true, Bool.false_eq_true, setCall_calls]
        exact h.tidy.idle (hidle hpc) rfl
  | start =>
      obtain ⟨hpc, hs⟩ := Option.ite_none_right_eq_some.mp hs
      cases hs
      rw [setCall_calls]
      refine h.tidy.goto (hidle hpc) ?_
      dsimp only [Call.iotNtpClientStart]
      split <;> simp [Call.ret]
  | stop =>
      obtain ⟨hpc, hs⟩ := Option.ite_none_right_eq_some.mp hs
      cases hs
      rw [setCall_calls]
      refine h.tidy.goto (hidle hpc) ?_
      dsimp only [Call.iotNtpClientStop]
      split <;> simp [Call.ret]
  | deinit =>
      obtain ⟨hpc, hs⟩ := Option.ite_none_right_eq_some.mp hs
      cases hs
      rw [setCall_calls]
      dsimp only [Call.iotNtpClientDeinit, State.setCall]
      split
      · exact h.tidy.goto (hidle hpc) (by simp)
      · exact h.tidy.accounted.deinitThread h.tidy.mutex h.tidy.eventQueue (hidle hpc) _
  | advance res =>
      obtain ⟨next, hnext, rfl⟩ := Option.map_eq_some_iff.mp hs
      rw [setCall_calls]
      exact h.tidy.advance hok.2 hnext

theorem Managed.step (h : Managed x) (hok : Prudent x.1 a)
    (hs : Monitor.step step recorded x a = some y) : Managed y := by
  obtain ⟨u, hu, rfl⟩ := Monitor.step_eq_some.mp hs
  refine ⟨h.grounded.step hok.patient hu, ?_⟩
  cases a with
  | task res seconds =>
      obtain ⟨next, hnext, rfl⟩ := Option.map_eq_some_iff.mp hu
      exact h.tidy.congr (Task.advance_frame hnext).2.1
  | tick =>
      obtain ⟨-, hu⟩ := Option.ite_none_right_eq_some.mp hu
      cases hu
      exact h.tidy.congr rfl
  | timerCallback =>
      obtain ⟨-, hu⟩ := Option.ite_none_right_eq_some.mp hu
      cases hu
      obtain ⟨events, -, hput⟩ :=
        Shared.ntpTimerCallback_eq { x.1.shared with callbacks := x.1.shared.callbacks - 1 }
      rw [hput]
      exact h.tidy.congr rfl
  | stray effect =>
      obtain ⟨hpos, -⟩ := Option.ite_none_right_eq_some.mp hu
      rw [h.grounded.shared.strays] at hpos
      cases hpos
  | call i action => exact h.call_tidy hok hu

/-- The event flags are gone only while a call deletes, after the task has ended. -/
theorem Managed.ended (h : Managed x) (hdeleted : x.1.shared.eventFlags = .deleted) :
    x.1.task.pc = .done := by
  have hcall := h.tidy.call
  have hground := h.grounded.calls ()
  rw [Call.Orderly] at hcall
  rw [Call.Grounded] at hground
  cases hpc : (x.1.calls ()).pc with
  | deleteFlags =>
      rw [hpc] at hcall
      cases hdeleted.symm.trans hcall
  | deleteQueue | deleteMutex =>
      rw [hpc] at hground
      exact h.grounded.shared.thread hground
  | idle | put | wait | clear flags | errAcquire | errRelease error =>
      rw [hpc] at hcall
      exact absurd hdeleted hcall

/-- No step finds its object deleted. -/
theorem Managed.used (h : Managed x) (hs : Ntp.step x.1 a = some y.1) :
    x.1.used a ≠ some .deleted := by
  have hnone : Option.none ≠ some Handle.deleted := by simp
  have hmutex : some x.1.shared.mutex ≠ some .deleted := fun heq =>
    h.tidy.mutex (Option.some.inj heq)
  have hqueue : some x.1.shared.eventQueue ≠ some .deleted := fun heq =>
    h.tidy.eventQueue (Option.some.inj heq)
  cases a with
  | task res seconds =>
      obtain ⟨next, hnext, -⟩ := Option.map_eq_some_iff.mp hs
      have hflags : some x.1.shared.eventFlags ≠ some .deleted := by
        intro heq
        simp [Task.advance, h.ended (Option.some.inj heq)] at hnext
      dsimp only [State.used, Task.used]
      cases hpc : x.1.task.pc with
      | get | send | recv => exact hqueue
      | configAcquire | configRelease | timeAcquire time | timeRelease | errAcquire | errRelease =>
          exact hmutex
      | ackStart | ackStop | errSet | exitFlag => exact hflags
      | _ => exact hnone
  | tick => exact hnone
  | timerCallback => exact hqueue
  | stray effect =>
      obtain ⟨hpos, -⟩ := Option.ite_none_right_eq_some.mp hs
      rw [h.grounded.shared.strays] at hpos
      cases hpos
  | call i action =>
      cases action with
      | advance res =>
          have hcall := h.tidy.call
          rw [Call.Orderly] at hcall
          dsimp only [State.used, Call.used]
          cases hpc : (x.1.calls ()).pc with
          | put | deleteQueue => exact hqueue
          | wait | clear flags =>
              rw [hpc] at hcall
              exact fun heq => hcall (Option.some.inj heq)
          | deleteFlags =>
              rw [hpc] at hcall
              exact fun heq => by cases hcall.symm.trans (Option.some.inj heq)
          | errAcquire | errRelease error | deleteMutex => exact hmutex
          | idle => exact hnone
      | init config created | start | stop | deinit => exact hnone

/-- The deinitialization ends with a context that is cleared. -/
theorem memset_of_deinitialises {s t : State Unit} (hs : Ntp.step s a = some t)
    (hend : Deinitialises a t) : ∃ u : Shared, t.shared = u.memset := by
  obtain ⟨ha, hpc, hop, hok⟩ := hend
  rcases ha with rfl | ⟨res, rfl⟩
  · obtain ⟨-, hs⟩ := Option.ite_none_right_eq_some.mp hs
    cases hs
    rw [setCall_calls] at hpc
    dsimp only [State.setCall, Call.iotNtpClientDeinit] at hpc ⊢
    split at hpc
    · cases hpc
    · next hstate =>
        rw [if_neg hstate]
        exact ⟨_, Call.deinitThread_idle hpc⟩
  · obtain ⟨next, hnext, rfl⟩ := Option.map_eq_some_iff.mp hs
    rw [setCall_calls] at hpc hop hok
    exact Call.advance_ok hnext hpc hop hok

theorem Accounted.released (h : Accounted g s.memset) : g.Released := by
  intro l hl id hid
  simp only [Objects.ledgers, List.mem_cons, List.not_mem_nil, or_false] at hl
  rcases hl with rfl | rfl | rfl
  · exact h.mutex.settled_eq_one hid List.not_mem_nil
  · exact h.eventQueue.settled_eq_one hid List.not_mem_nil
  · exact h.eventFlags.settled_eq_one hid List.not_mem_nil

theorem Managed.deinitialises (h : Managed y) (hs : Ntp.step x.1 a = some y.1)
    (hend : Deinitialises a y.1) : y.2.Released ∧ y.1.shared.state = .uninitialised ∧
      y.1.task.pc = .done ∧ y.1.shared.strays = 0 := by
  obtain ⟨u, hmemset⟩ := memset_of_deinitialises hs hend
  have haccounted := h.tidy.accounted
  have hshared := h.grounded.shared
  rw [hmemset] at haccounted hshared ⊢
  exact ⟨haccounted.released, rfl, hshared.thread rfl, hshared.strays⟩

theorem Managed.retryable (h : Managed x) (hok : Prudent x.1 a)
    (hs : Monitor.step Ntp.step recorded x a = some y) : Retryable x a y := by
  have hy := h.step hok hs
  obtain ⟨u, hu, rfl⟩ := Monitor.step_eq_some.mp hs
  refine ⟨h.used (y := (u, recorded x.1 a u x.2)) hu, fun l hl id => ?_, hy.deinitialises hu⟩
  simp only [Objects.ledgers, List.mem_cons, List.not_mem_nil, or_false] at hl
  rcases hl with rfl | rfl | rfl
  · exact hy.tidy.accounted.mutex.settled_le_one id
  · exact hy.tidy.accounted.eventQueue.settled_le_one id
  · exact hy.tidy.accounted.eventFlags.settled_le_one id

/-- Whatever is called in whatever order, and whatever fails in whatever interleaving with the task
and its timer: no object is deleted twice or used after its deletion, and a deinitialization that
succeeds ends with all deleted once, if no deletion fails after that of the event flags, no wait
for the end of the task fails without an error on record before it, and the client is initialised
only when nothing is left. -/
theorem retryable_of_prudent (acts : List (Action Unit))
    (h : Meets (Monitor.step step recorded) (fun x => Prudent x.1) (init Unit, .none) acts) :
    Steps (Monitor.step step recorded) Retryable (init Unit, .none) acts := by
  apply Steps.of_invariant Managed _ _ managed_init h
  · exact fun _ _ _ hs hok ht => hs.step hok ht
  · exact fun _ _ _ hs hok ht => hs.retryable hok ht

theorem lifecycle_retryable :
    Steps (Monitor.step step recorded) Retryable (init Unit, .none) lifecycle :=
  retryable_of_prudent lifecycle (by decide)

/-- The deletion of the event queue fails, and `iotNtpClientDeinit` is called again. -/
def failedDeletion : List (Action Unit) :=
  initialise :: taskBegin ++ [.call () .deinit, .call () (.advance 0)] ++
    List.replicate 3 (.task 0 0#32) ++ callReturn ++
    [.call () (.advance 0), .call () (.advance (-1)), .call () .deinit]

/-- The event flags are deleted again. -/
theorem failedDeletion_not_retryable :
    ¬ ∀ acts, Steps (Monitor.step step recorded) Retryable (init Unit, .none) acts := by
  intro h
  have hlast := (h (failedDeletion ++ [.call () (.advance 0)])).last rfl rfl
  exact hlast.used rfl

end OpenIotSdk.Ntp
