import OpenIotSdk.Model.Cmsis.EventFlags
import OpenIotSdk.Model.Pigweed.SharedFlags
import OpenIotSdk.Verification.InternalMutex.Exclusion
import OpenIotSdk.Verification.ThreadNotification.Acquire

/-! # A mutex and notifications on the same flag words

Each part changes its own wait flag only, so what makes a part safe when it is alone does so among
the others too. -/

namespace OpenIotSdk.SharedFlags

open Cmsis Transition

variable {Tid : Type}

/-! ## The specification -/

/-- The mutex as it would be with these flag words, and the notification of a thread. -/
def mutexWith (words : Tid → Flags) (s : InternalMutex.State Tid) : InternalMutex.State Tid :=
  { s with flags := words }

def notificationWith (word : Flags) (s : ThreadNotification.State) : ThreadNotification.State :=
  { s with flags := word }

/-- The mutex excludes; the notification of a thread is consistent. -/
def Safe : ∀ i : Part Tid, (Tid → Flags) → i.State → Prop
  | .mutex, words, s => InternalMutex.Exclusive (mutexWith words s)
  | .notification subscriber, words, s =>
      ThreadNotification.Consistent (notificationWith (words subscriber) s)
  | .other, _, _ => True

/-- The mutex is taken through its wait flag only when it is free; an operation of a notification
ends notified. -/
def Good : ∀ i : Part Tid, (Tid → Flags) → i.State → i.Action → Prop
  | .mutex, words, s, a => InternalMutex.BreaksWhenFree (mutexWith words s) a
  | .notification subscriber, words, s, a =>
      ThreadNotification.EndsNotified (notificationWith (words subscriber) s) a
  | .other, _, _, _ => True

/-! ## Flag words -/

/-- No flag word is an error. -/
def Clean (words : Tid → Flags) : Prop := ∀ t, isOsFlagsError (words t) = false

/-- The flag at `pos` of the thread `t` is left alone. -/
def Keeps (pos : ℕ) (t : Tid) (words words' : Tid → Flags) : Prop :=
  isBitSet (words' t) pos = isBitSet (words t) pos

def Rely : Part Tid → (Tid → Flags) → (Tid → Flags) → Prop
  | .mutex, _, words' => Clean words'
  | .notification subscriber, words, words' =>
      Clean words' ∧ Keeps ThreadNotification.waitFlag subscriber words words'
  | .other, _, words' => Clean words'

def Guar : Part Tid → (Tid → Flags) → (Tid → Flags) → Prop
  | .mutex, words, words' => Clean words' ∧ ∀ t, Keeps ThreadNotification.waitFlag t words words'
  | .notification subscriber, words, words' =>
      Clean words' ∧ ∀ t, t ≠ subscriber → Keeps ThreadNotification.waitFlag t words words'
  | .other, words, words' => Clean words' ∧ ∀ t, Keeps ThreadNotification.waitFlag t words words'

theorem rely_of_guar (i j : Part Tid) (hne : i ≠ j) (words words' : Tid → Flags)
    (h : Guar i words words') : Rely j words words' := by
  cases j with
  | mutex | other => cases i <;> exact h.1
  | notification subscriber =>
      cases i with
      | mutex | other => exact ⟨h.1, h.2 subscriber⟩
      | notification subscriber' =>
          exact ⟨h.1, h.2 subscriber fun heq => hne (by rw [heq])⟩

variable [DecidableEq Tid] {words words' : Tid → Flags} {t : Tid} {word : Flags}

theorem Clean.update (h : Clean words) (hword : isOsFlagsError word = false) :
    Clean (Function.update words t word) := by
  intro u
  by_cases hu : u = t
  · rw [hu, Function.update_self]
    exact hword
  · rw [Function.update_of_ne hu]
    exact h u

theorem keeps_update {pos : ℕ} (h : isBitSet word pos = isBitSet (words t) pos) (u : Tid) :
    Keeps pos u words (Function.update words t word) := by
  rw [Keeps]
  by_cases hu : u = t
  · rw [hu, Function.update_self]
    exact h
  · rw [Function.update_of_ne hu]

/-- A flag word is left alone, or its flag at `pos` is changed. -/
inductive Touches (pos : ℕ) (flags : Flags) : Flags → Prop where
  | same : Touches pos flags flags
  | set : Touches pos flags (osThreadFlagsSet flags (bitMask pos))
  | clear : Touches pos flags (osThreadFlagsClear flags (bitMask pos))

theorem Touches.clean {pos : ℕ} {flags : Flags} (h : Touches pos flags word) (hpos : pos < 31)
    (hflags : isOsFlagsError flags = false) : isOsFlagsError word = false := by
  cases h with
  | same => exact hflags
  | set => exact isOsFlagsError_set hflags hpos
  | clear => exact isOsFlagsError_clear hflags _

theorem Touches.keeps {pos pos' : ℕ} {flags : Flags} (h : Touches pos flags word)
    (hne : pos' ≠ pos) (hpos : pos' < 32) : isBitSet word pos' = isBitSet flags pos' := by
  cases h with
  | same => rfl
  | set => exact isBitSet_set_of_ne hne hpos flags
  | clear => exact isBitSet_clear_of_ne hne hpos flags

/-! ## The mutex -/

section Mutex

variable {s s' : InternalMutex.State Tid} {a : InternalMutex.Action Tid}

/-- A step of the mutex touches the wait flag of one thread at most. -/
def MutexTouches (words words' : Tid → Flags) : Prop :=
  ∃ t word, words' = Function.update words t word ∧
    Touches InternalMutex.mutexWaitFlag (words t) word

theorem MutexTouches.refl (t : Tid) (words : Tid → Flags) : MutexTouches words words :=
  ⟨t, words t, (Function.update_eq_self t words).symm, .same⟩

theorem acquire_flags {t : Tid} {next : InternalMutex.Pc Tid} (h : s.acquire t next = some s') :
    s'.flags = s.flags := by
  obtain ⟨-, h⟩ := Option.ite_none_right_eq_some.mp h
  cases h
  rfl

theorem clearWaitFlag_touches (s : InternalMutex.State Tid) (t : Tid)
    (next : InternalMutex.Pc Tid) : MutexTouches s.flags (s.clearWaitFlag t next).flags := by
  rw [InternalMutex.State.clearWaitFlag]
  split
  · exact .refl t _
  · exact ⟨t, _, rfl, .clear⟩

theorem signal_touches (s : InternalMutex.State Tid) (t blockedThread : Tid) :
    MutexTouches s.flags (s.signal t blockedThread).flags := by
  dsimp only [InternalMutex.State.signal]
  split
  · exact .refl t _
  · exact ⟨blockedThread, _, rfl, .set⟩

theorem mutexAdvance_touches {t : Tid} (h : s.advance t = some s') :
    MutexTouches s.flags s'.flags := by
  cases hpc : s.pc t with
  | idle | holding => simp [InternalMutex.State.advance, hpc] at h
  | lockEnter | lockRetake | tryEnter | unlockEnter =>
      simp only [InternalMutex.State.advance, hpc] at h
      rw [acquire_flags h]
      exact .refl t _
  | lockWait =>
      simp only [InternalMutex.State.advance, hpc] at h
      obtain ⟨-, h⟩ := Option.ite_none_right_eq_some.mp h
      cases h
      exact .refl t _
  | lockClear | tryClear =>
      simp only [InternalMutex.State.advance, hpc, Option.some.injEq] at h
      subst h
      exact clearWaitFlag_touches ..
  | unlockSignal =>
      simp only [InternalMutex.State.advance, hpc, Option.some.injEq] at h
      subst h
      exact signal_touches ..
  | unlockCheck =>
      simp only [InternalMutex.State.advance, hpc] at h
      split at h
      · cases h
        exact .refl t _
      · split at h <;> cases h <;> exact .refl t _
  | lockStatus =>
      simp only [InternalMutex.State.advance, hpc, Option.some.injEq] at h
      subst h
      split_ifs <;> exact .refl t _
  | lockCheck | lockTest | lockDrop | lockDropped | lockTake | lockLeave | tryCheck | tryFail
  | tryTake | tryLeave | unlockDrop =>
      simp only [InternalMutex.State.advance, hpc, Option.some.injEq] at h
      subst h
      first | exact .refl t _ | (split <;> exact .refl t _)

theorem mutexStep_touches (hown : mutexAct a = true) (h : InternalMutex.step s a = some s') :
    MutexTouches s.flags s'.flags := by
  obtain ⟨-, h⟩ := Option.ite_none_left_eq_some.mp h
  cases a with
  | lock t | tryLock t | unlock t | timeout t =>
      obtain ⟨-, h⟩ := Option.ite_none_right_eq_some.mp h
      cases h
      exact .refl t _
  | advance t => exact mutexAdvance_touches h
  | other => cases hown

omit [DecidableEq Tid] in
theorem ownership_with_flags (h : InternalMutex.Ownership s) (words : Tid → Flags) :
    InternalMutex.Ownership (mutexWith words s) :=
  ⟨h.inner, h.owner, h.free⟩

theorem mutexPart_step {s s' : InternalMutex.State Tid} {a : InternalMutex.Action Tid}
    (h : mutexPart.step words s a = some (words', s')) :
    mutexAct a = true ∧ InternalMutex.step (mutexWith words s) a = some s' ∧
      s'.flags = words' := by
  obtain ⟨hown, h⟩ := Option.ite_none_right_eq_some.mp h
  obtain ⟨s'', hstep, heq⟩ := Option.map_eq_some_iff.mp h
  cases heq
  exact ⟨hown, hstep, rfl⟩

/-- The mutex among the other parts. -/
def MutexInv (words : Tid → Flags) (s : InternalMutex.State Tid) : Prop :=
  InternalMutex.Ownership (mutexWith words s) ∧ Clean words

theorem mutex_rule : Sharing.Rule mutexPart MutexInv (Safe (.mutex : Part Tid)) (Good .mutex)
    (Rely .mutex) (Guar .mutex) where
  step := by
    intro w s a w' s' h hok hs
    obtain ⟨hown, hstep, rfl⟩ := mutexPart_step hs
    refine ⟨h.1.step hok (InternalMutex.step_effect hstep), ?_⟩
    obtain ⟨t, word, hword, htouch⟩ := mutexStep_touches hown hstep
    rw [hword]
    exact Clean.update h.2 (htouch.clean (by decide) (h.2 t))
  safe := fun w s h => h.1.exclusive
  breaks := by
    intro w s a w' s' h hs hbad
    obtain ⟨-, hstep, rfl⟩ := mutexPart_step hs
    exact InternalMutex.not_exclusive_of_break hstep hbad
  stable := fun w w' s h hrely => ⟨ownership_with_flags h.1 w', hrely⟩
  guarantee := by
    intro w s a w' s' h hs
    obtain ⟨hown, hstep, rfl⟩ := mutexPart_step hs
    obtain ⟨t, word, hword, htouch⟩ := mutexStep_touches hown hstep
    rw [hword]
    exact ⟨Clean.update h.2 (htouch.clean (by decide) (h.2 t)),
      fun u => keeps_update (htouch.keeps (by decide) (by decide)) u⟩

end Mutex

/-! ## The notifications -/

section Notification

variable {s s' : ThreadNotification.State} {a : ThreadNotification.Action} {subscriber : Tid}

theorem clearWaitFlag_flags (s : ThreadNotification.State) (next : ThreadNotification.Pc) :
    Touches ThreadNotification.waitFlag s.flags (s.clearWaitFlag next).flags := by
  rw [ThreadNotification.State.clearWaitFlag]
  split
  · exact .same
  · exact .clear

theorem signal_flags (s : ThreadNotification.State) :
    Touches ThreadNotification.waitFlag s.flags s.signal.flags := by
  dsimp only [ThreadNotification.State.signal]
  split
  · split
    · exact .same
    · exact .set
  · exact .same

theorem advance_flags (h : s.advance = some s') :
    Touches ThreadNotification.waitFlag s.flags s'.flags := by
  cases hpc : s.pc with
  | idle => simp [ThreadNotification.State.advance, hpc] at h
  | clear =>
      simp only [ThreadNotification.State.advance, hpc, Option.some.injEq] at h
      subst h
      exact clearWaitFlag_flags ..
  | finish =>
      simp only [ThreadNotification.State.advance, hpc, Option.some.injEq] at h
      subst h
      exact .clear
  | waitForever | waitTicks =>
      simp only [ThreadNotification.State.advance, hpc] at h
      obtain ⟨-, h⟩ := Option.ite_none_right_eq_some.mp h
      cases h
      exact .same
  | tryCheck | tryTest | tryConsume | check | test | fastUnblock | fastConsume | subscribe
  | choose | poll | loop | decide | unblock | consume =>
      simp only [ThreadNotification.State.advance, hpc, Option.some.injEq] at h
      subst h
      first | exact .same | (split <;> exact .same)

theorem timeout_flags (h : s.timeout = some s') : s'.flags = s.flags := by
  cases hpc : s.pc with
  | waitForever | waitTicks =>
      simp only [ThreadNotification.State.timeout, hpc, Option.some.injEq] at h
      subst h
      rfl
  | _ => simp [ThreadNotification.State.timeout, hpc] at h

theorem call_flags {pc : ThreadNotification.Pc} (h : s.call pc = some s') :
    s'.flags = s.flags := by
  obtain ⟨-, h⟩ := Option.ite_none_right_eq_some.mp h
  cases h
  rfl

theorem notificationStep_touches (hown : notificationAct a = true)
    (h : ThreadNotification.step s a = some s') :
    Touches ThreadNotification.waitFlag s.flags s'.flags := by
  obtain ⟨-, h⟩ := Option.ite_none_left_eq_some.mp h
  cases a with
  | tryAcquire | tryAcquireFor | acquire =>
      rw [call_flags h]
      exact .same
  | advance =>
      obtain ⟨-, h⟩ := Option.ite_none_right_eq_some.mp h
      exact advance_flags h
  | timeout =>
      obtain ⟨-, h⟩ := Option.ite_none_right_eq_some.mp h
      rw [timeout_flags h]
      exact .same
  | release context =>
      cases context with
      | interrupt =>
          cases h
          exact .same
      | thread =>
          obtain ⟨-, h⟩ := Option.ite_none_right_eq_some.mp h
          cases h
          exact .same
  | signal =>
      obtain ⟨-, h⟩ := Option.ite_none_right_eq_some.mp h
      cases h
      exact signal_flags s
  | other => cases hown

theorem notificationPart_step
    (h : (notificationPart subscriber).step words s a = some (words', s')) :
    notificationAct a = true ∧
      ThreadNotification.step (notificationWith (words subscriber) s) a = some s' ∧
      words' = Function.update words subscriber s'.flags := by
  obtain ⟨hown, h⟩ := Option.ite_none_right_eq_some.mp h
  obtain ⟨s'', hstep, heq⟩ := Option.map_eq_some_iff.mp h
  cases heq
  exact ⟨hown, hstep, rfl⟩

/-- The notification of a thread among the other parts. -/
def NotificationInv (subscriber : Tid) (words : Tid → Flags) (s : ThreadNotification.State) :
    Prop :=
  ThreadNotification.Inv (notificationWith (words subscriber) s) ∧ Clean words

theorem inv_with_flags (h : ThreadNotification.Inv s) (hclean : isOsFlagsError word = false)
    (hflag : isBitSet word ThreadNotification.waitFlag =
      isBitSet s.flags ThreadNotification.waitFlag) :
    ThreadNotification.Inv (notificationWith word s) := by
  refine h.step (a := .other word) trivial ?_
  rw [ThreadNotification.step, if_neg (by simp [h.running])]
  exact if_pos ⟨hflag, hclean⟩

theorem notification_rule (subscriber : Tid) :
    Sharing.Rule (notificationPart subscriber) (NotificationInv subscriber)
      (Safe (.notification subscriber : Part Tid)) (Good (.notification subscriber))
      (Rely (.notification subscriber)) (Guar (.notification subscriber)) where
  step := by
    intro w s a w' s' h hok hs
    obtain ⟨hown, hstep, rfl⟩ := notificationPart_step hs
    refine ⟨?_, Clean.update h.2 ((notificationStep_touches hown hstep).clean (by decide)
      (h.2 subscriber))⟩
    rw [Function.update_self]
    exact h.1.step hok hstep
  safe := fun w s h => h.1.consistent
  breaks := by
    intro w s a w' s' h hs hbad hsafe
    obtain ⟨-, hstep, rfl⟩ := notificationPart_step hs
    change ThreadNotification.Consistent (notificationWith _ s') at hsafe
    rw [Function.update_self] at hsafe
    exact ThreadNotification.inconsistent_of_not_endsNotified h.1 hstep hbad hsafe
  stable := by
    intro w w' s h hrely
    have hinv : ThreadNotification.Inv (notificationWith (w' subscriber)
        (notificationWith (w subscriber) s)) :=
      inv_with_flags h.1 (hrely.1 subscriber) hrely.2
    exact ⟨hinv, hrely.1⟩
  guarantee := by
    intro w s a w' s' h hs
    obtain ⟨hown, hstep, rfl⟩ := notificationPart_step hs
    refine ⟨Clean.update h.2 ((notificationStep_touches hown hstep).clean (by decide)
      (h.2 subscriber)), fun t ht => ?_⟩
    rw [Keeps, Function.update_of_ne ht]

end Notification

/-! ## All parts -/

theorem other_rule : Sharing.Rule otherPart (fun words _ => Clean words)
    (Safe (.other : Part Tid)) (Good .other) (Rely .other) (Guar .other) where
  step := by
    intro w s a w' s' h _ hs
    obtain ⟨⟨-, -, hclean⟩, hs⟩ := Option.ite_none_right_eq_some.mp hs
    cases hs
    exact Clean.update h hclean
  safe := fun _ _ _ => trivial
  breaks := fun _ _ _ _ _ _ _ hbad => absurd trivial hbad
  stable := fun _ _ _ _ hrely => hrely
  guarantee := by
    intro w s a w' s' h hs
    obtain ⟨⟨-, hkeeps, hclean⟩, hs⟩ := Option.ite_none_right_eq_some.mp hs
    cases hs
    exact ⟨Clean.update h hclean, keeps_update hkeeps⟩

def Inv : ∀ i : Part Tid, (Tid → Flags) → i.State → Prop
  | .mutex => MutexInv
  | .notification subscriber => NotificationInv subscriber
  | .other => fun words _ => Clean words

theorem part_rule (i : Part Tid) :
    Sharing.Rule (parts i) (Inv i) (Safe i) (Good i) (Rely i) (Guar i) := by
  cases i with
  | mutex => exact mutex_rule
  | notification subscriber => exact notification_rule subscriber
  | other => exact other_rule

omit [DecidableEq Tid] in
theorem inv_init (i : Part Tid) : Inv i (init : State Tid).memory ((init : State Tid).parts i) := by
  have hzero : isOsFlagsError 0#32 = false := by decide
  have hclean : Clean (init : State Tid).memory := fun _ => hzero
  cases i with
  | mutex => exact ⟨InternalMutex.ownership_init, hclean⟩
  | notification subscriber => exact ⟨ThreadNotification.inv_init, hclean⟩
  | other => exact hclean

/-- For any threads and any interleaving of their calls with other code: the mutex excludes and all
notifications are consistent in every state exactly if each step is good for its own part. -/
theorem safe_always_iff (acts : List (Σ i : Part Tid, i.Action)) :
    Always (Sharing.step parts) (fun s => ∀ i, Safe i s.memory (s.parts i)) init acts ↔
      Meets (Sharing.step parts) (fun s a => Good a.1 s.memory (s.parts a.1) a.2) init acts :=
  Sharing.always_iff_meets part_rule rely_of_guar inv_init acts

end OpenIotSdk.SharedFlags
