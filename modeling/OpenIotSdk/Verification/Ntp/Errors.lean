import OpenIotSdk.Library.Monitor
import OpenIotSdk.Verification.Ntp.Calls
import OpenIotSdk.Verification.Ntp.Semantics

/-! # Errors of the NTP client

The `error` of the task is never cleared, and the event flags keep what no wait has cleared.
Both outlive the operation that they come from. -/

namespace OpenIotSdk.Ntp

open Transition

variable {ι : Type*}

/-- A call of the task fails, or the request is lost. What the task only logs is no failure. -/
def Task.Pc.Fails (pc : Pc) (s : Shared) (res : ℤ) (seconds : BitVec 32) : Prop :=
  match pc with
  | .startClose | .setOpt | .resolve | .connect | .timerStart | .stopClose => res ≠ 0
  | .create | .send => res < 0
  | .recv => res < 0 ∨ res = 48 ∧ seconds.toNat < time1970
  | .configAcquire | .configRelease | .timeAcquire _ | .timeRelease | .errAcquire
  | .errRelease => ¬ s.MutexOk res
  | .ackStart | .ackStop | .errSet | .exitFlag => ¬ s.FlagsOk res
  | .timerNew | .get | .startTimerStop | .listeners | .stopTimer | .exitClose | .exitTimerDelete
  | .done => False

instance (pc : Task.Pc) (s : Shared) (res : ℤ) (seconds : BitVec 32) :
    Decidable (pc.Fails s res seconds) :=
  match pc with
  | .startClose | .setOpt | .resolve | .connect | .timerStart | .stopClose =>
      inferInstanceAs (Decidable (res ≠ 0))
  | .create | .send => inferInstanceAs (Decidable (res < 0))
  | .recv => inferInstanceAs (Decidable (_ ∨ _ ∧ _))
  | .configAcquire | .configRelease | .timeAcquire _ | .timeRelease | .errAcquire
  | .errRelease => inferInstanceAs (Decidable (¬ s.MutexOk res))
  | .ackStart | .ackStop | .errSet | .exitFlag => inferInstanceAs (Decidable (¬ s.FlagsOk res))
  | .timerNew | .get | .startTimerStop | .listeners | .stopTimer | .exitClose | .exitTimerDelete
  | .done => isFalse id

/-- What is noted about the events and the calls. -/
structure Notes (ι : Type*) where
  outcome : ℕ → Option Bool -- for each event that was processed, whether no step of it failed
  current : Option ℕ -- the number of the event that the task processes
  failed : Bool -- whether a step of it has failed
  own : ι → Option ℕ -- the number of the event that the call under way has put
  refused : List ℕ -- the events whose calls have returned something else than success

def Notes.zero : Notes ι where
  outcome := fun _ => none
  current := none
  failed := false
  own := fun _ => none
  refused := []

namespace Notes

variable (g : Notes ι)

def take (number : Option ℕ) : Notes ι :=
  { g with current := number, failed := number.isNone }

def settle : Notes ι :=
  match g.current with
  | none => g
  | some n =>
      { g with
        outcome := Function.update g.outcome n (some !g.failed)
        current := none }

/-- What the call under way is about after a step of it. -/
def owns (s : Shared) (c c' : Call) (own : Option ℕ) : Option ℕ :=
  if c.pc = .put ∧ s.Room then some s.next
  else if c'.pc = .idle ∨ c'.pc = .put then none
  else own

def call [DecidableEq ι] (i : ι) (s : Shared) (c c' : Call) : Notes ι :=
  { g with
    own := Function.update g.own i (owns s c c' (g.own i))
    refused := if c'.pc = .idle ∧ c'.result ≠ some .ok then (g.own i).toList ++ g.refused
      else g.refused }

end Notes

def noted [DecidableEq ι] (s : State ι) (a : Action ι) (t : State ι) (g : Notes ι) : Notes ι :=
  match a with
  | .task res seconds =>
      let g := if s.task.pc = .get then g.take ((s.takes res).map fun _ => s.shared.taken)
        else { g with failed := g.failed || decide (s.task.pc.Fails s.shared res seconds) }
      if t.task.pc = .get ∨ t.task.pc = .done then g.settle else g
  | .call i (.advance _) => g.call i s.shared (s.calls i) (t.calls i)
  -- A new task processes nothing.
  | .call i (.init _ _) =>
      { g with
        own := Function.update g.own i none
        current := if t.task.pc = .timerNew then none else g.current }
  | .call i .start | .call i .stop | .call i .deinit =>
      { g with own := Function.update g.own i none }
  | .tick | .timerCallback | .stray _ => g

/-- No call is refused whose event the task has processed without a failing step, and the task
reports an error only of an event of which a step has failed. -/
structure Unsticky (x : State ι × Notes ι) : Prop where
  accepted : ∀ n, x.2.outcome n = some true → n ∉ x.2.refused
  reported : x.1.task.pc = .errSet → x.2.failed = true

/-- What a call is told of an event that has not failed: its own flag and no other, or a timeout
without an error on record; and what it calls succeeds. -/
def Call.Pc.Answered (pc : Pc) (s : Shared) (flag : Flag) (res : ℤ) : Prop :=
  match pc with
  | .wait => s.eventFlags = .live ∧ s.flags = {flag} ∨
      ¬ (s.eventFlags = .live ∧ (flag ∈ s.flags ∨ .error ∈ s.flags)) ∧ s.error = .ok
  | .clear _ | .deleteFlags => s.FlagsOk res
  | .deleteQueue => s.eventQueue = .live ∧ res = 0
  | .deleteMutex => s.MutexOk res
  | .idle | .put | .errAcquire | .errRelease _ => True

instance (pc : Call.Pc) (s : Shared) (flag : Flag) (res : ℤ) :
    Decidable (pc.Answered s flag res) :=
  match pc with
  | .wait => inferInstanceAs (Decidable (_ ∧ _ ∨ ¬ _ ∧ _))
  | .clear _ | .deleteFlags => inferInstanceAs (Decidable (s.FlagsOk res))
  | .deleteQueue => inferInstanceAs (Decidable (_ ∧ _))
  | .deleteMutex => inferInstanceAs (Decidable (s.MutexOk res))
  | .idle | .put | .errAcquire | .errRelease _ => isTrue trivial

/-- The task takes an event while its `error` is `IOT_NTP_CLIENT_OK`, and only the calls whose
events have failed find the flags of others. -/
def Unspoiled (x : State ι × Notes ι) : Action ι → Prop
  | .task res _ => x.1.takes res ≠ none → x.1.task.error = .ok
  | .call i (.advance res) => ∀ n, x.2.own i = some n → x.2.outcome n ≠ some false →
      (x.1.calls i).pc.Answered x.1.shared (x.1.calls i).op.flag res
  | .call _ (.init _ _) | .call _ .start | .call _ .stop | .call _ .deinit | .tick
  | .timerCallback | .stray _ => True

instance (x : State ι × Notes ι) (a : Action ι) : Decidable (Unspoiled x a) :=
  match a with
  | .task _ _ => inferInstanceAs (Decidable (_ → _))
  | .call i (.advance _) => decidableNext (x.2.own i) fun _ => inferInstanceAs (Decidable (_ → _))
  | .call _ (.init _ _) | .call _ .start | .call _ .stop | .call _ .deinit | .tick
  | .timerCallback | .stray _ => isTrue trivial

/-! ## The error of the task -/

def Task.Pc.working (pc : Pc) : Bool := pc != .timerNew && pc != .get && !pc.leaving

section Task

variable {s : Shared} {t : Task} {res : ℤ} {seconds : BitVec 32} {next : Shared × Task}

theorem Task.leave_error (t : Task) : t.leave.error = t.error := rfl

theorem Task.next_error (t : Task) : t.next.error = t.error := by
  dsimp only [Task.next]
  split <;> rfl

theorem Task.finish_error (t : Task) : t.finish.error = t.error := by
  dsimp only [finish]
  split
  · rfl
  · exact t.next_error

theorem Task.dispatch_error (t : Task) (event : Event) : (t.dispatch event).error = t.error := by
  dsimp only [dispatch]
  generalize (if event = .getTime ∧ t.working = false then Event.start else event) = e
  cases e with
  | start | getTime | stop => rfl
  | none | terminate | error => exact finish_error _

theorem Task.settle_error (t : Task) : t.settle.error = t.error := by
  dsimp only [settle]
  split
  · exact finish_error _
  · rfl

theorem Task.advance_error (hs : t.advance s res seconds = some next) (hpc : t.pc ≠ .get)
    (hok : ¬ t.pc.Fails s res seconds) : next.2.error = t.error := by
  cases h : t.pc with
  | get => exact absurd h hpc
  | done =>
      simp only [advance, h] at hs
      cases hs
  | timerNew | startTimerStop | listeners | stopTimer | exitClose | exitTimerDelete =>
      simp only [advance, h] at hs
      cases hs
      rfl
  | startClose | setOpt | resolve | connect | timerStart | stopClose =>
      rw [h] at hok
      have hres : res = 0 := not_not.mp hok
      simp only [advance, h] at hs
      cases hs
      rw [if_pos hres]
      rfl
  | create =>
      rw [h] at hok
      have hres : 0 ≤ res := not_lt.mp hok
      simp only [advance, h] at hs
      cases hs
      rw [if_pos hres]
      rfl
  | send =>
      rw [h] at hok
      have hres : ¬ res < 0 := hok
      simp only [advance, h] at hs
      cases hs
      rw [if_neg hres]
      rfl
  | recv =>
      rw [h] at hok
      obtain ⟨hres, htime⟩ := not_or.mp hok
      simp only [advance, h] at hs
      cases hs
      rw [recv, if_neg hres]
      split
      · next hlength =>
          rw [if_neg fun hlt => htime ⟨hlength, hlt⟩]
          rfl
      · exact t.settle_error
  | configAcquire | configRelease | timeAcquire time | errAcquire | errRelease =>
      rw [h] at hok
      have hmutex : s.MutexOk res := not_not.mp hok
      simp only [advance, h] at hs
      cases hs
      rw [if_pos hmutex]
      rfl
  | timeRelease =>
      rw [h] at hok
      have hmutex : s.MutexOk res := not_not.mp hok
      simp only [advance, h] at hs
      cases hs
      rw [if_pos hmutex]
      exact t.settle_error
  | ackStart | ackStop | errSet | exitFlag =>
      rw [h] at hok
      have hflags : s.FlagsOk res := not_not.mp hok
      simp only [advance, h] at hs
      cases hs
      rw [if_pos hflags]
      first | exact finish_error _ | exact t.next_error | rfl

def Task.Reporting (t : Task) : Prop :=
  t.pc = .errAcquire ∨ t.pc = .errRelease ∨ t.pc = .errSet → t.error ≠ .ok

theorem Task.Reporting.advance (h : t.Reporting) (hs : t.advance s res seconds = some next) :
    next.2.Reporting := by
  intro hnext
  rcases advance_flow hs with hflow | hover
  · rcases hnext with hpc | hpc | hpc
    · rw [hpc] at hflow
      exact absurd hflow t.pc.not_flow_errAcquire
    · rw [hpc] at hflow
      have herror := h (Or.inl hflow.errAcquire)
      simp only [Task.advance, hflow.errAcquire] at hs
      cases hs
      split
      · exact herror
      · rw [leave_error]
        exact herror
    · rw [hpc] at hflow
      have herror := h (Or.inr (Or.inl hflow.errRelease))
      simp only [Task.advance, hflow.errRelease] at hs
      cases hs
      dsimp only
      split
      · exact herror
      · rw [leave_error]
        exact herror
  · rw [Over] at hover
    rcases hnext with hpc | hpc | hpc
    · rw [hpc] at hover
      exact hover
    · rw [hpc] at hover
      cases hover
    · rw [hpc] at hover
      cases hover

theorem Task.advance_working (hs : t.advance s res seconds = some next)
    (hnext : next.2.pc.working = true) : t.pc = .get ∨ t.pc.working = true := by
  by_cases hleaving : t.pc.leaving = true
  · have hleft := advance_leaving hs hleaving
    simp [Pc.working, hleft] at hnext
  · by_cases hnew : t.pc = .timerNew
    · simp only [advance, hnew] at hs
      cases hs
      dsimp only [goto] at hnext
      split at hnext <;> cases hnext
    · by_cases hget : t.pc = .get
      · exact Or.inl hget
      · right
        simp [Pc.working, hnew, hget, hleaving]

end Task

/-! ## The invariant -/

/-- What a call knows about its own event. -/
def Call.Noted (c : Call) (own : Option ℕ) (outcome : ℕ → Option Bool) : Prop :=
  match c.pc with
  | .idle | .put => own = none
  | .wait => True
  | .clear flags => ∀ n, own = some n → outcome n = some false ∨ flags = {c.op.flag}
  | .errAcquire | .errRelease _ => ∀ n, own = some n → outcome n = some false
  | .deleteFlags | .deleteQueue | .deleteMutex => own ≠ none → ∀ error, c.op ≠ .cleanup error

/-- An outcome that was noted stays as it is. -/
def Extends (outcome outcome' : ℕ → Option Bool) : Prop :=
  ∀ n clean, outcome n = some clean → outcome' n = some clean

structure Noted (x : State ι × Notes ι) : Prop where
  reporting : x.1.task.Reporting
  error : x.1.task.pc.working = true → x.1.task.error ≠ .ok → x.2.failed = true
  outcome : ∀ n, x.2.outcome n ≠ none → n < x.1.shared.taken
  current : ∀ n, x.2.current = some n → n < x.1.shared.taken ∧ x.2.outcome n = none
  refused : ∀ n ∈ x.2.refused, x.2.outcome n = some false
  calls : ∀ i, (x.1.calls i).Noted (x.2.own i) x.2.outcome

theorem Call.Noted.mono {c : Call} {own : Option ℕ} {outcome outcome' : ℕ → Option Bool}
    (h : c.Noted own outcome) (hext : Extends outcome outcome') : c.Noted own outcome' := by
  rw [Call.Noted] at h ⊢
  cases hpc : c.pc with
  | clear flags =>
      rw [hpc] at h
      exact fun n hn => (h n hn).imp_left (hext n false)
  | errAcquire | errRelease error =>
      rw [hpc] at h
      exact fun n hn => hext n false (h n hn)
  | _ =>
      rw [hpc] at h
      exact h

/-! ## One step of a call -/

section Call

variable {s u : Shared} {c c' : Call} {own : Option ℕ} {outcome : ℕ → Option Bool} {res : ℤ}
  {next : Shared × Call}

/-- What a step of a call leaves: what the call knows, and that it was refused rightly. -/
structure Fair (s : Shared) (c : Call) (own : Option ℕ) (outcome : ℕ → Option Bool)
    (c' : Call) : Prop where
  noted : c'.Noted (Notes.owns s c c' own) outcome
  refused : c'.pc = .idle → c'.result ≠ some .ok → ∀ n, own = some n → outcome n = some false

theorem Notes.owns_same (hpc : c.pc ≠ .put) (hpc' : c'.pc ≠ .idle ∧ c'.pc ≠ .put) :
    owns s c c' own = own := by
  rw [owns, if_neg fun h => hpc h.1, if_neg (not_or.mpr hpc')]

theorem Notes.owns_none (hpc : ¬ (c.pc = .put ∧ s.Room)) (hpc' : c'.pc = .idle ∨ c'.pc = .put) :
    owns s c c' own = none := by
  rw [owns, if_neg hpc, if_pos hpc']

theorem Notes.owns_of_none (hpc : c.pc ≠ .put) : owns s c c' none = none := by
  rw [owns, if_neg fun h => hpc h.1, ite_self]

theorem Fair.ret (hpc : ¬ (c.pc = .put ∧ s.Room)) {result : Result}
    (hresult : result ≠ .ok → ∀ n, own = some n → outcome n = some false) :
    Fair s c own outcome (c'.ret result) := by
  constructor
  · rw [Notes.owns_none hpc (Or.inl rfl)]
    rfl
  · intro _ hne
    exact hresult fun heq => hne (congrArg some heq)

theorem Fair.conclude (hpc : c.pc ≠ .put) (hop : own ≠ none → ∀ error, c'.op ≠ .cleanup error)
    {result : Result} (hresult : result ≠ .ok → ∀ n, own = some n → outcome n = some false) :
    Fair s c own outcome (c'.conclude result) := by
  dsimp only [Call.conclude]
  split
  · next error hcleanup =>
      refine .ret (fun h => hpc h.1) fun _ n hn => ?_
      exact absurd hcleanup (hop (by simp [hn]) error)
  all_goals exact .ret (fun h => hpc h.1) hresult

theorem Fair.delete (hpc : c.pc ≠ .put) (hop : own ≠ none → ∀ error, c'.op ≠ .cleanup error)
    (hdelete : c'.pc = .deleteFlags ∨ c'.pc = .deleteQueue ∨ c'.pc = .deleteMutex) :
    Fair s c own outcome c' := by
  constructor
  · rw [Notes.owns_same hpc, Call.Noted]
    · rcases hdelete with h | h | h <;> rw [h] <;> exact hop
    · rcases hdelete with h | h | h <;> simp [h]
  · intro hidle
    rcases hdelete with h | h | h <;> cases hidle.symm.trans h

theorem Fair.deinitMutex (hpc : c.pc ≠ .put)
    (hop : own ≠ none → ∀ error, c'.op ≠ .cleanup error) :
    Fair s c own outcome (c'.deinitMutex u).2 := by
  dsimp only [Call.deinitMutex]
  split
  · exact .delete hpc hop (by simp [Call.goto])
  · exact .conclude hpc hop fun hne => absurd rfl hne

theorem Fair.deinitQueue (hpc : c.pc ≠ .put)
    (hop : own ≠ none → ∀ error, c'.op ≠ .cleanup error) :
    Fair s c own outcome (c'.deinitQueue u).2 := by
  dsimp only [Call.deinitQueue]
  split
  · exact .delete hpc hop (by simp [Call.goto])
  · exact .deinitMutex hpc hop

theorem Fair.deinitFlags (hpc : c.pc ≠ .put)
    (hop : own ≠ none → ∀ error, c'.op ≠ .cleanup error) :
    Fair s c own outcome (c'.deinitFlags u).2 := by
  dsimp only [Call.deinitFlags]
  split
  · exact .delete hpc hop (by simp [Call.goto])
  · exact .deinitQueue hpc hop

theorem Fair.deinitThread (hpc : c.pc ≠ .put) :
    Fair s c own outcome (c'.deinitThread u).2 := by
  dsimp only [Call.deinitThread]
  split
  · constructor
    · rw [Notes.owns_none (fun h => hpc h.1) (Or.inr rfl)]
      rfl
    · intro hidle
      cases hidle
  · exact .deinitFlags hpc (by simp)

theorem Fair.waited (hpc : c.pc ≠ .put) {result : Result}
    (hresult : result ≠ .ok → ∀ n, own = some n → outcome n = some false) :
    Fair s c own outcome (c.waited u result).2 := by
  have hret : ¬ (c.pc = .put ∧ s.Room) := fun h => hpc h.1
  dsimp only [Call.waited]
  by_cases heq : result = .ok
  · rw [if_neg (not_not_intro heq)]
    cases h : c.op with
    | start | stop | cleanup error => exact .ret hret fun hne => absurd rfl hne
    | deinitStop => exact .deinitThread hpc
    | deinit => exact .deinitFlags hpc fun _ error => by simp [h]
  · rw [if_pos heq]
    exact .ret hret hresult

/-- What the call knows once it has seen flags, or that its wait failed rightly. -/
theorem Fair.wait {out : Shared × (Call.Pc ⊕ Result)} (h : c.Noted own outcome)
    (hfail : ¬ c.pc.Answered s c.op.flag res → ∀ n, own = some n → outcome n = some false)
    (hw : Call.waitForNtpEvent s c.op.flag c.pc res = some out) :
    match out.2 with
    | .inl pc => (pc ≠ .idle ∧ pc ≠ .put) ∧ (c.goto pc).Noted own outcome
    | .inr result => result ≠ .ok → ∀ n, own = some n → outcome n = some false := by
  rw [Call.Noted] at h
  cases hpc : c.pc with
  | idle | put | deleteFlags | deleteQueue | deleteMutex =>
      rw [hpc] at hw
      cases hw
  | wait =>
      rw [hpc] at hw hfail
      dsimp only [Call.waitForNtpEvent] at hw
      by_cases hseen : s.eventFlags = .live ∧ (c.op.flag ∈ s.flags ∨ .error ∈ s.flags)
      · rw [if_pos hseen] at hw
        cases hw
        refine ⟨⟨by simp, by simp⟩, fun n hown => ?_⟩
        by_cases hflags : s.flags = {c.op.flag}
        · exact Or.inr hflags
        · refine Or.inl (hfail ?_ n hown)
          rintro (⟨-, heq⟩ | ⟨hunseen, -⟩)
          · exact hflags heq
          · exact hunseen hseen
      · rw [if_neg hseen] at hw
        obtain ⟨-, hw⟩ := Option.ite_none_right_eq_some.mp hw
        cases hw
        refine fun herror => hfail ?_
        rintro (⟨hlive, heq⟩ | ⟨-, heq⟩)
        · exact hseen ⟨hlive, Or.inl (by simp [heq])⟩
        · exact herror heq
  | clear flags =>
      rw [hpc] at h hw hfail
      cases hw
      by_cases hclear : s.FlagsOk res
      · rw [if_pos hclear]
        by_cases hflags : flags = {c.op.flag}
        · simp only [if_pos hflags]
          exact fun hne => absurd rfl hne
        · have hfailed : ∀ n, own = some n → outcome n = some false := fun n hown =>
            (h n hown).resolve_right hflags
          simp only [if_neg hflags]
          by_cases herror : .error ∈ flags
          · rw [if_pos herror]
            exact ⟨⟨by simp, by simp⟩, hfailed⟩
          · rw [if_neg herror]
            exact fun _ => hfailed
      · rw [if_neg hclear]
        exact fun _ => hfail hclear
  | errAcquire =>
      rw [hpc] at h hw
      cases hw
      by_cases hmutex : s.MutexOk res
      · simp only [if_pos hmutex]
        exact ⟨⟨by simp, by simp⟩, h⟩
      · simp only [if_neg hmutex]
        exact fun _ => h
  | errRelease error =>
      rw [hpc] at h hw
      cases hw
      exact fun _ => h

theorem Fair.advance (h : c.Noted own outcome) (hs : c.advance s res = some next)
    (hok : ∀ n, own = some n → outcome n ≠ some false → c.pc.Answered s c.op.flag res) :
    Fair s c own outcome next.2 := by
  -- What fails, fails for an event that has failed.
  have hfail : ¬ c.pc.Answered s c.op.flag res → ∀ n, own = some n → outcome n = some false := by
    intro hn n hown
    by_contra hne
    exact hn (hok n hown hne)
  cases Call.advance_effect hs with
  | put hpc hroom =>
      constructor
      · trivial
      · intro hidle
        cases hidle
  | full hpc hroom =>
      rw [Call.Noted, hpc] at h
      exact .ret (fun hput => hroom hput.2) fun _ n hn => by cases h.symm.trans hn
  | waits hflags hw =>
      obtain ⟨hpc, hnoted⟩ := wait h hfail hw
      refine ⟨?_, fun hidle => absurd hidle hpc.1⟩
      rw [Notes.owns_same (Call.wait_ne_put hw) hpc]
      exact hnoted
  | waited hflags hw => exact .waited (Call.wait_ne_put hw) (wait h hfail hw)
  | deleteFlags hpc hdeleted =>
      rw [Call.Noted, hpc] at h
      exact .deinitQueue (by simp [hpc]) h
  | deleteQueue hpc hdeleted =>
      rw [Call.Noted, hpc] at h
      exact .deinitMutex (by simp [hpc]) h
  | deleteMutex hpc hdeleted =>
      rw [Call.Noted, hpc] at h
      exact .conclude (by simp [hpc]) h fun hne => absurd rfl hne
  | refused herror hpc =>
      have hdeletes : c.pc ≠ .put ∧ ¬ c.pc.Answered s c.op.flag res ∧
          (own ≠ none → ∀ error, c.op ≠ .cleanup error) := by
        rw [Call.Noted] at h
        obtain ⟨hpc, hfailed⟩ | ⟨hpc, hfailed⟩ | ⟨hpc, hfailed⟩ := hpc
        all_goals
          rw [hpc] at h ⊢
          exact ⟨by simp, hfailed, h⟩
      exact .conclude hdeletes.1 hdeletes.2.2 fun _ => hfail hdeletes.2.1

end Call

/-! ## One step of the task -/

section Task

variable {s : State ι} {g : Notes ι}

theorem Notes.settle_outcome {n : ℕ} (hn : g.settle.outcome n ≠ none) :
    g.outcome n ≠ none ∨ g.current = some n := by
  by_cases hc : g.current = some n
  · exact Or.inr hc
  · left
    rw [Notes.settle] at hn
    split at hn
    · exact hn
    · next m hm =>
        have hne : n ≠ m := fun heq => hc (heq ▸ hm)
        dsimp only at hn
        rwa [Function.update_of_ne hne] at hn

theorem Notes.settle_extends (hcurrent : ∀ n, g.current = some n → g.outcome n = none) :
    Extends g.outcome g.settle.outcome := by
  intro n clean hn
  rw [Notes.settle]
  split
  · exact hn
  · next m hm =>
      have hne : n ≠ m := by
        rintro rfl
        cases (hcurrent n hm).symm.trans hn
      dsimp only
      rwa [Function.update_of_ne hne]

theorem Noted.settle (h : Noted (s, g)) : Noted (s, g.settle) := by
  have hext := Notes.settle_extends fun n hn => (h.current n hn).2
  have hsame : g.settle.failed = g.failed ∧ g.settle.own = g.own ∧
      g.settle.refused = g.refused ∧ g.settle.current = none := by
    cases hc : g.current <;> simp [Notes.settle, hc]
  obtain ⟨hfailed, hown, hrefused, hcurrent⟩ := hsame
  refine ⟨h.reporting, ?_, fun n hn => ?_, ?_, ?_, fun i => ?_⟩
  · dsimp only
    rw [hfailed]
    exact h.error
  · rcases Notes.settle_outcome hn with hn | hn
    · exact h.outcome n hn
    · exact (h.current n hn).1
  · dsimp only
    rw [hcurrent]
    simp
  · dsimp only
    rw [hrefused]
    exact fun n hn => hext n false (h.refused n hn)
  · dsimp only
    rw [hown]
    exact (h.calls i).mono hext

/-- The task takes an event without an error, or fails to take one. -/
theorem Noted.take {res : ℤ} {next : Shared × Task} (h : Noted (s, g)) (hpc : s.task.pc = .get)
    (hn : s.task.get s.shared res = some next) (hok : s.takes res ≠ none → s.task.error = .ok) :
    Noted ({ s with shared := next.1, task := next.2 },
      g.take ((s.takes res).map fun _ => s.shared.taken)) := by
  have hreporting : next.2.Reporting := by
    have hadvance : s.task.advance s.shared res 0#32 = some next := by
      simpa [Task.advance, hpc] using hn
    exact h.reporting.advance hadvance
  obtain ⟨event, queue, htakes, -, rfl⟩ | ⟨htakes, rfl⟩ := get_takes hpc hn
  · have herror : s.task.error = .ok := hok (by simp [htakes])
    rw [htakes]
    refine ⟨hreporting, fun _ hne => ?_, fun n hn => ?_, fun n hn => ?_, h.refused, h.calls⟩
    · exact absurd ((s.task.dispatch_error event).trans herror) hne
    · exact Nat.lt_succ_of_lt (h.outcome n hn)
    · cases hn
      refine ⟨Nat.lt_succ_self _, ?_⟩
      by_contra hne
      exact lt_irrefl _ (h.outcome _ hne)
  · rw [htakes]
    exact ⟨hreporting, fun _ _ => rfl, h.outcome, fun n hn => (by cases hn), h.refused, h.calls⟩

theorem Noted.process {res : ℤ} {seconds : BitVec 32} {next : Shared × Task} (h : Noted (s, g))
    (hpc : s.task.pc ≠ .get) (hn : s.task.advance s.shared res seconds = some next) :
    Noted ({ s with shared := next.1, task := next.2 },
      { g with failed := g.failed || decide (s.task.pc.Fails s.shared res seconds) }) := by
  have htaken := Task.advance_taken hn hpc
  refine ⟨h.reporting.advance hn, fun hworking hne => ?_, fun n hn => ?_, fun n hn => ?_,
    h.refused, h.calls⟩
  · by_cases hfails : s.task.pc.Fails s.shared res seconds
    · simp [hfails]
    · rw [Task.advance_error hn hpc hfails] at hne
      have hwork := (Task.advance_working hn hworking).resolve_left hpc
      have hfailed : g.failed = true := h.error hwork hne
      simp [hfailed]
  · exact htaken.symm ▸ h.outcome n hn
  · exact htaken.symm ▸ h.current n hn

end Task

/-! ## Runs -/

section Step

variable {s t : State ι} {g : Notes ι}

theorem Noted.env (h : Noted (s, g)) {u : Shared} (htaken : s.shared.taken ≤ u.taken) :
    Noted ({ s with shared := u }, g) :=
  ⟨h.reporting, h.error, fun n hn => (h.outcome n hn).trans_le htaken,
    fun n hn => ⟨(h.current n hn).1.trans_le htaken, (h.current n hn).2⟩, h.refused, h.calls⟩

theorem Noted.newTask (h : Noted (s, g)) : Noted (s.newTask, g) := by
  have htaken : s.newTask.shared.taken = s.shared.taken := by
    dsimp only [State.newTask]
    split
    · rfl
    · split <;> rfl
  exact ⟨fun hpc => (by simp [State.newTask, Task.init] at hpc),
    fun hworking => (by cases hworking), (h.env htaken.ge).outcome, (h.env htaken.ge).current,
    h.refused, h.calls⟩

theorem Shared.ntpTimerCallback_taken (s : Shared) : s.ntpTimerCallback.taken = s.taken := by
  obtain ⟨events, -, hput⟩ := s.ntpTimerCallback_eq
  rw [hput]

theorem Shared.stray_taken (s : Shared) (effect : Stray) : s.taken ≤ (s.stray effect).taken := by
  cases effect with
  | take =>
      dsimp only [stray]
      split
      · exact le_rfl
      · exact Nat.le_succ _
  | put => exact s.ntpTimerCallback_taken.ge
  | setFlag flag | setError error | setTime time | ends => exact le_rfl

variable [DecidableEq ι]

theorem Noted.setCall (h : Noted (s, g)) {i : ι} {next : Shared × Call}
    (htaken : s.shared.taken ≤ next.1.taken) {own : Option ℕ} {refused : List ℕ}
    (hcall : next.2.Noted own g.outcome)
    (hrefused : ∀ n ∈ refused, g.outcome n = some false) :
    Noted (s.setCall i next, { g with
      own := Function.update g.own i own
      refused := refused }) := by
  refine ⟨h.reporting, h.error, (h.env htaken).outcome, (h.env htaken).current, hrefused,
    fun j => ?_⟩
  dsimp only [State.setCall]
  by_cases hj : j = i
  · subst hj
    rw [Function.update_self, Function.update_self]
    exact hcall
  · rw [Function.update_of_ne hj, Function.update_of_ne hj]
    exact h.calls j

theorem Noted.initialise (h : Noted (s, g)) {i : ι} (hidle : (s.calls i).pc = .idle)
    (config : Option Config) (created : Creation) :
    Noted (s.iotNtpClientInit i config created, { g with
      own := Function.update g.own i none }) := by
  by_cases huninit : s.shared.state = .uninitialised
  · dsimp only [State.iotNtpClientInit]
    obtain ⟨u, error, hblank, heq⟩ | ⟨u, hfresh, heq⟩ :=
      Call.init_cases s.shared (s.calls i) config created huninit
    · rw [heq]
      have hput : (s.calls i).pc ≠ .put := by simp [hidle]
      have hfair : Fair s.shared (s.calls i) none g.outcome
          (({ s.calls i with op := .cleanup error } : Call).deinitFlags u).2 :=
        .deinitFlags hput fun hne => absurd rfl hne
      have hnoted := hfair.noted
      rw [Notes.owns_of_none hput] at hnoted
      have htaken := taken_of_eq (Call.deinitFlags_fst u { s.calls i with op := .cleanup error })
      exact h.setCall (htaken.symm ▸ hblank.taken) hnoted h.refused
    · rw [heq]
      have hret : Noted (s.setCall i (u, (s.calls i).ret .ok), { g with
          own := Function.update g.own i none }) := h.setCall hfresh.taken rfl h.refused
      exact hret.newTask
  · simp only [State.iotNtpClientInit, Call.iotNtpClientInit, ne_eq, huninit, not_false_eq_true,
      if_true]
    exact h.setCall le_rfl rfl h.refused

theorem Noted.call (h : Noted (s, g)) {i : ι} {action : CallAction}
    (hok : Unspoiled (s, g) (.call i action)) (hs : s.call i action = some t) :
    Noted (t, noted s (.call i action) t g) := by
  cases action with
  | init config created =>
      obtain ⟨hidle, hs⟩ := Option.ite_none_right_eq_some.mp hs
      cases hs
      have hinit := h.initialise hidle config created
      refine ⟨hinit.reporting, hinit.error, hinit.outcome, fun n hn => hinit.current n ?_,
        hinit.refused, hinit.calls⟩
      dsimp only [noted] at hn
      split at hn
      · cases hn
      · exact hn
  | start =>
      obtain ⟨hidle, hs⟩ := Option.ite_none_right_eq_some.mp hs
      cases hs
      refine h.setCall le_rfl ?_ h.refused
      dsimp only [Call.iotNtpClientStart]
      split <;> first | rfl | trivial
  | stop =>
      obtain ⟨hidle, hs⟩ := Option.ite_none_right_eq_some.mp hs
      cases hs
      refine h.setCall le_rfl ?_ h.refused
      dsimp only [Call.iotNtpClientStop]
      split <;> first | rfl | trivial
  | deinit =>
      obtain ⟨hidle, hs⟩ := Option.ite_none_right_eq_some.mp hs
      cases hs
      have hput : (s.calls i).pc ≠ .put := by simp [hidle]
      dsimp only [Call.iotNtpClientDeinit]
      split
      · exact h.setCall le_rfl rfl h.refused
      · have hfair : Fair s.shared (s.calls i) none g.outcome
            ((s.calls i).deinitThread s.shared).2 := .deinitThread hput
        have hnoted := hfair.noted
        rw [Notes.owns_of_none hput] at hnoted
        exact h.setCall (taken_of_eq (Call.deinitThread_fst ..)).ge hnoted h.refused
  | advance res =>
      obtain ⟨next, hnext, rfl⟩ := Option.map_eq_some_iff.mp hs
      have hfair := Fair.advance (h.calls i) hnext hok
      have hcall : (s.setCall i next).calls i = next.2 := Function.update_self ..
      dsimp only [noted, Notes.call]
      rw [hcall]
      refine h.setCall (Call.advance_taken hnext).ge hfair.noted fun n hn => ?_
      split at hn
      · next hret =>
          rcases List.mem_append.mp hn with hn | hn
          · exact hfair.refused hret.1 hret.2 n (Option.mem_toList.mp hn)
          · exact h.refused n hn
      · exact h.refused n hn

theorem Noted.step {x y : State ι × Notes ι} {a : Action ι} (h : Noted x) (hok : Unspoiled x a)
    (hs : Monitor.step step noted x a = some y) : Noted y := by
  obtain ⟨s, g⟩ := x
  obtain ⟨t, ht, rfl⟩ := Monitor.step_eq_some.mp hs
  cases a with
  | task res seconds =>
      obtain ⟨next, hnext, rfl⟩ := Option.map_eq_some_iff.mp ht
      dsimp only [noted]
      by_cases hget : s.task.pc = .get
      · rw [if_pos hget]
        simp only [Task.advance, hget] at hnext
        have htake := h.take hget hnext hok
        split
        · exact htake.settle
        · exact htake
      · rw [if_neg hget]
        have hprocess := h.process hget hnext
        split
        · exact hprocess.settle
        · exact hprocess
  | tick =>
      obtain ⟨-, ht⟩ := Option.ite_none_right_eq_some.mp ht
      cases ht
      exact h.env le_rfl
  | timerCallback =>
      obtain ⟨-, ht⟩ := Option.ite_none_right_eq_some.mp ht
      cases ht
      have htaken := Shared.ntpTimerCallback_taken
        { s.shared with callbacks := s.shared.callbacks - 1 }
      exact h.env htaken.ge
  | stray effect =>
      obtain ⟨-, ht⟩ := Option.ite_none_right_eq_some.mp ht
      cases ht
      exact h.env (s.shared.stray_taken effect)
  | call i action => exact h.call hok ht

end Step

variable [DecidableEq ι]

/-- In any interleaving of the task, its timer and the callers of the API: no call is refused
whose event the task has processed without a failing step, and the task reports only errors of
the event it has processed, if it takes no event with an error of an earlier one, and the calls
whose events have not failed find their own flags alone. -/
theorem unsticky_of_unspoiled (acts : List (Action ι))
    (h : Meets (Monitor.step step noted) Unspoiled (init ι, Notes.zero) acts) :
    Always (Monitor.step step noted) Unsticky (init ι, Notes.zero) acts := by
  apply Always.of_invariant Noted _ _ _ h
  · exact fun x a y hx hok hs => hx.step hok hs
  · intro x hx
    constructor
    · intro n hclean hmem
      cases hclean.symm.trans (hx.refused n hmem)
    · intro hpc
      have hworking : x.1.task.pc.working = true := by
        rw [hpc]
        rfl
      exact hx.error hworking (hx.reporting (Or.inr (Or.inr hpc)))
  · exact ⟨fun hpc => (by simp [init] at hpc), fun hworking => (by cases hworking),
      fun n hn => absurd rfl hn,
      fun n hn => (by cases hn), fun n hn => (by cases hn), fun i => rfl⟩

theorem lifecycle_unsticky :
    Always (Monitor.step step noted) Unsticky (init Unit, Notes.zero) lifecycle :=
  unsticky_of_unspoiled lifecycle (by decide)

/-- The host name is not resolved, and the START returns the error. -/
def failedStart : List (Action Unit) :=
  initialise :: callStart ++ taskBegin ++ .task 0 0#32 :: .task 3 0#32 ::
    List.replicate 3 (.task 0 0#32) ++ .task (-1) 0#32 :: List.replicate 3 (.task 0 0#32) ++
    List.replicate 4 (.call () (.advance 0))

/-- It is issued again, and this time nothing fails. -/
def secondTry : List (Action Unit) :=
  failedStart ++ callStart ++ List.replicate 2 (.task 0 0#32) ++ .task 4 0#32 ::
    List.replicate 5 (.task 0 0#32) ++ taskRequest ++ List.replicate 5 (.task 0 0#32) ++
    List.replicate 4 (.call () (.advance 0))

theorem secondTry_not_unsticky :
    ¬ ∀ acts x, run (Monitor.step step noted) (init Unit, Notes.zero) acts = some x →
      Unsticky x := by
  intro h
  exact (h secondTry _ rfl).accepted 1 rfl (by decide)

end OpenIotSdk.Ntp
