import OpenIotSdk.Library.Monitor
import OpenIotSdk.Verification.Ntp.Calls
import OpenIotSdk.Verification.Ntp.Semantics

/-! # Restarts of the NTP client

The task acknowledges a START where it starts its timer, which it does while
`ntp_client_started` is not set. A STOP does not clear that flag. -/

namespace OpenIotSdk.Ntp

open Transition

/-- After a successful `iotNtpClientInit`, with one caller. -/
def initialised (config : Option Config) : State Unit :=
  (init Unit).iotNtpClientInit () config ⟨true, true, true, true⟩

/-- For a START that was issued in STOPPED and has not returned: how many steps the task has
taken without acknowledging it. -/
def issued (s : State Unit) (a : Action Unit) (t : State Unit) (steps : Option ℕ) : Option ℕ :=
  match a with
  | .call _ .start => if s.shared.state = .stopped then some 0 else none
  | .call _ (.advance _) => if (t.calls ()).pc = .idle then none else steps
  | .task _ _ => if .start ∈ t.shared.flags then steps else steps.map (· + 1)
  | .tick | .timerCallback | .stray _ | .call _ .stop | .call _ .deinit | .call _ (.init _ _) =>
      steps

/-- What a healthy network, a healthy server and a healthy RTOS answer. -/
def Task.Pc.Healthy (pc : Pc) (t : Task) (res : ℤ) (seconds : BitVec 32) : Prop :=
  match pc with
  | .create | .ackStart | .ackStop | .errSet | .exitFlag => 0 ≤ res
  | .setOpt | .connect | .startClose | .stopClose | .exitClose => 0 ≤ t.socket → res = 0
  | .send => 0 ≤ t.socket → 0 ≤ res
  | .recv => 0 ≤ t.socket → res = 48 ∧ time1970 ≤ seconds.toNat
  | .startTimerStop | .stopTimer => t.timer ≠ none → res = 0
  | .timerNew | .get | .configAcquire | .configRelease | .resolve | .timeAcquire _ | .listeners
  | .timeRelease | .timerStart | .errAcquire | .errRelease | .exitTimerDelete | .done => res = 0

instance (pc : Task.Pc) (t : Task) (res : ℤ) (seconds : BitVec 32) :
    Decidable (pc.Healthy t res seconds) :=
  match pc with
  | .create | .ackStart | .ackStop | .errSet | .exitFlag => inferInstanceAs (Decidable (0 ≤ res))
  | .setOpt | .connect | .startClose | .stopClose | .exitClose =>
      inferInstanceAs (Decidable (_ → res = 0))
  | .send => inferInstanceAs (Decidable (_ → 0 ≤ res))
  | .recv => inferInstanceAs (Decidable (_ → res = 48 ∧ _ ≤ _))
  | .startTimerStop | .stopTimer => inferInstanceAs (Decidable (_ → res = 0))
  | .timerNew | .get | .configAcquire | .configRelease | .resolve | .timeAcquire _ | .listeners
  | .timeRelease | .timerStart | .errAcquire | .errRelease | .exitTimerDelete | .done =>
      inferInstanceAs (Decidable (res = 0))

/-- What a call may be told: 60 s are enough for the task to deal with its event. -/
def Call.Pc.Healthy (pc : Pc) (s : State Unit) (res : ℤ) : Prop :=
  match pc with
  | .wait => (s.calls ()).op.flag ∈ s.shared.flags ∨ .error ∈ s.shared.flags ∨
      s.task.pc = .get ∧ (s.calls ()).op.event ∉ s.shared.queue
  | .clear _ => 0 ≤ res
  | .errAcquire | .errRelease _ => res = 0
  | .idle | .put | .deleteFlags | .deleteQueue | .deleteMutex => True

instance (pc : Call.Pc) (s : State Unit) (res : ℤ) : Decidable (pc.Healthy s res) :=
  match pc with
  | .wait => inferInstanceAs (Decidable (_ ∨ _ ∨ _))
  | .clear _ => inferInstanceAs (Decidable (0 ≤ res))
  | .errAcquire | .errRelease _ => inferInstanceAs (Decidable (res = 0))
  | .idle | .put | .deleteFlags | .deleteQueue | .deleteMutex => isTrue trivial

/-- The calls are of `iotNtpClientStart` and `iotNtpClientStop`, and what they and the task call
is healthy. -/
def Healthy (s : State Unit) : Action Unit → Prop
  | .task res seconds => s.task.pc.Healthy s.task res seconds
  | .call _ (.advance res) => (s.calls ()).pc.Healthy s res
  | .tick | .timerCallback | .stray _ | .call _ .start | .call _ .stop => True
  | .call _ .deinit | .call _ (.init _ _) => False

instance (s : State Unit) (a : Action Unit) : Decidable (Healthy s a) :=
  match a with
  | .task res seconds => inferInstanceAs (Decidable (s.task.pc.Healthy s.task res seconds))
  | .call _ (.advance res) => inferInstanceAs (Decidable ((s.calls ()).pc.Healthy s res))
  | .tick | .timerCallback | .stray _ | .call _ .start | .call _ .stop => isTrue trivial
  | .call _ .deinit | .call _ (.init _ _) => isFalse id

/-- A START that is issued in STOPPED finds `ntp_client_started` cleared. -/
def Unstarted (s : State Unit) : Action Unit → Prop
  | .call _ .start => s.shared.state = .stopped → s.task.started = false
  | .task _ _ | .tick | .timerCallback | .stray _ | .call _ .stop | .call _ .deinit
  | .call _ (.init _ _) | .call _ (.advance _) => True

instance (s : State Unit) (a : Action Unit) : Decidable (Unstarted s a) :=
  match a with
  | .call _ .start => inferInstanceAs (Decidable (_ → _))
  | .task _ _ | .tick | .timerCallback | .stray _ | .call _ .stop | .call _ .deinit
  | .call _ (.init _ _) | .call _ (.advance _) => isTrue trivial

/-- While a START that was issued in STOPPED is not acknowledged, the task goes on; it takes at
most 14 steps before the one that acknowledges it. The START returns where its wait has seen
the acknowledgement, and leaves a running client with a running timer. -/
structure Restarts (x : State Unit × Option ℕ) (y : State Unit × Option ℕ) : Prop where
  awake : x.2 ≠ none → (x.1.calls ()).pc = .wait → .start ∉ x.1.shared.flags →
    ∃ res seconds, Healthy x.1 (.task res seconds) ∧ step x.1 (.task res seconds) ≠ none
  prompt : ∀ steps, y.2 = some steps → steps ≤ 14
  returned : x.2 ≠ none → (x.1.calls ()).pc ≠ .idle → (y.1.calls ()).pc = .idle →
    (∃ flags, (x.1.calls ()).pc = .clear flags ∧ .start ∈ flags) ∧
    (y.1.calls ()).result = some .ok ∧ y.1.shared.state = .running ∧
    y.1.task.timer = some y.1.shared.config.intervalMs

/-! ## The task -/

/-- The place of a call in the processing of the first START. -/
def Task.Pc.rank : Task.Pc → ℕ
  | .get => 1
  | .create => 2
  | .setOpt => 3
  | .configAcquire => 4
  | .configRelease => 5
  | .resolve => 6
  | .connect => 7
  | .send => 8
  | .recv => 9
  | .timeAcquire _ => 10
  | .listeners => 11
  | .timeRelease => 12
  | .timerStart => 13
  | .ackStart => 14
  | _ => 0

/-- The calls of a GET_TIME, and the wait for it. -/
def Task.Pc.polling : Task.Pc → Bool
  | .get | .send | .recv | .timeAcquire _ | .listeners | .timeRelease => true
  | _ => false

/-- The context from the initialization up to the end of the first START. -/
structure Shared.Live (s : Shared) : Prop where
  state : s.state = .stopped
  mutex : s.mutex = .live
  eventQueue : s.eventQueue = .live
  eventFlags : s.eventFlags = .live
  strays : s.strays = 0
  leaks : s.leaks = 0

/-- The task has taken no event. -/
structure Task.Unused (t : Task) : Prop where
  pc : t.pc = .timerNew ∨ t.pc = .get
  error : t.error = .ok
  socket : t.socket = iotSocketEsock
  started : t.started = false
  timer : t.timer = none

structure Task.Busy (config : Config) (t : Task) : Prop where
  rank : 2 ≤ t.pc.rank
  error : t.error = .ok
  event : t.event = .start
  socket : 2 < t.pc.rank → 0 ≤ t.socket
  copied : 4 < t.pc.rank → t.config = config
  started : t.started = decide (t.pc.rank = 14)
  timer : t.timer = if t.pc.rank = 14 then some config.intervalMs else none

structure Task.Polling (config : Config) (t : Task) : Prop where
  pc : t.pc.polling = true
  error : t.error = .ok
  event : t.event ≠ .terminate
  socket : 0 ≤ t.socket
  working : t.working = true
  started : t.started = true
  timer : t.timer = some config.intervalMs

section Task

variable {s : Shared} {t : Task} {res : ℤ} {seconds : BitVec 32} {next : Shared × Task}

theorem Shared.Live.update (h : s.Live) (time : ℕ) (queue : List Event) (taken : ℕ)
    (flags : Finset Flag) (callbacks : ℕ) :
    { s with
      time := time
      queue := queue
      taken := taken
      flags := flags
      callbacks := callbacks }.Live :=
  ⟨h.state, h.mutex, h.eventQueue, h.eventFlags, h.strays, h.leaks⟩

theorem Task.Pc.rank_le (pc : Task.Pc) : pc.rank ≤ 14 := by
  cases pc <;> simp [rank]

/-- A step brings the task nearer to its acknowledgement. -/
structure Task.Nears (s : Shared) (t : Task) (next : Shared × Task) : Prop where
  time : ∃ time, next.1 = { s with time := time }
  busy : next.2.Busy s.config
  rank : t.pc.rank < next.2.pc.rank

theorem Task.Busy.goto (h : t.Busy s.config) {pc pc' : Pc} (hpc : t.pc = pc)
    (hnext : pc'.rank = pc.rank + 1) (hrank : pc.rank ≠ 2 ∧ pc.rank ≠ 4 ∧ pc.rank < 13)
    (time : ℕ) : t.Nears s ({ s with time := time }, t.goto pc') := by
  subst hpc
  obtain ⟨hcreate, hacquire, hlt⟩ := hrank
  have hge := h.rank
  have hne : t.pc.rank ≠ 14 := by omega
  have hne' : pc'.rank ≠ 14 := by omega
  have hstarted := h.started
  have htimer := h.timer
  simp only [hne, decide_false, if_false] at hstarted htimer
  refine ⟨⟨time, rfl⟩, ⟨?_, h.error, h.event, fun hlt => ?_, fun hlt => ?_, ?_, ?_⟩, ?_⟩
  · rw [goto_pc]
    omega
  · rw [goto_pc] at hlt
    exact h.socket (by omega)
  · rw [goto_pc] at hlt
    exact h.copied (by omega)
  · simpa [hne'] using hstarted
  · simpa [hne'] using htimer
  · rw [goto_pc]
    omega

/-- A healthy step brings the task nearer to its acknowledgement, or sets it. -/
theorem Task.Busy.advance (h : t.Busy s.config) (hs : s.Live) (hok : t.pc.Healthy t res seconds)
    (hn : t.advance s res seconds = some next) :
    t.Nears s next ∨ next.1 = s.setFlag .start ∧ next.2.Polling s.config := by
  have hstarted := h.started
  have htimer := h.timer
  cases hpc : t.pc with
  | create =>
      rw [hpc] at hok hstarted htimer
      have hres : 0 ≤ res := hok
      simp only [Task.advance, hpc] at hn
      cases hn
      rw [if_pos hres]
      refine Or.inl ⟨⟨s.time, rfl⟩, ?_, by simp [hpc, Pc.rank]⟩
      exact ⟨by simp [Pc.rank], h.error, h.event, fun _ => hres, by simp [Pc.rank], hstarted,
        htimer⟩
  | setOpt | connect =>
      have hres : res = 0 := by
        rw [hpc] at hok
        exact hok (h.socket (by rw [hpc]; decide))
      simp only [Task.advance, hpc] at hn
      cases hn
      rw [if_pos hres]
      exact Or.inl (h.goto hpc rfl (by decide) s.time)
  | resolve =>
      rw [hpc] at hok
      have hres : res = 0 := hok
      simp only [Task.advance, hpc] at hn
      cases hn
      rw [if_pos hres]
      exact Or.inl (h.goto hpc rfl (by decide) s.time)
  | configAcquire =>
      have hsocket : 0 ≤ t.socket := h.socket (by rw [hpc]; decide)
      rw [hpc] at hok hstarted htimer
      have hmutex : s.MutexOk res := ⟨hs.mutex, hok⟩
      simp only [Task.advance, hpc] at hn
      cases hn
      rw [if_pos hmutex]
      refine Or.inl ⟨⟨s.time, rfl⟩, ?_, by simp [hpc, Pc.rank]⟩
      exact ⟨by simp [Pc.rank], h.error, h.event, fun _ => hsocket, fun _ => rfl, hstarted,
        htimer⟩
  | configRelease =>
      rw [hpc] at hok
      have hmutex : s.MutexOk res := ⟨hs.mutex, hok⟩
      simp only [Task.advance, hpc] at hn
      cases hn
      rw [if_pos hmutex]
      exact Or.inl (h.goto hpc rfl (by decide) s.time)
  | send =>
      have hres : 0 ≤ res := by
        rw [hpc] at hok
        exact hok (h.socket (by rw [hpc]; decide))
      simp only [Task.advance, hpc] at hn
      cases hn
      rw [if_neg hres.not_gt]
      exact Or.inl (h.goto hpc rfl (by decide) s.time)
  | recv =>
      obtain ⟨hres, hseconds⟩ : res = 48 ∧ time1970 ≤ seconds.toNat := by
        rw [hpc] at hok
        exact hok (h.socket (by rw [hpc]; decide))
      simp only [Task.advance, hpc] at hn
      cases hn
      simp only [recv, hres, hseconds.not_gt]
      exact Or.inl (h.goto hpc rfl (by decide) s.time)
  | timeAcquire time =>
      rw [hpc] at hok
      have hmutex : s.MutexOk res := ⟨hs.mutex, hok⟩
      simp only [Task.advance, hpc] at hn
      cases hn
      rw [if_pos hmutex]
      exact Or.inl (h.goto hpc rfl (by simp [Pc.rank]) time)
  | listeners =>
      simp only [Task.advance, hpc] at hn
      cases hn
      exact Or.inl (h.goto hpc rfl (by decide) s.time)
  | timeRelease =>
      rw [hpc] at hok hstarted
      have hmutex : s.MutexOk res := ⟨hs.mutex, hok⟩
      have hunstarted : t.started = false := hstarted
      simp only [Task.advance, hpc] at hn
      cases hn
      simp only [if_pos hmutex, settle, hunstarted]
      exact Or.inl (h.goto hpc rfl (by decide) s.time)
  | timerStart =>
      have hsocket : 0 ≤ t.socket := h.socket (by rw [hpc]; decide)
      have hconfig : t.config = s.config := h.copied (by rw [hpc]; decide)
      rw [hpc] at hok
      have hres : res = 0 := hok
      simp only [Task.advance, hpc] at hn
      cases hn
      rw [if_pos hres]
      refine Or.inl ⟨⟨s.time, rfl⟩, ?_, by simp [hpc, Pc.rank]⟩
      exact ⟨by simp [Pc.rank], h.error, h.event, fun _ => hsocket, fun _ => hconfig, rfl,
        by rw [← hconfig]; rfl⟩
  | ackStart =>
      have hsocket : 0 ≤ t.socket := h.socket (by rw [hpc]; decide)
      have hevent : t.event ≠ .terminate := by simp [h.event]
      rw [hpc] at hok hstarted htimer
      have hflags : s.FlagsOk res := ⟨hs.eventFlags, hok⟩
      simp only [Task.advance, hpc] at hn
      cases hn
      rw [if_pos hflags]
      refine Or.inr ⟨rfl, ?_⟩
      dsimp only
      rw [finish_of_ok]
      · exact ⟨rfl, h.error, hevent, hsocket, rfl, hstarted, htimer⟩
      · exact h.error
      · exact hevent
  | _ =>
      have hrank := h.rank
      rw [hpc] at hrank
      simp [Pc.rank] at hrank

theorem Task.Busy.awake {config : Config} (h : t.Busy config) :
    ∃ res seconds, t.pc.Healthy t res seconds ∧ t.advance s res seconds ≠ none := by
  have hrank := h.rank
  cases hpc : t.pc with
  | recv =>
      refine ⟨48, BitVec.ofNat 32 time1970, fun _ => ⟨rfl, by decide⟩, ?_⟩
      simp [Task.advance, hpc]
  | create | setOpt | configAcquire | configRelease | resolve | connect | send | timeAcquire time
  | listeners | timeRelease | timerStart | ackStart =>
      refine ⟨0, 0#32, ?_, by simp [Task.advance, hpc]⟩
      simp [Pc.Healthy]
  | _ =>
      rw [hpc] at hrank
      simp [Pc.rank] at hrank

theorem Task.Polling.goto {config : Config} (h : t.Polling config) {pc : Pc}
    (hpc : pc.polling = true) : (t.goto pc).Polling config :=
  ⟨hpc, h.error, h.event, h.socket, h.working, h.started, h.timer⟩

/-- A healthy GET_TIME leaves the task as it was. -/
theorem Task.Polling.advance (h : t.Polling s.config) (hs : s.Live)
    (hok : t.pc.Healthy t res seconds) (hqueue : ∀ event ∈ s.queue, event = .getTime)
    (hn : t.advance s res seconds = some next) :
    next.2.Polling next.1.config ∧ next.1.Live ∧ next.1.flags = s.flags ∧
      ∀ event ∈ next.1.queue, event = .getTime := by
  cases hpc : t.pc with
  | get =>
      rw [hpc] at hok
      simp only [Task.advance, hpc] at hn
      obtain ⟨event, queue, heq, -, -, rfl⟩ | ⟨hfail, rfl⟩ := get_cases hn
      · have hevent : event = .getTime := hqueue event (by simp [heq])
        subst hevent
        have hdispatch : t.dispatch .getTime = { t with event := .getTime }.goto .send := by
          simp [dispatch, h.working]
        dsimp only
        rw [hdispatch]
        refine ⟨⟨rfl, h.error, fun heq => (by cases heq), h.socket, h.working, h.started, h.timer⟩,
          hs.update .., rfl, ?_⟩
        exact fun event hmem => hqueue event (by simp [heq, hmem])
      · exact absurd ⟨hs.eventQueue, hok⟩ hfail
  | send =>
      have hres : 0 ≤ res := by
        rw [hpc] at hok
        exact hok h.socket
      simp only [Task.advance, hpc] at hn
      cases hn
      rw [if_neg hres.not_gt]
      exact ⟨h.goto rfl, hs, rfl, hqueue⟩
  | recv =>
      obtain ⟨hres, hseconds⟩ : res = 48 ∧ time1970 ≤ seconds.toNat := by
        rw [hpc] at hok
        exact hok h.socket
      simp only [Task.advance, hpc] at hn
      cases hn
      simp only [recv, hres, hseconds.not_gt]
      exact ⟨h.goto rfl, hs, rfl, hqueue⟩
  | timeAcquire time =>
      rw [hpc] at hok
      have hmutex : s.MutexOk res := ⟨hs.mutex, hok⟩
      simp only [Task.advance, hpc] at hn
      cases hn
      rw [if_pos hmutex]
      exact ⟨h.goto rfl, hs.update .., rfl, hqueue⟩
  | listeners =>
      simp only [Task.advance, hpc] at hn
      cases hn
      exact ⟨h.goto rfl, hs, rfl, hqueue⟩
  | timeRelease =>
      rw [hpc] at hok
      have hmutex : s.MutexOk res := ⟨hs.mutex, hok⟩
      simp only [Task.advance, hpc] at hn
      cases hn
      rw [if_pos hmutex, settle, if_pos h.started, finish_of_ok]
      · exact ⟨⟨rfl, h.error, h.event, h.socket, rfl, h.started, h.timer⟩, hs, rfl, hqueue⟩
      · exact h.error
      · exact h.event
  | _ =>
      have hpolling := h.pc
      rw [hpc] at hpolling
      cases hpolling

end Task

/-! ## The course of the first START -/

structure Fresh (s : State Unit) : Prop where
  shared : s.shared.Live
  task : s.task.Unused
  flags : s.shared.flags = ∅
  callbacks : s.shared.callbacks = 0

/-- What the call of the START is about while it waits, and what may be in the queue. -/
structure Waiting (s : State Unit) : Prop where
  shared : s.shared.Live
  queue : ∀ event ∈ s.shared.queue, event = .getTime
  op : (s.calls ()).op = .start

inductive Course : State Unit × Option ℕ → Prop
  | fresh {s : State Unit} (h : Fresh s) (hqueue : s.shared.queue = [])
      (hcall : (s.calls ()).pc = .idle ∨ (s.calls ()).pc = .wait ∧ (s.calls ()).op = .stop) :
      Course (s, none)
  | put {s : State Unit} {steps : ℕ} (h : Fresh s) (hqueue : s.shared.queue = [])
      (hpc : (s.calls ()).pc = .put) (hop : (s.calls ()).op = .start)
      (hsteps : steps ≤ s.task.pc.rank) : Course (s, some steps)
  | queued {s : State Unit} {steps : ℕ} (h : Fresh s) (hqueue : s.shared.queue = [.start])
      (hpc : (s.calls ()).pc = .wait) (hop : (s.calls ()).op = .start)
      (hsteps : steps ≤ s.task.pc.rank) : Course (s, some steps)
  | busy {s : State Unit} {steps : ℕ} (h : Waiting s) (htask : s.task.Busy s.shared.config)
      (hflags : s.shared.flags = ∅) (hpc : (s.calls ()).pc = .wait)
      (hsteps : steps ≤ s.task.pc.rank) : Course (s, some steps)
  | acked {s : State Unit} {steps : ℕ} (h : Waiting s) (htask : s.task.Polling s.shared.config)
      (hflags : s.shared.flags = {.start})
      (hpc : (s.calls ()).pc = .wait ∨ (s.calls ()).pc = .clear {.start})
      (hsteps : steps ≤ 14) : Course (s, some steps)
  | after {s : State Unit} (hstarted : s.task.started = true) : Course (s, none)

section Course

variable {s t : State Unit} {x y : State Unit × Option ℕ} {res : ℤ} {seconds : BitVec 32}

/-- `ntp_client_started` stays set. -/
theorem Task.advance_started {s : Shared} {t : Task} {next : Shared × Task}
    (hs : t.advance s res seconds = some next) (h : t.started = true) : next.2.started = true := by
  by_cases hchanges : t.pc.changes = false
  · exact (advance_same hs hchanges).started.trans h
  · cases hpc : t.pc with
    | timerStart =>
        obtain ⟨-, rfl⟩ | rfl := advance_timerStart hs hpc
        · rfl
        · exact (t.fail_same .errTimer).started.trans h
    | startTimerStop | stopTimer | exitTimerDelete =>
        simp only [advance, hpc] at hs
        cases hs
        exact h
    | create | stopClose =>
        simp only [advance, hpc] at hs
        cases hs
        dsimp only
        split
        · exact h
        · exact (fail_same _ _).started.trans h
    | _ =>
        rw [hpc] at hchanges
        exact absurd rfl hchanges

theorem Course.prompt (h : Course x) {steps : ℕ} (hx : x.2 = some steps) : steps ≤ 14 := by
  cases h with
  | fresh | after => cases hx
  | acked h htask hflags hpc hsteps =>
      cases hx
      exact hsteps
  | put h hqueue hpc hop hsteps | queued h hqueue hpc hop hsteps | busy h htask hflags hpc hsteps =>
      cases hx
      exact hsteps.trans (Task.Pc.rank_le _)

/-- A START that waits is not forgotten. -/
theorem Course.awake (h : Course x) (hx : x.2 ≠ none) (hpc : (x.1.calls ()).pc = .wait)
    (hflags : .start ∉ x.1.shared.flags) :
    ∃ res seconds, Healthy x.1 (.task res seconds) ∧ step x.1 (.task res seconds) ≠ none := by
  cases h with
  | fresh | after => exact absurd rfl hx
  | put h hqueue hput => cases hput.symm.trans hpc
  | @queued s _ h hqueue =>
      refine ⟨0, 0#32, ?_, ?_⟩
      · rcases h.task.pc with hpc | hpc <;> simp [Healthy, hpc, Task.Pc.Healthy]
      · rcases h.task.pc with hpc | hpc
        · simp [step, Task.advance, hpc]
        · simp [step, Task.advance, hpc, Task.get, h.shared.eventQueue, hqueue]
  | busy h htask =>
      obtain ⟨res, seconds, hok, hn⟩ := htask.awake
      exact ⟨res, seconds, hok, by simpa [step] using hn⟩
  | acked h htask hstart => simp [hstart] at hflags

/-! ## One step -/

theorem Fresh.advance {next : Shared × Task} (h : Fresh s)
    (hok : s.task.pc.Healthy s.task res seconds)
    (hn : s.task.advance s.shared res seconds = some next) :
    s.task.pc = .timerNew ∧ next = (s.shared, s.task.goto .get) ∨
    s.task.pc = .get ∧ ∃ event queue, s.shared.queue = event :: queue ∧
      next = ({ s.shared with queue := queue, taken := s.shared.taken + 1 },
        s.task.dispatch event) := by
  rcases h.task.pc with hpc | hpc
  · rw [hpc] at hok
    have hres : res = 0 := hok
    simp only [Task.advance, hpc] at hn
    cases hn
    rw [if_pos hres]
    exact Or.inl ⟨hpc, rfl⟩
  · rw [hpc] at hok
    simp only [Task.advance, hpc] at hn
    obtain ⟨event, queue, heq, -, -, rfl⟩ | ⟨hfail, -⟩ := Task.get_cases hn
    · exact Or.inr ⟨hpc, event, queue, heq, rfl⟩
    · exact absurd ⟨h.shared.eventQueue, hok⟩ hfail

theorem Fresh.begin (h : Fresh s) : Fresh { s with task := s.task.goto .get } :=
  ⟨h.shared, ⟨Or.inr rfl, h.task.error, h.task.socket, h.task.started, h.task.timer⟩, h.flags,
    h.callbacks⟩

theorem Fresh.take (h : Fresh s) : (s.task.dispatch .start).Busy s.shared.config := by
  have hdispatch : s.task.dispatch .start = { s.task with event := .start }.goto .create := by
    simp [Task.dispatch, h.task.socket]
  rw [hdispatch]
  exact ⟨le_rfl, h.task.error, rfl, by simp [Task.Pc.rank], by simp [Task.Pc.rank],
    h.task.started, h.task.timer⟩

theorem Course.task {n : Option ℕ} (h : Course (s, n))
    (hok : s.task.pc.Healthy s.task res seconds) (hs : step s (.task res seconds) = some t) :
    Course (t, issued s (.task res seconds) t n) := by
  obtain ⟨next, hn, rfl⟩ := Option.map_eq_some_iff.mp hs
  dsimp only [issued]
  cases h with
  | fresh h hqueue hcall =>
      obtain ⟨-, rfl⟩ | ⟨-, event, queue, heq, rfl⟩ := h.advance hok hn
      · rw [Option.map_none, ite_self]
        exact .fresh h.begin hqueue hcall
      · cases hqueue.symm.trans heq
  | put h hqueue hpc hop hsteps =>
      obtain ⟨hnew, rfl⟩ | ⟨-, event, queue, heq, rfl⟩ := h.advance hok hn
      · rw [if_neg (by simp [h.flags])]
        rw [hnew] at hsteps
        exact .put h.begin hqueue hpc hop (Nat.succ_le_succ hsteps)
      · cases hqueue.symm.trans heq
  | queued h hqueue hpc hop hsteps =>
      have hempty : .start ∉ s.shared.flags := by simp [h.flags]
      obtain ⟨hnew, rfl⟩ | ⟨hget, event, queue, heq, rfl⟩ := h.advance hok hn
      · rw [if_neg hempty]
        rw [hnew] at hsteps
        exact .queued h.begin hqueue hpc hop (Nat.succ_le_succ hsteps)
      · rw [if_neg hempty]
        cases hqueue.symm.trans heq
        rw [hget] at hsteps
        exact .busy ⟨h.shared.update .., by simp, hop⟩ h.take h.flags hpc
          ((Nat.succ_le_succ hsteps).trans h.take.rank)
  | busy h htask hflags hpc hsteps =>
      obtain ⟨⟨time, htime⟩, hbusy, hrank⟩ | ⟨hset, hpolling⟩ := htask.advance h.shared hok hn
      · obtain ⟨shared, task⟩ := next
        subst htime
        rw [if_neg (by simp [hflags])]
        exact .busy ⟨h.shared.update .., h.queue, h.op⟩ hbusy hflags hpc
          (Nat.succ_le_of_lt (hsteps.trans_lt hrank))
      · obtain ⟨shared, task⟩ := next
        subst hset
        rw [if_pos (by simp [Shared.setFlag])]
        exact .acked ⟨h.shared.update .., h.queue, h.op⟩ hpolling
          (by simp [Shared.setFlag, hflags]) (Or.inl hpc) (hsteps.trans (Task.Pc.rank_le _))
  | acked h htask hflags hpc hsteps =>
      obtain ⟨hpolling, hlive, heq, hqueue⟩ := htask.advance h.shared hok h.queue hn
      rw [if_pos (by simp [heq, hflags])]
      exact .acked ⟨hlive, hqueue, h.op⟩ hpolling (heq.trans hflags) hpc hsteps
  | after hstarted =>
      rw [Option.map_none, ite_self]
      exact .after (Task.advance_started hn hstarted)

theorem Course.tick {n : Option ℕ} (h : Course (s, n)) (hs : step s .tick = some t) :
    Course (t, n) := by
  obtain ⟨hrun, hs⟩ := Option.ite_none_right_eq_some.mp hs
  cases hs
  have hnever : s.shared.Live → s.task.timer ≠ none := by
    intro hlive
    simpa [hlive.leaks] using hrun
  cases h with
  | fresh h | put h | queued h => exact absurd h.task.timer (hnever h.shared)
  | busy h htask hflags hpc hsteps =>
      exact .busy ⟨h.shared.update .., h.queue, h.op⟩ htask hflags hpc hsteps
  | acked h htask hflags hpc hsteps =>
      exact .acked ⟨h.shared.update .., h.queue, h.op⟩ htask hflags hpc hsteps
  | after hstarted => exact .after hstarted

theorem Waiting.callback (h : Waiting s) (callbacks : ℕ) : ∃ queue,
    (∀ event ∈ queue, event = .getTime) ∧
    { s.shared with callbacks := callbacks }.ntpTimerCallback =
      { s.shared with callbacks := callbacks, queue := queue } := by
  obtain ⟨events, hevents, hput⟩ :=
    Shared.ntpTimerCallback_eq { s.shared with callbacks := callbacks }
  refine ⟨s.shared.queue ++ events, fun event hmem => ?_, hput⟩
  rcases List.mem_append.mp hmem with hmem | hmem
  · exact h.queue event hmem
  · exact hevents event hmem

theorem Course.timerCallback {n : Option ℕ} (h : Course (s, n))
    (hs : step s .timerCallback = some t) : Course (t, n) := by
  obtain ⟨hpos, hs⟩ := Option.ite_none_right_eq_some.mp hs
  cases hs
  cases h with
  | fresh h | put h | queued h => exact absurd h.callbacks hpos.ne'
  | busy h htask hflags hpc hsteps =>
      obtain ⟨queue, hqueue, heq⟩ := h.callback (s.shared.callbacks - 1)
      rw [heq]
      exact .busy ⟨h.shared.update .., hqueue, h.op⟩ htask hflags hpc hsteps
  | acked h htask hflags hpc hsteps =>
      obtain ⟨queue, hqueue, heq⟩ := h.callback (s.shared.callbacks - 1)
      rw [heq]
      exact .acked ⟨h.shared.update .., hqueue, h.op⟩ htask hflags hpc hsteps
  | after hstarted => exact .after hstarted

theorem Course.stray {n : Option ℕ} {effect : Stray} (h : Course (s, n))
    (hs : step s (.stray effect) = some t) : Course (t, n) := by
  obtain ⟨hpos, hs⟩ := Option.ite_none_right_eq_some.mp hs
  cases hs
  cases h with
  | fresh h | put h | queued h | busy h | acked h => exact absurd h.shared.strays hpos.ne'
  | after hstarted => exact .after hstarted

theorem Course.start {n : Option ℕ} (h : Course (s, n)) (hun : Unstarted s (.call () .start))
    (hs : s.call () .start = some t) : Course (t, issued s (.call () .start) t n) := by
  obtain ⟨hidle, hs⟩ := Option.ite_none_right_eq_some.mp hs
  cases hs
  dsimp only [issued]
  cases h with
  | fresh h hqueue hcall =>
      rw [if_pos h.shared.state]
      have hput : (s.calls ()).iotNtpClientStart s.shared = { s.calls () with
          op := .start
          pc := .put } := by
        simp [Call.iotNtpClientStart, h.shared.state]
      rw [hput]
      exact .put ⟨h.shared, h.task, h.flags, h.callbacks⟩ hqueue (by simp) (by simp) (Nat.zero_le _)
  | after hstarted =>
      rw [if_neg fun hstopped => by simp [hun hstopped] at hstarted]
      exact .after hstarted
  | put h hqueue hpc | queued h hqueue hpc => cases hidle.symm.trans hpc
  | busy h htask hflags hpc => cases hidle.symm.trans hpc
  | acked h htask hflags hpc =>
      rcases hpc with hpc | hpc <;> cases hidle.symm.trans hpc

/-- A STOP is issued, and puts nothing before the first START has returned. -/
theorem Course.stop {n : Option ℕ} (h : Course (s, n)) (hs : s.call () .stop = some t) :
    Course (t, n) := by
  obtain ⟨hidle, hs⟩ := Option.ite_none_right_eq_some.mp hs
  cases hs
  cases h with
  | fresh h hqueue hcall =>
      have hwait : (s.calls ()).iotNtpClientStop s.shared = { s.calls () with
          op := .stop
          pc := .wait } := by
        simp [Call.iotNtpClientStop, h.shared.state]
      rw [hwait]
      exact .fresh ⟨h.shared, h.task, h.flags, h.callbacks⟩ hqueue (Or.inr (by simp))
  | after hstarted => exact .after hstarted
  | put h hqueue hpc | queued h hqueue hpc => cases hidle.symm.trans hpc
  | busy h htask hflags hpc => cases hidle.symm.trans hpc
  | acked h htask hflags hpc =>
      rcases hpc with hpc | hpc <;> cases hidle.symm.trans hpc

theorem Fresh.stop {next : Shared × Call} (h : Fresh s)
    (hcall : (s.calls ()).pc = .idle ∨ (s.calls ()).pc = .wait ∧ (s.calls ()).op = .stop)
    (hn : (s.calls ()).advance s.shared res = some next) :
    next.1 = s.shared ∧ next.2.pc = .idle := by
  rcases hcall with hpc | ⟨hpc, hop⟩
  · simp only [Call.advance, hpc] at hn
    cases hn
  · simp only [Call.advance, hpc, Call.waitForNtpEvent, h.flags] at hn
    rw [if_neg (by simp)] at hn
    obtain ⟨out, hout, rfl⟩ := Option.map_eq_some_iff.mp hn
    obtain ⟨-, hout⟩ := Option.ite_none_right_eq_some.mp hout
    cases hout
    simp only [Call.waited, hop]
    split
    · exact ⟨rfl, rfl⟩
    · exact ⟨by rw [← h.shared.state], rfl⟩

/-- The calls of a STOP that was issued in STOPPED, and of the first START. -/
theorem Course.advance {n : Option ℕ} (h : Course (s, n))
    (hok : (s.calls ()).pc.Healthy s res) (hs : s.call () (.advance res) = some t) :
    Course (t, issued s (.call () (.advance res)) t n) ∧
      (n ≠ none → (t.calls ()).pc = .idle →
        (∃ flags, (s.calls ()).pc = .clear flags ∧ .start ∈ flags) ∧
        (t.calls ()).result = some .ok ∧ t.shared.state = .running ∧
        t.task.timer = some t.shared.config.intervalMs) := by
  obtain ⟨next, hn, rfl⟩ := Option.map_eq_some_iff.mp hs
  dsimp only [issued]
  rw [setCall_calls]
  cases h with
  | fresh h hqueue hcall =>
      refine ⟨?_, fun hne => absurd rfl hne⟩
      rw [ite_self]
      obtain ⟨hsame, hidle⟩ := h.stop hcall hn
      obtain ⟨shared, call⟩ := next
      subst hsame
      exact .fresh ⟨h.shared, h.task, h.flags, h.callbacks⟩ hqueue (Or.inl (by simpa using hidle))
  | put h hqueue hpc hop hsteps =>
      have hroom : s.shared.Room := ⟨h.shared.eventQueue, by simp [hqueue]⟩
      simp only [Call.advance, hpc] at hn
      cases hn
      rw [if_pos hroom]
      have hwait : ((s.calls ()).goto .wait).pc ≠ .idle := by simp [Call.goto]
      refine ⟨?_, fun _ hidle => absurd hidle hwait⟩
      rw [if_neg hwait]
      exact .queued ⟨h.shared.update .., h.task, h.flags, h.callbacks⟩
        (by simp [State.setCall, Shared.push, hqueue, hop, Op.event]) (by simp [Call.goto])
        (by simp [Call.goto, hop]) hsteps
  | queued h hqueue hpc hop hsteps =>
      rw [hpc] at hok
      simp [Call.Pc.Healthy, h.flags, hop, Op.event, hqueue] at hok
  | busy h htask hflags hpc hsteps =>
      rw [hpc] at hok
      have hget : s.task.pc = .get := by
        simp only [Call.Pc.Healthy, hflags, Finset.notMem_empty, false_or] at hok
        exact hok.1
      have hrank := htask.rank
      rw [hget] at hrank
      simp [Task.Pc.rank] at hrank
  | acked h htask hflags hpc hsteps =>
      have hflag : (s.calls ()).op.flag = .start := by rw [h.op]; rfl
      rcases hpc with hpc | hpc
      · have hseen : s.shared.eventFlags = .live ∧
            ((s.calls ()).op.flag ∈ s.shared.flags ∨ .error ∈ s.shared.flags) :=
          ⟨h.shared.eventFlags, by simp [hflags, hflag]⟩
        cases (Call.advance_seen hpc hseen).symm.trans hn
        have hclear : ((s.calls ()).goto (.clear s.shared.flags)).pc ≠ .idle := by
          simp [Call.goto]
        refine ⟨?_, fun _ hidle => absurd hidle hclear⟩
        rw [if_neg hclear]
        exact .acked ⟨h.shared, h.queue, by simp [Call.goto, h.op]⟩ htask hflags
          (Or.inr (by simp [Call.goto, hflags])) hsteps
      · rw [hpc] at hok
        have hclear : s.shared.FlagsOk res := ⟨h.shared.eventFlags, hok⟩
        have hret := Call.advance_alone (hpc.trans (by rw [hflag])) hclear
        simp only [Call.waited, h.op, ne_eq, not_true_eq_false, if_false] at hret
        cases hret.symm.trans hn
        have hidle : ((s.calls ()).ret .ok).pc = .idle := rfl
        refine ⟨?_, fun _ _ => ⟨⟨{.start}, hpc, by simp⟩, rfl, rfl, htask.timer⟩⟩
        rw [if_pos hidle]
        exact .after htask.started
  | after hstarted =>
      refine ⟨?_, fun hne => absurd rfl hne⟩
      rw [ite_self]
      exact .after hstarted

theorem Course.restarts (h : Course x) (h' : Course y)
    (hcall : (x.1.calls ()).pc ≠ .idle → (y.1.calls ()).pc ≠ .idle) : Restarts x y :=
  ⟨h.awake, fun _ => h'.prompt, fun _ hne hidle => absurd hidle (hcall hne)⟩

theorem Course.step {a : Action Unit} (h : Course x) (hok : Healthy x.1 a)
    (hun : Unstarted x.1 a) (hs : Monitor.step step issued x a = some y) :
    Course y ∧ Restarts x y := by
  obtain ⟨s, n⟩ := x
  obtain ⟨t, ht, rfl⟩ := Monitor.step_eq_some.mp hs
  cases a with
  | task res seconds =>
      have hnext := h.task hok ht
      obtain ⟨next, -, rfl⟩ := Option.map_eq_some_iff.mp ht
      exact ⟨hnext, h.restarts hnext id⟩
  | tick =>
      have hnext := h.tick ht
      obtain ⟨-, ht⟩ := Option.ite_none_right_eq_some.mp ht
      cases ht
      exact ⟨hnext, h.restarts hnext id⟩
  | timerCallback =>
      have hnext := h.timerCallback ht
      obtain ⟨-, ht⟩ := Option.ite_none_right_eq_some.mp ht
      cases ht
      exact ⟨hnext, h.restarts hnext id⟩
  | stray effect =>
      have hnext := h.stray ht
      obtain ⟨-, ht⟩ := Option.ite_none_right_eq_some.mp ht
      cases ht
      exact ⟨hnext, h.restarts hnext id⟩
  | call i action =>
      cases action with
      | init config created => exact absurd hok id
      | deinit => exact absurd hok id
      | start =>
          have hnext := h.start hun ht
          obtain ⟨hidle, -⟩ := Option.ite_none_right_eq_some.mp ht
          exact ⟨hnext, h.restarts hnext fun hne => absurd hidle hne⟩
      | stop =>
          have hnext := h.stop ht
          obtain ⟨hidle, -⟩ := Option.ite_none_right_eq_some.mp ht
          exact ⟨hnext, h.restarts hnext fun hne => absurd hidle hne⟩
      | advance res =>
          obtain ⟨hnext, hreturned⟩ := h.advance hok ht
          exact ⟨hnext, h.awake, fun steps => hnext.prompt, fun hne _ => hreturned hne⟩

end Course

/-! ## Runs -/

/-- For every sequence of calls of `iotNtpClientStart` and `iotNtpClientStop` after the
initialization, interleaved with the task and its timer in any order, in a healthy environment:
each START that is issued in STOPPED is acknowledged, and leaves a running client with a
running timer, if each of them finds `ntp_client_started` cleared. -/
theorem restarts_of_unstarted (config : Option Config) (acts : List (Action Unit))
    (hok : Meets (Monitor.step step issued) (fun x => Healthy x.1) (initialised config, none) acts)
    (h : Meets (Monitor.step step issued) (fun x => Unstarted x.1) (initialised config, none)
      acts) :
    Steps (Monitor.step step issued) (fun x _ y => Restarts x y) (initialised config, none)
      acts := by
  apply Steps.of_invariant Course _ _ _ (hok.and h)
  · exact fun x a y hx hok hs => (hx.step hok.1 hok.2 hs).1
  · exact fun x a y hx hok hs => (hx.step hok.1 hok.2 hs).2
  · exact .fresh ⟨⟨rfl, rfl, rfl, rfl, rfl, rfl⟩, ⟨Or.inl rfl, rfl, rfl, rfl, rfl⟩, rfl, rfl⟩ rfl
      (Or.inl rfl)

/-- A STOP without effect, a START and a STOP. -/
def firstCycle : List (Action Unit) :=
  taskBegin ++ [.call () .stop, .call () (.advance (-2))] ++ callStart ++ taskStart ++ callReturn ++
    callStop ++ taskStop ++ callReturn

theorem firstCycle_restarts :
    Steps (Monitor.step step issued) (fun x _ y => Restarts x y) (initialised none, none)
      firstCycle :=
  restarts_of_unstarted none firstCycle (by decide) (by decide)

/-- The client is started again, and the server answers. -/
def secondStart : List (Action Unit) :=
  firstCycle ++ callStart ++ [.task 0 0#32, .task 3 0#32] ++ List.replicate 5 (.task 0 0#32) ++
    taskRequest

theorem secondStart_not_restarts :
    ¬ ∀ config acts,
      Meets (Monitor.step step issued) (fun x => Healthy x.1) (initialised config, none) acts →
      Steps (Monitor.step step issued) (fun x _ y => Restarts x y) (initialised config, none)
        acts := by
  intro h
  have hsteps := h none (secondStart ++ [.call () (.advance (-2))]) (by decide)
  obtain ⟨⟨flags, hpc, -⟩, -⟩ := (hsteps.last rfl rfl).returned (by decide) (by decide) rfl
  cases hpc

end OpenIotSdk.Ntp
