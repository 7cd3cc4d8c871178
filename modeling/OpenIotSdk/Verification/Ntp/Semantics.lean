import OpenIotSdk.Model.Ntp.Client

/-! # The steps of the NTP task

Where the task can go from each of its calls, and which calls change its variables and what
it shares. -/

namespace OpenIotSdk.Ntp

/-- The call at which the task sets a flag. -/
def Flag.pc : Flag → Task.Pc
  | .start => .ackStart
  | .stop => .ackStop
  | .error => .errSet
  | .terminated => .exitFlag

/-- The callback of the timer puts one event, or none where the queue is full. -/
theorem Shared.ntpTimerCallback_eq (s : Shared) : ∃ events : List Event,
    (∀ event ∈ events, event = .getTime) ∧
      s.ntpTimerCallback = { s with queue := s.queue ++ events } := by
  rw [ntpTimerCallback]
  split
  · exact ⟨[.getTime], fun event hmem => List.mem_singleton.mp hmem, rfl⟩
  · exact ⟨[], fun event hmem => absurd hmem List.not_mem_nil, by rw [List.append_nil]⟩

namespace Task

/-- The calls after the event and after the loop, and the one that waits for the next event. -/
def Pc.tail : Pc → Bool
  | .get | .errAcquire | .errRelease | .errSet | .exitClose | .exitTimerDelete | .exitFlag
  | .done => true
  | _ => false

def Pc.leaving : Pc → Bool
  | .exitClose | .exitTimerDelete | .exitFlag | .done => true
  | _ => false

/-- The calls that change the timer, the socket or `ntp_client_started`. -/
def Pc.changes : Pc → Bool
  | .startTimerStop | .create | .timerStart | .stopTimer | .stopClose | .exitTimerDelete => true
  | _ => false

/-- The flow within an event, from one call to the next. -/
def Pc.Flow : Pc → Pc → Prop
  | .get, .startTimerStop | .get, .startClose | .get, .create | .get, .send
  | .get, .stopTimer => True
  | .startTimerStop, .startClose | .startClose, .create | .create, .setOpt
  | .setOpt, .configAcquire | .configAcquire, .configRelease | .configRelease, .resolve
  | .resolve, .connect | .connect, .send => True
  | .send, .recv | .recv, .timeAcquire _ | .timeAcquire _, .listeners
  | .listeners, .timeRelease | .recv, .timerStart | .timeRelease, .timerStart
  | .timerStart, .ackStart => True
  | .stopTimer, .stopClose | .stopClose, .ackStop => True
  | .errAcquire, .errRelease | .errRelease, .errSet => True
  | _, _ => False

structure Same (t t' : Task) : Prop where
  timer : t'.timer = t.timer
  socket : t'.socket = t.socket
  started : t'.started = t.started

/-- The event is done with, and its error is reported if there is one. -/
def Over (t : Task) : Prop :=
  match t.pc with
  | .errAcquire => t.error ≠ .ok
  | .get | .exitClose | .exitTimerDelete | .exitFlag | .done => True
  | _ => False

/-- What a step of the task does to what is shared. -/
inductive Effect (s : Shared) (t : Task) : Shared → Prop
  | none : Effect s t s
  | take {event : Event} {queue : List Event} (hpc : t.pc = .get)
      (hqueue : s.queue = event :: queue) :
      Effect s t { s with queue := queue, taken := s.taken + 1 }
  | retry (hpc : t.pc = .send ∨ t.pc = .recv) : Effect s t s.ntpTimerCallback
  | setTime {time : ℕ} (hpc : t.pc = .timeAcquire time) : Effect s t { s with time := time }
  | setError (hpc : t.pc = .errAcquire) : Effect s t { s with error := t.error }
  | setFlag {flag : Flag} (hpc : t.pc = flag.pc) (hlive : s.eventFlags = .live) :
      Effect s t (s.setFlag flag)

variable {s : Shared} {t : Task} {res : ℤ} {seconds : BitVec 32} {next : Shared × Task}

/-! ## The parts of a step -/

@[simp] theorem goto_pc (t : Task) (pc : Pc) : (t.goto pc).pc = pc := rfl

@[simp] theorem goto_started (t : Task) (pc : Pc) : (t.goto pc).started = t.started := rfl

@[simp] theorem goto_timer (t : Task) (pc : Pc) : (t.goto pc).timer = t.timer := rfl

theorem leave_leaving (t : Task) : t.leave.pc.leaving = true := by
  dsimp only [leave]
  split <;> rfl

theorem Over.tail (h : t.Over) : t.pc.tail = true := by
  rw [Over] at h
  cases hpc : t.pc <;> first | rfl | (rw [hpc] at h; cases h)

theorem over_of_leaving (h : t.pc.leaving = true) : t.Over := by
  rw [Over]
  cases hpc : t.pc <;> first | trivial | (rw [hpc] at h; cases h)

theorem next_over (t : Task) : t.next.Over := by
  dsimp only [Task.next]
  split
  · exact over_of_leaving t.leave_leaving
  · trivial

theorem finish_over (t : Task) : t.finish.Over := by
  dsimp only [finish]
  split
  · next herror => exact herror
  · exact t.next_over

theorem finish_of_ok (herror : t.error = .ok) (hevent : t.event ≠ .terminate) :
    t.finish = t.goto .get := by
  rw [finish, if_neg (not_not_intro herror), Task.next, if_neg hevent]

theorem fail_over (t : Task) (error : Result) : (t.fail error).Over :=
  finish_over _

theorem next_same (t : Task) : t.Same t.next := by
  dsimp only [Task.next]
  split <;> exact ⟨rfl, rfl, rfl⟩

theorem finish_same (t : Task) : t.Same t.finish := by
  dsimp only [finish]
  split
  · exact ⟨rfl, rfl, rfl⟩
  · exact t.next_same

theorem finish_event (t : Task) : t.finish.event = t.event := by
  dsimp only [finish]
  split
  · rfl
  · dsimp only [Task.next]
    split <;> rfl

theorem finish_working (t : Task) : t.finish.working = t.working := by
  dsimp only [finish]
  split
  · rfl
  · dsimp only [Task.next]
    split <;> rfl

theorem fail_same (t : Task) (error : Result) : t.Same (t.fail error) := by
  have h := finish_same { t with error := error }
  exact ⟨h.timer, h.socket, h.started⟩

theorem retry_same (t : Task) (s : Shared) : t.Same (t.retry s).2 := by
  have h := finish_same { t with working := false }
  exact ⟨h.timer, h.socket, h.started⟩

theorem lose_same (t : Task) (s : Shared) (res : ℤ) : t.Same (t.lose s res).2 := by
  dsimp only [lose]
  split
  · exact t.retry_same s
  · have h := fail_same { t with working := false } .errNetwork
    exact ⟨h.timer, h.socket, h.started⟩

theorem settle_same (t : Task) : t.Same t.settle := by
  dsimp only [settle]
  split
  · have h := finish_same { t with working := true }
    exact ⟨h.timer, h.socket, h.started⟩
  · exact ⟨rfl, rfl, rfl⟩

theorem recv_same (t : Task) (s : Shared) (res : ℤ) (seconds : BitVec 32) :
    t.Same (t.recv s res seconds).2 := by
  dsimp only [recv]
  split
  · exact t.lose_same s res
  · split
    · split
      · exact t.retry_same s
      · exact ⟨rfl, rfl, rfl⟩
    · exact t.settle_same

theorem dispatch_same (t : Task) (event : Event) : t.Same (t.dispatch event) := by
  dsimp only [dispatch]
  generalize (if event = .getTime ∧ t.working = false then Event.start else event) = e
  cases e with
  | start => exact ⟨rfl, rfl, rfl⟩
  | getTime => exact ⟨rfl, rfl, rfl⟩
  | stop => exact ⟨rfl, rfl, rfl⟩
  | none =>
      have h := finish_same { t with event := .none }
      exact ⟨h.timer, h.socket, h.started⟩
  | terminate =>
      have h := finish_same { t with event := .terminate }
      exact ⟨h.timer, h.socket, h.started⟩
  | error =>
      have h := finish_same { t with event := .error }
      exact ⟨h.timer, h.socket, h.started⟩

theorem retry_over (t : Task) (s : Shared) : (t.retry s).2.Over :=
  finish_over _

theorem lose_over (t : Task) (s : Shared) (res : ℤ) : (t.lose s res).2.Over := by
  dsimp only [lose]
  split
  · exact t.retry_over s
  · exact fail_over { t with working := false } .errNetwork

theorem settle_flow (t : Task) : t.settle.pc = .timerStart ∨ t.settle.Over := by
  dsimp only [settle]
  split
  · exact Or.inr (finish_over _)
  · exact Or.inl rfl

theorem recv_flow (t : Task) (s : Shared) (res : ℤ) (seconds : BitVec 32) :
    Pc.Flow .recv (t.recv s res seconds).2.pc ∨ (t.recv s res seconds).2.Over := by
  dsimp only [recv]
  split
  · exact Or.inr (t.lose_over s res)
  · split
    · split
      · exact Or.inr (t.retry_over s)
      · exact Or.inl trivial
    · rcases t.settle_flow with h | h
      · rw [h]
        exact Or.inl trivial
      · exact Or.inr h

/-- What the `switch` does with the event. -/
theorem dispatch_flow (t : Task) (event : Event) :
    ((t.dispatch event).event = .start ∧ (t.dispatch event).pc =
      if t.socket ≠ iotSocketEsock then
        if t.started then .startTimerStop else .startClose
      else .create) ∨
    ((t.dispatch event).event = .getTime ∧ (t.dispatch event).pc = .send) ∨
    ((t.dispatch event).event = .stop ∧ (t.dispatch event).pc = .stopTimer) ∨
    (t.dispatch event).Over := by
  dsimp only [dispatch]
  generalize (if event = .getTime ∧ t.working = false then Event.start else event) = e
  cases e with
  | start => exact Or.inl ⟨rfl, rfl⟩
  | getTime => exact Or.inr (Or.inl ⟨rfl, rfl⟩)
  | stop => exact Or.inr (Or.inr (Or.inl ⟨rfl, rfl⟩))
  | none => exact Or.inr (Or.inr (Or.inr (finish_over _)))
  | terminate => exact Or.inr (Or.inr (Or.inr (finish_over _)))
  | error => exact Or.inr (Or.inr (Or.inr (finish_over _)))

theorem get_cases (hs : t.get s res = some next) :
    (∃ event queue, s.queue = event :: queue ∧ s.eventQueue = .live ∧ res = 0 ∧
      next = ({ s with queue := queue, taken := s.taken + 1 }, t.dispatch event)) ∨
    ¬ (s.eventQueue = .live ∧ res = 0) ∧
      next = (s, { t with event := .none }.fail .errEventQueue) := by
  rw [get] at hs
  by_cases hok : s.eventQueue = .live ∧ res = 0
  · rw [if_pos hok] at hs
    cases hqueue : s.queue with
    | nil =>
        rw [hqueue] at hs
        cases hs
    | cons event queue =>
        rw [hqueue] at hs
        cases hs
        exact Or.inl ⟨event, queue, rfl, hok.1, hok.2, rfl⟩
  · rw [if_neg hok] at hs
    cases hs
    exact Or.inr ⟨hok, rfl⟩

theorem get_same (hs : t.get s res = some next) : t.Same next.2 := by
  obtain ⟨event, queue, -, -, -, rfl⟩ | ⟨-, rfl⟩ := get_cases hs
  · exact t.dispatch_same event
  · have h := fail_same { t with event := .none } .errEventQueue
    exact ⟨h.timer, h.socket, h.started⟩

/-! ## One step -/

/-- Only a few calls change the timer, the socket or `ntp_client_started`. -/
theorem advance_same (hs : t.advance s res seconds = some next) (hpc : t.pc.changes = false) :
    t.Same next.2 := by
  dsimp only [advance] at hs
  cases h : t.pc with
  | startTimerStop | create | timerStart | stopTimer | stopClose | exitTimerDelete =>
      rw [h] at hpc
      cases hpc
  | get =>
      rw [h] at hs
      exact get_same hs
  | timerNew | listeners | exitClose =>
      rw [h] at hs
      cases hs
      exact ⟨rfl, rfl, rfl⟩
  | startClose | setOpt | configRelease | resolve | connect =>
      rw [h] at hs
      cases hs
      dsimp only
      split
      · exact ⟨rfl, rfl, rfl⟩
      · exact t.fail_same _
  | configAcquire | timeAcquire time =>
      rw [h] at hs
      cases hs
      by_cases hok : s.MutexOk res
      · simp only [if_pos hok]
        exact ⟨rfl, rfl, rfl⟩
      · simp only [if_neg hok]
        exact t.fail_same _
  | send =>
      rw [h] at hs
      cases hs
      split
      · exact t.lose_same s res
      · exact ⟨rfl, rfl, rfl⟩
  | recv =>
      rw [h] at hs
      cases hs
      exact t.recv_same s res seconds
  | timeRelease =>
      rw [h] at hs
      cases hs
      dsimp only
      split
      · exact t.settle_same
      · exact t.fail_same _
  | ackStart =>
      rw [h] at hs
      cases hs
      split
      · have hfinish := finish_same { t with working := true }
        exact ⟨hfinish.timer, hfinish.socket, hfinish.started⟩
      · exact t.fail_same .errEventFlag
  | ackStop =>
      rw [h] at hs
      cases hs
      split
      · exact t.finish_same
      · exact t.fail_same .errEventFlag
  | errAcquire | errRelease | exitFlag =>
      rw [h] at hs
      cases hs
      split <;> exact ⟨rfl, rfl, rfl⟩
  | errSet =>
      rw [h] at hs
      cases hs
      split
      · exact t.next_same
      · exact ⟨rfl, rfl, rfl⟩
  | done =>
      rw [h] at hs
      cases hs

theorem Pc.Flow.timerStart {pc : Pc} (h : pc.Flow .ackStart) : pc = .timerStart := by
  cases pc <;> first | rfl | cases h

theorem Pc.Flow.stopClose {pc : Pc} (h : pc.Flow .ackStop) : pc = .stopClose := by
  cases pc <;> first | rfl | cases h

theorem Pc.Flow.get {pc : Pc} (h : pc.Flow .stopTimer) : pc = .get := by
  cases pc <;> first | rfl | cases h

/-- An error is reported after the event is done with. -/
theorem Pc.not_flow_errAcquire (pc : Pc) : ¬ pc.Flow .errAcquire := by
  intro h
  cases pc <;> cases h

theorem Pc.Flow.errAcquire {pc : Pc} (h : pc.Flow .errRelease) : pc = .errAcquire := by
  cases pc <;> first | rfl | cases h

theorem Pc.Flow.errRelease {pc : Pc} (h : pc.Flow .errSet) : pc = .errRelease := by
  cases pc <;> first | rfl | cases h

theorem get_flow (hs : t.get s res = some next) :
    Pc.Flow .get next.2.pc ∨ next.2.Over := by
  obtain ⟨event, queue, -, -, -, rfl⟩ | ⟨-, rfl⟩ := get_cases hs
  · rcases t.dispatch_flow event with ⟨-, h⟩ | ⟨-, h⟩ | ⟨-, h⟩ | h
    · left
      rw [h]
      split
      · split <;> trivial
      · trivial
    · exact Or.inl (h ▸ trivial)
    · exact Or.inl (h ▸ trivial)
    · exact Or.inr h
  · exact Or.inr (fail_over { t with event := .none } .errEventQueue)

/-- Only a STOP makes the task stop. -/
theorem get_stopTimer (hs : t.get s res = some next) (hpc : next.2.pc = .stopTimer) :
    next.2.event = .stop := by
  obtain ⟨event, queue, -, -, -, rfl⟩ | ⟨-, rfl⟩ := get_cases hs
  · rcases t.dispatch_flow event with ⟨-, h⟩ | ⟨-, h⟩ | ⟨h, -⟩ | h
    · rw [hpc] at h
      split at h
      · split at h <;> cases h
      · cases h
    · cases hpc.symm.trans h
    · exact h
    · have htail := h.tail
      rw [hpc] at htail
      cases htail
  · have htail := (fail_over { t with event := .none } .errEventQueue).tail
    rw [hpc] at htail
    cases htail

/-- A step follows the flow of the event, or the event is done with. -/
theorem advance_flow (hs : t.advance s res seconds = some next) :
    t.pc.Flow next.2.pc ∨ next.2.Over := by
  dsimp only [advance] at hs
  cases h : t.pc with
  | get =>
      rw [h] at hs
      exact get_flow hs
  | startTimerStop | stopTimer | listeners =>
      rw [h] at hs
      cases hs
      exact Or.inl trivial
  | timerNew =>
      rw [h] at hs
      cases hs
      right
      dsimp only [goto]
      split <;> trivial
  | exitClose | exitTimerDelete =>
      rw [h] at hs
      cases hs
      exact Or.inr trivial
  | startClose | create | setOpt | configRelease | resolve | connect | timerStart | stopClose =>
      rw [h] at hs
      cases hs
      dsimp only
      split
      · exact Or.inl trivial
      · exact Or.inr (fail_over _ _)
  | configAcquire | timeAcquire time =>
      rw [h] at hs
      cases hs
      by_cases hok : s.MutexOk res
      · simp only [if_pos hok]
        exact Or.inl trivial
      · simp only [if_neg hok]
        exact Or.inr (fail_over _ _)
  | send =>
      rw [h] at hs
      cases hs
      split
      · exact Or.inr (t.lose_over s res)
      · exact Or.inl trivial
  | recv =>
      rw [h] at hs
      cases hs
      exact t.recv_flow s res seconds
  | timeRelease =>
      rw [h] at hs
      cases hs
      dsimp only
      split
      · rcases t.settle_flow with h | h
        · rw [h]
          exact Or.inl trivial
        · exact Or.inr h
      · exact Or.inr (fail_over _ _)
  | ackStart | ackStop =>
      rw [h] at hs
      cases hs
      right
      split
      · exact finish_over _
      · exact fail_over t .errEventFlag
  | errAcquire | errRelease =>
      rw [h] at hs
      cases hs
      split
      · exact Or.inl trivial
      · exact Or.inr (over_of_leaving t.leave_leaving)
  | errSet =>
      rw [h] at hs
      cases hs
      right
      split
      · exact t.next_over
      · exact over_of_leaving t.leave_leaving
  | exitFlag =>
      rw [h] at hs
      cases hs
      right
      split <;> trivial
  | done =>
      rw [h] at hs
      cases hs

theorem advance_timerStart (hs : t.advance s res seconds = some next) (hpc : t.pc = .timerStart) :
    (res = 0 ∧ next = (s, { t with
      timer := some t.config.intervalMs, started := true }.goto .ackStart)) ∨
    next = (s, t.fail .errTimer) := by
  simp only [advance, hpc] at hs
  cases hs
  by_cases hres : res = 0
  · rw [if_pos hres]
    exact Or.inl ⟨hres, by rw [hpc]⟩
  · rw [if_neg hres]
    exact Or.inr rfl

/-- A START is acknowledged right after the timer has started. -/
theorem advance_ackStart (hs : t.advance s res seconds = some next)
    (hnext : next.2.pc = .ackStart) : next.2.timer = some t.config.intervalMs := by
  rcases advance_flow hs with hflow | hover
  · rw [hnext] at hflow
    obtain ⟨-, rfl⟩ | rfl := advance_timerStart hs hflow.timerStart
    · rfl
    · have htail := (t.fail_over .errTimer).tail
      rw [hnext] at htail
      cases htail
  · have htail := hover.tail
    rw [hnext] at htail
    cases htail

/-- What a step does to the timer. -/
theorem advance_timer (hs : t.advance s res seconds = some next) :
    next.2.timer = t.timer ∨ next.2.timer = some t.config.intervalMs ∨
      res = 0 ∧ (t.pc = .startTimerStop ∨ t.pc = .stopTimer ∨ t.pc = .exitTimerDelete) := by
  by_cases hchanges : t.pc.changes = false
  · exact Or.inl (advance_same hs hchanges).timer
  · cases hpc : t.pc with
    | startTimerStop | stopTimer | exitTimerDelete =>
        simp only [advance, hpc] at hs
        cases hs
        by_cases hres : res = 0
        · exact Or.inr (Or.inr ⟨hres, by simp⟩)
        · exact Or.inl (if_neg hres)
    | create | stopClose =>
        simp only [advance, hpc] at hs
        cases hs
        left
        dsimp only
        split
        · rfl
        · exact (fail_same _ _).timer
    | timerStart =>
        obtain ⟨-, rfl⟩ | rfl := advance_timerStart hs hpc
        · exact Or.inr (Or.inl rfl)
        · exact Or.inl (t.fail_same .errTimer).timer
    | _ =>
        rw [hpc] at hchanges
        exact absurd rfl hchanges

theorem advance_socket_eq (hs : t.advance s res seconds = some next) (hcreate : t.pc ≠ .create)
    (hclose : t.pc ≠ .stopClose) : next.2.socket = t.socket := by
  by_cases hchanges : t.pc.changes = false
  · exact (advance_same hs hchanges).socket
  · cases h : t.pc with
    | startTimerStop | stopTimer | exitTimerDelete =>
        simp only [advance, h] at hs
        cases hs
        rfl
    | timerStart =>
        obtain ⟨-, rfl⟩ | rfl := advance_timerStart hs h
        · rfl
        · exact (t.fail_same .errTimer).socket
    | stopClose => exact absurd h hclose
    | create => exact absurd h hcreate
    | _ =>
        rw [h] at hchanges
        exact absurd rfl hchanges

/-- What a STOP does with the socket. -/
theorem advance_stopClose (hs : t.advance s res seconds = some next) (hpc : t.pc = .stopClose) :
    (res = 0 ∧ next = (s, { t with socket := iotSocketEsock }.goto .ackStop)) ∨
    (res ≠ 0 ∧ next = (s, t.fail .errNetwork)) := by
  simp only [advance, hpc] at hs
  cases hs
  by_cases hres : res = 0
  · rw [if_pos hres]
    exact Or.inl ⟨hres, by rw [hpc]⟩
  · rw [if_neg hres]
    exact Or.inr ⟨hres, rfl⟩

theorem advance_socket (hs : t.advance s res seconds = some next) (hpc : t.pc ≠ .create) :
    next.2.socket = t.socket ∨ next.2.socket = iotSocketEsock := by
  by_cases hclose : t.pc = .stopClose
  · obtain ⟨-, rfl⟩ | ⟨-, rfl⟩ := advance_stopClose hs hclose
    · exact Or.inr rfl
    · exact Or.inl (t.fail_same _).socket
  · exact Or.inl (advance_socket_eq hs hpc hclose)

/-- A STOP is acknowledged right after the socket is closed. -/
theorem advance_ackStop (hs : t.advance s res seconds = some next)
    (hnext : next.2.pc = .ackStop) : next.2.socket = iotSocketEsock := by
  rcases advance_flow hs with hflow | hover
  · rw [hnext] at hflow
    obtain ⟨-, rfl⟩ | ⟨-, rfl⟩ := advance_stopClose hs hflow.stopClose
    · rfl
    · have htail := (t.fail_over .errNetwork).tail
      rw [hnext] at htail
      cases htail
  · have htail := hover.tail
    rw [hnext] at htail
    cases htail

/-- Only an event of the queue makes the task stop. -/
theorem advance_ne_stopTimer (hs : t.advance s res seconds = some next) (hpc : t.pc ≠ .get) :
    next.2.pc ≠ .stopTimer := by
  intro hnext
  rcases advance_flow hs with hflow | hover
  · rw [hnext] at hflow
    exact hpc hflow.get
  · have htail := hover.tail
    rw [hnext] at htail
    cases htail

/-- A task that has left its loop does not come back. -/
theorem advance_leaving (hs : t.advance s res seconds = some next)
    (hpc : t.pc.leaving = true) : next.2.pc.leaving = true := by
  dsimp only [advance] at hs
  cases h : t.pc with
  | exitClose | exitTimerDelete =>
      rw [h] at hs
      cases hs
      rfl
  | exitFlag =>
      rw [h] at hs
      cases hs
      split <;> rfl
  | done =>
      rw [h] at hs
      cases hs
  | _ =>
      rw [h] at hpc
      cases hpc

theorem lose_effect (t : Task) (s : Shared) (res : ℤ) (hpc : t.pc = .send ∨ t.pc = .recv) :
    t.Effect s (t.lose s res).1 := by
  dsimp only [lose]
  split
  · exact .retry hpc
  · exact .none

/-- What a step does to what is shared depends on the call. -/
theorem advance_effect (hs : t.advance s res seconds = some next) : t.Effect s next.1 := by
  dsimp only [advance] at hs
  cases hpc : t.pc with
  | get =>
      rw [hpc] at hs
      obtain ⟨event, queue, hqueue, -, -, rfl⟩ | ⟨-, rfl⟩ := get_cases hs
      · exact .take hpc hqueue
      · exact .none
  | send =>
      rw [hpc] at hs
      cases hs
      split
      · exact t.lose_effect s res (Or.inl hpc)
      · exact .none
  | recv =>
      rw [hpc] at hs
      cases hs
      dsimp only [recv]
      split
      · exact t.lose_effect s res (Or.inr hpc)
      · split
        · split
          · exact .retry (Or.inr hpc)
          · exact .none
        · exact .none
  | timeAcquire time =>
      rw [hpc] at hs
      cases hs
      split
      · exact .setTime hpc
      · exact .none
  | errAcquire =>
      rw [hpc] at hs
      cases hs
      split
      · exact .setError hpc
      · exact .none
  | ackStart | ackStop | errSet | exitFlag =>
      rw [hpc] at hs
      cases hs
      split
      · next hok => exact .setFlag hpc hok.1
      · exact .none
  | done =>
      rw [hpc] at hs
      cases hs
  | _ =>
      rw [hpc] at hs
      cases hs
      exact .none

theorem advance_taken (hs : t.advance s res seconds = some next) (hpc : t.pc ≠ .get) :
    next.1.taken = s.taken := by
  obtain ⟨s', t'⟩ := next
  have heffect : t.Effect s s' := advance_effect hs
  cases heffect with
  | take hget hqueue => exact absurd hget hpc
  | retry hretry =>
      obtain ⟨events, -, hput⟩ := s.ntpTimerCallback_eq
      rw [hput]
  | none | setTime htime | setError herr | setFlag hflag hlive => rfl

/-- The task ends with the flag for it. -/
theorem exitFlag_ends (hpc : t.pc = .exitFlag) (hs : t.advance s res seconds = some next) :
    next.2.pc = .done := by
  simp only [advance, hpc] at hs
  cases hs
  split <;> rfl

end Task

/-! ## The events -/

/-- The number of the next event that is put. -/
def Shared.next (s : Shared) : ℕ := s.taken + s.queue.length

variable {ι : Type*} {s t : State ι}

/-- The event that the task takes when its wait for one ends so. -/
def State.takes (s : State ι) (res : ℤ) : Option Event :=
  if s.task.pc = .get ∧ s.shared.eventQueue = .live ∧ res = 0 then s.shared.queue.head? else none

theorem takes_of_ne (hpc : s.task.pc ≠ .get) (res : ℤ) : s.takes res = none :=
  if_neg fun htake => hpc htake.1

/-- The wait for an event gives one, or fails. -/
theorem get_takes {res : ℤ} {next : Shared × Task} (hpc : s.task.pc = .get)
    (hs : s.task.get s.shared res = some next) :
    (∃ event queue, s.takes res = some event ∧ s.shared.queue = event :: queue ∧
      next = ({ s.shared with queue := queue, taken := s.shared.taken + 1 },
        s.task.dispatch event)) ∨
    s.takes res = none ∧ next = (s.shared, { s.task with event := .none }.fail .errEventQueue) := by
  obtain ⟨event, queue, hqueue, hlive, hres, rfl⟩ | ⟨hfail, rfl⟩ := Task.get_cases hs
  · refine Or.inl ⟨event, queue, ?_, hqueue, rfl⟩
    rw [State.takes, if_pos ⟨hpc, hlive, hres⟩, hqueue]
    rfl
  · exact Or.inr ⟨if_neg fun htake => hfail htake.2, rfl⟩

variable [DecidableEq ι]

/-! ## The environment -/

/-- A call leaves the task alone, unless it creates another one. -/
theorem call_task {i : ι} {action : CallAction} (hs : s.call i action = some t) :
    t.task = s.task ∨ t.task = Task.init := by
  dsimp only [State.call] at hs
  cases action with
  | init config created =>
      obtain ⟨-, hs⟩ := Option.ite_none_right_eq_some.mp hs
      cases hs
      dsimp only [State.iotNtpClientInit]
      split
      · exact Or.inr rfl
      · exact Or.inl rfl
  | start | stop | deinit =>
      obtain ⟨-, hs⟩ := Option.ite_none_right_eq_some.mp hs
      cases hs
      exact Or.inl rfl
  | advance res =>
      obtain ⟨next, -, rfl⟩ := Option.map_eq_some_iff.mp hs
      exact Or.inl rfl

theorem step_other {a : Action ι} (hs : step s a = some t)
    (ha : ∀ res seconds, a ≠ .task res seconds) : t.task = s.task ∨ t.task = Task.init := by
  cases a with
  | task res seconds => exact absurd rfl (ha res seconds)
  | tick | timerCallback | stray effect =>
      obtain ⟨-, hs⟩ := Option.ite_none_right_eq_some.mp hs
      cases hs
      exact Or.inl rfl
  | call i action => exact call_task hs

/-! ## Parts of runs -/

def initialise : Action Unit := .call () (.init none ⟨true, true, true, true⟩)

def callStart : List (Action Unit) := [.call () .start, .call () (.advance 0)]

def callStop : List (Action Unit) := [.call () .stop, .call () (.advance 0)]

def callReturn : List (Action Unit) := [.call () (.advance 0), .call () (.advance 0)]

def taskBegin : List (Action Unit) := [.task 0 0#32]

/-- A request and its reply, up to the release of the mutex. -/
def taskRequest : List (Action Unit) :=
  [.task 48 0#32, .task 48 3900000000#32, .task 0 0#32, .task 0 0#32, .task 0 0#32]

/-- The task takes a START without a socket, and acknowledges it. -/
def taskStart : List (Action Unit) :=
  .task 0 0#32 :: .task 3 0#32 :: List.replicate 5 (.task 0 0#32) ++ taskRequest ++
    [.task 0 0#32, .task 0 0#32]

/-- The task takes a START with a socket and a timer. -/
def taskRestart : List (Action Unit) :=
  List.replicate 3 (.task 0 0#32) ++ .task 4 0#32 :: List.replicate 5 (.task 0 0#32) ++
    taskRequest

def taskStop : List (Action Unit) := List.replicate 4 (.task 0 0#32)

/-- The client is started, stopped and deinitialised. -/
def lifecycle : List (Action Unit) :=
  initialise :: callStart ++ taskBegin ++ taskStart ++ callReturn ++ callStop ++ taskStop ++
    callReturn ++ [.call () .deinit, .call () (.advance 0)] ++ List.replicate 3 (.task 0 0#32) ++
    callReturn ++ List.replicate 3 (.call () (.advance 0))

end OpenIotSdk.Ntp
