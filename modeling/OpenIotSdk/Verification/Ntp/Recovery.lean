import OpenIotSdk.Library.Transition
import OpenIotSdk.Model.Ntp.Worker
import OpenIotSdk.Verification.Ntp.Semantics

/-! # Recovery of the NTP task

The variable `socket` of the task, the socket that it holds, and what a START makes of them
after an earlier one has failed. -/

namespace OpenIotSdk.Ntp

open Transition

namespace Task

/-- The calls at which the variable `socket` will be read before it is written. -/
def Pc.reads : Pc → Bool
  | .create | .exitTimerDelete | .exitFlag | .done => false
  | _ => true

def Pc.closes : Pc → Bool
  | .startClose | .stopClose | .exitClose => true
  | _ => false

def Pc.needs : Pc → Bool
  | .startTimerStop | .startClose | .setOpt | .configAcquire | .configRelease | .resolve
  | .connect | .exitClose => true
  | _ => false

/-- How many calls there are from an event that starts the client to the request. -/
def Pc.distance : Pc → ℕ
  | .get => 9
  | .startTimerStop => 8
  | .startClose => 7
  | .create => 6
  | .setOpt => 5
  | .configAcquire => 4
  | .configRelease => 3
  | .resolve => 2
  | .connect => 1
  | _ => 0

/-- The variable is set where the task needs a socket. -/
def Secured (t : Task) : Prop := t.pc.needs = true → t.socket ≠ iotSocketEsock

section

variable {s : Shared} {t : Task} {res : ℤ} {seconds : BitVec 32} {next : Shared × Task}

theorem secured_of_not (h : t.pc.needs = false) : t.Secured :=
  fun hneeds => by cases hneeds.symm.trans h

theorem leave_secured (t : Task) : t.leave.Secured := by
  dsimp only [leave]
  split
  · next hsocket => exact fun _ => hsocket
  · exact secured_of_not rfl

theorem next_secured (t : Task) : t.next.Secured := by
  dsimp only [Task.next]
  split
  · exact t.leave_secured
  · exact secured_of_not rfl

theorem finish_secured (t : Task) : t.finish.Secured := by
  dsimp only [finish]
  split
  · exact secured_of_not rfl
  · exact t.next_secured

theorem fail_secured (t : Task) (error : Result) : (t.fail error).Secured :=
  finish_secured _

theorem lose_secured (t : Task) (s : Shared) (res : ℤ) : (t.lose s res).2.Secured := by
  dsimp only [lose]
  split
  · exact finish_secured _
  · exact fail_secured { t with working := false } .errNetwork

theorem settle_secured (t : Task) : t.settle.Secured := by
  dsimp only [settle]
  split
  · exact finish_secured _
  · exact secured_of_not rfl

theorem recv_secured (t : Task) (s : Shared) (res : ℤ) (seconds : BitVec 32) :
    (t.recv s res seconds).2.Secured := by
  dsimp only [recv]
  split
  · exact t.lose_secured s res
  · split
    · split
      · exact finish_secured _
      · exact secured_of_not rfl
    · exact t.settle_secured

theorem dispatch_secured (t : Task) (event : Event) : (t.dispatch event).Secured := by
  dsimp only [dispatch]
  generalize (if event = .getTime ∧ t.working = false then Event.start else event) = e
  cases e with
  | start =>
      intro hneeds
      dsimp only [goto] at hneeds
      split at hneeds
      · next hsocket => exact hsocket
      · cases hneeds
  | getTime | stop => exact secured_of_not rfl
  | none | terminate | error => exact finish_secured _

theorem get_secured (hs : t.get s res = some next) : next.2.Secured := by
  obtain ⟨event, queue, -, -, -, rfl⟩ | ⟨-, rfl⟩ := get_cases hs
  · exact t.dispatch_secured event
  · exact fail_secured { t with event := .none } .errEventQueue

theorem advance_secured (h : t.Secured) (hs : t.advance s res seconds = some next) :
    next.2.Secured := by
  dsimp only [advance] at hs
  cases hpc : t.pc with
  | get =>
      rw [hpc] at hs
      exact get_secured hs
  | timerNew =>
      rw [hpc] at hs
      cases hs
      apply secured_of_not
      dsimp only [goto]
      split <;> rfl
  | startTimerStop =>
      rw [hpc] at hs
      cases hs
      exact fun _ => h (by rw [hpc]; rfl)
  | create =>
      rw [hpc] at hs
      cases hs
      dsimp only
      split
      · next hres =>
          intro _ hsocket
          exact absurd (hsocket ▸ hres : (0 : ℤ) ≤ iotSocketEsock) (by decide)
      · exact fail_secured _ _
  | setOpt | configRelease | resolve =>
      rw [hpc] at hs
      cases hs
      dsimp only
      split
      · exact fun _ => h (by rw [hpc]; rfl)
      · exact t.fail_secured _
  | configAcquire =>
      rw [hpc] at hs
      cases hs
      by_cases hok : s.MutexOk res
      · simp only [if_pos hok]
        exact fun _ => h (by rw [hpc]; rfl)
      · simp only [if_neg hok]
        exact t.fail_secured _
  | startClose | connect | timerStart | stopClose =>
      rw [hpc] at hs
      cases hs
      dsimp only
      split
      · exact secured_of_not rfl
      · exact t.fail_secured _
  | timeAcquire time =>
      rw [hpc] at hs
      cases hs
      split
      · exact secured_of_not rfl
      · exact t.fail_secured _
  | send =>
      rw [hpc] at hs
      cases hs
      split
      · exact t.lose_secured s res
      · exact secured_of_not rfl
  | recv =>
      rw [hpc] at hs
      cases hs
      exact t.recv_secured s res seconds
  | timeRelease =>
      rw [hpc] at hs
      cases hs
      dsimp only
      split
      · exact t.settle_secured
      · exact t.fail_secured _
  | ackStart | ackStop =>
      rw [hpc] at hs
      cases hs
      split
      · exact finish_secured _
      · exact t.fail_secured .errEventFlag
  | errAcquire | errRelease =>
      rw [hpc] at hs
      cases hs
      split
      · exact secured_of_not rfl
      · exact t.leave_secured
  | errSet =>
      rw [hpc] at hs
      cases hs
      split
      · exact t.next_secured
      · exact t.leave_secured
  | listeners | stopTimer | exitClose | exitTimerDelete =>
      rw [hpc] at hs
      cases hs
      exact secured_of_not rfl
  | exitFlag =>
      rw [hpc] at hs
      cases hs
      split <;> exact secured_of_not rfl
  | done =>
      rw [hpc] at hs
      cases hs

theorem advance_create (hs : t.advance s res seconds = some next) (hnext : next.2.pc = .create) :
    t.pc = .get ∧ t.socket = iotSocketEsock ∨ t.pc = .startClose ∧ res = 0 := by
  rcases advance_flow hs with hflow | hover
  · rw [hnext] at hflow
    cases hpc : t.pc with
    | get =>
        simp only [advance, hpc] at hs
        obtain ⟨event, queue, -, -, -, rfl⟩ | ⟨-, rfl⟩ := get_cases hs
        · rcases t.dispatch_flow event with ⟨-, h⟩ | ⟨-, h⟩ | ⟨-, h⟩ | h
          · refine Or.inl ⟨rfl, ?_⟩
            by_contra hsocket
            rw [if_pos hsocket, hnext] at h
            split at h <;> cases h
          · cases hnext.symm.trans h
          · cases hnext.symm.trans h
          · have htail := h.tail
            rw [hnext] at htail
            cases htail
        · have htail := (fail_over { t with event := .none } .errEventQueue).tail
          rw [hnext] at htail
          cases htail
    | startClose =>
        simp only [advance, hpc] at hs
        cases hs
        dsimp only at hnext
        split at hnext
        · next hres => exact Or.inr ⟨rfl, hres⟩
        · have htail := (t.fail_over .errNetwork).tail
          rw [hnext] at htail
          cases htail
    | _ =>
        rw [hpc] at hflow
        cases hflow
  · have htail := hover.tail
    rw [hnext] at htail
    cases htail

/-- What the `switch` does with an event that starts the client. -/
theorem dispatch_starting {event : Event} (h : (t.dispatch event).event = .start) :
    (t.dispatch event).pc =
      if t.socket ≠ iotSocketEsock then
        if t.started then .startTimerStop else .startClose
      else .create := by
  dsimp only [dispatch] at h ⊢
  generalize (if event = .getTime ∧ t.working = false then Event.start else event) = e at h ⊢
  cases e with
  | start => rfl
  | getTime | stop => cases h
  | none | terminate | error => cases (finish_event _).symm.trans h

/-- A call on the way to the request, at most `n` calls before it. -/
def Pc.Near (n : ℕ) (pc : Pc) : Prop := pc ≠ .get ∧ 0 < pc.distance ∧ pc.distance < n

instance (n : ℕ) (pc : Pc) : Decidable (pc.Near n) := inferInstanceAs (Decidable (_ ∧ _))

theorem goto_near {n : ℕ} {pc : Pc} (h : pc.Near n) : (t.goto pc).pc.Near n := h

theorem get_near (hs : t.advance s 0 seconds = some next) (hpc : t.pc = .get)
    (hlive : s.eventQueue = .live) {event : Event} {queue : List Event}
    (hqueue : s.queue = event :: queue) (hstart : (t.dispatch event).event = .start) :
    next.1.mutex = s.mutex ∧ next.1.eventQueue = s.eventQueue ∧ next.2.pc.Near t.pc.distance := by
  simp only [advance, hpc] at hs
  obtain ⟨event', queue', heq, -, -, rfl⟩ | ⟨hfail, -⟩ := get_cases hs
  · cases hqueue.symm.trans heq
    refine ⟨rfl, rfl, ?_⟩
    rw [dispatch_starting hstart, hpc]
    split
    · split
      · decide
      · decide
    · decide
  · exact absurd ⟨hlive, rfl⟩ hfail

/-- A call that succeeds brings it nearer, and leaves what is shared alone. -/
theorem advance_near (hs : t.advance s res seconds = some next) (hmutex : s.mutex = .live)
    (hdistance : 0 < t.pc.distance) (hget : t.pc ≠ .get) (hcreate : t.pc = .create → 0 ≤ res)
    (hres : t.pc ≠ .create → res = 0) :
    next.1 = s ∧ (next.2.pc = .send ∨ next.2.pc.Near t.pc.distance) := by
  have hok : t.pc ≠ .create → s.MutexOk res := fun hpc => ⟨hmutex, hres hpc⟩
  cases hpc : t.pc with
  | startTimerStop =>
      simp only [advance, hpc] at hs
      cases hs
      exact ⟨rfl, Or.inr (goto_near (by decide))⟩
  | create =>
      simp only [advance, hpc, if_pos (hcreate hpc)] at hs
      cases hs
      exact ⟨rfl, Or.inr (goto_near (by decide))⟩
  | startClose | setOpt | resolve =>
      simp only [advance, hpc, if_pos (hres (by simp [hpc]))] at hs
      cases hs
      exact ⟨rfl, Or.inr (goto_near (by decide))⟩
  | configAcquire | configRelease =>
      simp only [advance, hpc, if_pos (hok (by simp [hpc]))] at hs
      cases hs
      exact ⟨rfl, Or.inr (goto_near (by decide))⟩
  | connect =>
      simp only [advance, hpc, if_pos (hres (by simp [hpc]))] at hs
      cases hs
      exact ⟨rfl, Or.inl rfl⟩
  | get => exact absurd hpc hget
  | _ =>
      rw [hpc] at hdistance
      cases hdistance

end

end Task

namespace Worker

/-- Every call up to the request succeeds, and the others leave the mutex and the events alone. -/
def Healthy (w : Worker) : Action → Prop
  | .task res _ => if w.task.pc = .create then 0 ≤ w.stack.created res else res = 0
  | .others shared _ =>
      shared.mutex = .live ∧ shared.eventQueue = .live ∧ w.shared.queue <+: shared.queue

def Action.isTask : Action → Bool
  | .task _ _ => true
  | .others _ _ => false

/-- An event that starts the client, taken in a healthy environment, takes the task to the
request within 9 steps of its own. -/
def Recovers (w : Worker) : Prop :=
  ∀ event queue, w.task.pc = .get → w.shared.mutex = .live → w.shared.eventQueue = .live →
    w.shared.queue = event :: queue → (w.task.dispatch event).event = .start →
    ∀ acts v, Meets step Healthy w acts → run step w acts = some v →
      (∃ front u, front <+: acts ∧ run step w front = some u ∧ u.task.pc = .send) ∨
      (acts.countP Action.isTask < 9 ∧
        ∀ res seconds, Healthy v (.task res seconds) → step v (.task res seconds) ≠ none)

structure Recovered (w : Worker) (a : Action) (v : Worker) : Prop where
  closes : a.isTask = true → w.task.pc.closes = true →
    w.held = some w.task.socket ∧ w.stack.isOpen w.task.socket = true
  forgets : v.task.pc.reads = true → v.held = none → v.task.socket = iotSocketEsock
  recovers : v.Recovers

/-- A creation fails only with `IOT_SOCKET_ESOCK`, and a STOP finds a socket. -/
structure Recoverable (w : Worker) (a : Action) : Prop where
  creation : ∀ res seconds, a = .task res seconds → w.task.pc = .create → w.answer res < 0 →
    w.answer res = iotSocketEsock
  stop : a.isTask = true → w.task.pc = .stopClose → w.task.socket ≠ iotSocketEsock

/-! ## The invariant -/

structure Sound (w : Worker) : Prop where
  held : w.task.pc.reads = true →
    w.held = if w.task.socket = iotSocketEsock then none else some w.task.socket
  created : w.task.pc = .create → w.held = none
  isOpen : ∀ id ∈ w.held, w.stack.isOpen id = true
  secured : w.task.Secured

variable {w v : Worker} {res : ℤ} {seconds : BitVec 32} {next : Shared × Task}

theorem sound_new (shared : Shared) (stack : Stack) : (new shared stack).Sound :=
  ⟨fun _ => rfl, nofun, nofun, Task.secured_of_not rfl⟩

theorem Sound.holding (h : w.Sound) (hreads : w.task.pc.reads = true)
    (hsocket : w.task.socket ≠ iotSocketEsock) :
    w.held = some w.task.socket ∧ w.stack.isOpen w.task.socket = true := by
  have hheld : w.held = some w.task.socket := by rw [h.held hreads, if_neg hsocket]
  exact ⟨hheld, h.isOpen _ hheld⟩

/-- It is the one that it closes, unless a STOP finds none. -/
theorem Sound.closes (h : w.Sound) (hcloses : w.task.pc.closes = true)
    (hstop : w.task.pc = .stopClose → w.task.socket ≠ iotSocketEsock) :
    w.held = some w.task.socket ∧ w.stack.isOpen w.task.socket = true := by
  cases hpc : w.task.pc with
  | startClose | exitClose =>
      exact h.holding (by rw [hpc]; rfl) (h.secured (by rw [hpc]; rfl))
  | stopClose => exact h.holding (by rw [hpc]; rfl) (hstop hpc)
  | _ =>
      rw [hpc] at hcloses
      cases hcloses

theorem Sound.holds (h : w.Sound) (res : ℤ) :
    ∀ id ∈ w.holds res, (w.sockets res).isOpen id = true := by
  intro id hid
  dsimp only [Worker.holds] at hid
  dsimp only [sockets]
  cases hpc : w.task.pc with
  | create =>
      rw [hpc] at hid
      dsimp only at hid ⊢
      have hanswer : w.answer res = w.stack.created res := by rw [answer, hpc]
      rw [hanswer] at hid
      rw [Stack.iotSocketCreate]
      split at hid
      · next hres =>
          cases hid
          rw [if_neg hres.not_gt]
          exact Function.update_self ..
      · next hres =>
          rw [if_pos (not_le.mp hres)]
          exact h.isOpen id hid
  | startClose | stopClose | exitClose =>
      rw [hpc] at hid
      dsimp only at hid ⊢
      have hanswer : w.answer res = w.stack.answer w.task.socket res := by rw [answer, hpc]
      rw [hanswer] at hid
      rw [Stack.iotSocketClose]
      split at hid
      · cases hid
      · next hother =>
          have hopen := h.isOpen id hid
          split
          · next hres =>
              have hne : id ≠ w.task.socket := by
                rintro rfl
                exact hother ⟨hres, hid⟩
              exact (Function.update_of_ne hne ..).trans hopen
          · exact hopen
  | connect =>
      rw [hpc] at hid
      dsimp only at hid ⊢
      rw [Stack.iotSocketConnect]
      split <;> exact h.isOpen id hid
  | _ =>
      rw [hpc] at hid
      exact h.isOpen id hid

theorem holds_of_ne (hcreate : w.task.pc ≠ .create) (hcloses : w.task.pc.closes = false) (res : ℤ) :
    w.holds res = w.held := by
  dsimp only [Worker.holds]
  cases hpc : w.task.pc with
  | create => exact absurd hpc hcreate
  | startClose | stopClose | exitClose =>
      rw [hpc] at hcloses
      cases hcloses
  | _ => rfl

theorem Sound.holds_close (h : w.Sound) (hcloses : w.task.pc.closes = true)
    (hstop : w.task.pc = .stopClose → w.task.socket ≠ iotSocketEsock) (res : ℤ) :
    w.holds res = if w.answer res = 0 then none else w.held := by
  have hheld := (h.closes hcloses hstop).1
  dsimp only [Worker.holds]
  cases hpc : w.task.pc with
  | startClose | stopClose | exitClose => simp only [hheld, and_true]
  | _ =>
      rw [hpc] at hcloses
      cases hcloses

/-- Where the variable is not read any more, it is not read after the next step either, unless
that creates a socket. -/
theorem reads_of_advance {s : Shared} {t : Task} (hs : t.advance s res seconds = some next)
    (hcreate : t.pc ≠ .create) (hreads : next.2.pc.reads = true) : t.pc.reads = true := by
  cases hpc : t.pc with
  | create => exact absurd hpc hcreate
  | exitTimerDelete =>
      simp only [Task.advance, hpc] at hs
      cases hs
      cases hreads
  | exitFlag =>
      rw [Task.exitFlag_ends hpc hs] at hreads
      cases hreads
  | done =>
      simp only [Task.advance, hpc] at hs
      cases hs
  | _ => rfl

/-- The variable and the socket agree after a step of the task, if a creation that fails says
`IOT_SOCKET_ESOCK`. -/
theorem Sound.agrees (h : w.Sound)
    (hn : w.task.advance w.shared (w.answer res) seconds = some next)
    (hcreation : w.task.pc = .create → w.answer res < 0 → w.answer res = iotSocketEsock)
    (hstop : w.task.pc = .stopClose → w.task.socket ≠ iotSocketEsock)
    (hreads : next.2.pc.reads = true) :
    w.holds res = if next.2.socket = iotSocketEsock then none else some next.2.socket := by
  by_cases hcreate : w.task.pc = .create
  · have hsocket : next.2.socket = w.answer res := by
      simp only [Task.advance, hcreate] at hn
      cases hn
      dsimp only
      split
      · rfl
      · exact (Task.fail_same _ _).socket
    rw [hsocket, Worker.holds, hcreate]
    dsimp only
    rcases lt_or_ge (w.answer res) 0 with hres | hres
    · rw [if_neg hres.not_ge, if_pos (hcreation hcreate hres)]
      exact h.created hcreate
    · have hne : w.answer res ≠ iotSocketEsock := by
        intro heq
        exact absurd (heq ▸ hres : (0 : ℤ) ≤ iotSocketEsock) (by decide)
      rw [if_pos hres, if_neg hne]
  · have hheld := h.held (reads_of_advance hn hcreate hreads)
    cases hcloses : w.task.pc.closes with
    | false =>
        have hne : w.task.pc ≠ .stopClose := by
          intro hpc
          rw [hpc] at hcloses
          cases hcloses
        rw [holds_of_ne hcreate hcloses, Task.advance_socket_eq hn hcreate hne, hheld]
    | true =>
        rw [h.holds_close hcloses hstop]
        cases hpc : w.task.pc with
        | startClose =>
            simp only [Task.advance, hpc] at hn
            cases hn
            dsimp only at hreads ⊢
            by_cases hres : w.answer res = 0
            · rw [if_pos hres] at hreads
              cases hreads
            · rw [if_neg hres, if_neg hres, (Task.fail_same _ _).socket, hheld]
        | stopClose =>
            obtain ⟨hres, rfl⟩ | ⟨hres, rfl⟩ := Task.advance_stopClose hn hpc
            · rw [if_pos hres]
              rfl
            · rw [if_neg hres, (Task.fail_same _ _).socket, hheld]
        | exitClose =>
            simp only [Task.advance, hpc] at hn
            cases hn
            cases hreads
        | _ =>
            rw [hpc] at hcloses
            cases hcloses

theorem Sound.task (h : w.Sound)
    (hn : w.task.advance w.shared (w.answer res) seconds = some next)
    (hcreation : w.task.pc = .create → w.answer res < 0 → w.answer res = iotSocketEsock)
    (hstop : w.task.pc = .stopClose → w.task.socket ≠ iotSocketEsock)
    (hs : step w (.task res seconds) = some v) : v.Sound := by
  rw [step, hn] at hs
  cases hs
  refine ⟨h.agrees hn hcreation hstop, fun hcreate => ?_, h.holds res,
    Task.advance_secured h.secured hn⟩
  obtain ⟨hpc, hsocket⟩ | ⟨hpc, hres⟩ := Task.advance_create hn hcreate
  · have hheld := h.held (by rw [hpc]; rfl)
    rw [if_pos hsocket] at hheld
    exact (holds_of_ne (by rw [hpc]; nofun) (by rw [hpc]; rfl) res).trans hheld
  · have hclose := h.holds_close (by rw [hpc]; rfl) (by rw [hpc]; nofun) res
    rwa [if_pos hres] at hclose

theorem Sound.others {shared : Shared} {stack : Stack} (h : w.Sound)
    (hs : step w (.others shared stack) = some v) : v.Sound := by
  obtain ⟨hkeeps, hs⟩ := Option.ite_none_right_eq_some.mp hs
  cases hs
  exact ⟨h.held, h.created, hkeeps, h.secured⟩

theorem Sound.step {a : Action} (h : w.Sound) (hok : Recoverable w a)
    (hs : Worker.step w a = some v) : v.Sound := by
  cases a with
  | task res seconds =>
      obtain ⟨next, hn, -⟩ := Option.map_eq_some_iff.mp hs
      exact h.task hn (hok.creation res seconds rfl) (hok.stop rfl) hs
  | others shared stack => exact h.others hs

/-! ## The way to the request -/

/-- The task is on its way, in a healthy environment. -/
structure Way (w : Worker) : Prop where
  sound : w.Sound
  mutex : w.shared.mutex = .live
  eventQueue : w.shared.eventQueue = .live
  distance : 0 < w.task.pc.distance
  event : w.task.pc = .get →
    ∃ event queue, w.shared.queue = event :: queue ∧ (w.task.dispatch event).event = .start

theorem Way.answer_eq (h : w.Way) (hneeds : w.task.pc.needs = true) (res : ℤ) :
    w.answer res = res := by
  have hreads : w.task.pc.reads = true := by
    cases hpc : w.task.pc <;> first | rfl | (rw [hpc] at hneeds; cases hneeds)
  have hopen := (h.sound.holding hreads (h.sound.secured hneeds)).2
  have hanswer : w.stack.answer w.task.socket res = res := by rw [Stack.answer, if_pos hopen]
  dsimp only [answer]
  cases hpc : w.task.pc with
  | create =>
      rw [hpc] at hneeds
      cases hneeds
  | startClose | setOpt | connect | send | recv | stopClose | exitClose => exact hanswer
  | _ => rfl

theorem Way.answers (h : w.Way) (hok : Healthy w (.task res seconds)) :
    (w.task.pc = .create → 0 ≤ w.answer res) ∧ (w.task.pc ≠ .create → w.answer res = 0) := by
  dsimp only [Healthy] at hok
  constructor
  · intro hpc
    rw [if_pos hpc] at hok
    rwa [answer, hpc]
  · intro hpc
    rw [if_neg hpc] at hok
    cases hneeds : w.task.pc.needs with
    | true => rw [h.answer_eq hneeds, hok]
    | false =>
        have hdistance := h.distance
        rw [answer]
        cases heq : w.task.pc with
        | create => exact absurd heq hpc
        | startClose | setOpt | connect =>
            rw [heq] at hneeds
            cases hneeds
        | send | recv | stopClose | exitClose =>
            rw [heq] at hdistance
            cases hdistance
        | _ => exact hok

/-- Each step of the task in a healthy environment brings it nearer. -/
theorem Way.task (h : w.Way) (hok : Healthy w (.task res seconds))
    (hs : step w (.task res seconds) = some v) :
    v.task.pc = .send ∨ v.Way ∧ v.task.pc.distance < w.task.pc.distance := by
  obtain ⟨next, hn, heq⟩ := Option.map_eq_some_iff.mp hs
  obtain ⟨hcreate, hzero⟩ := h.answers hok
  have hstop : w.task.pc = .stopClose → w.task.socket ≠ iotSocketEsock := by
    intro hpc
    have hpos := h.distance
    rw [hpc] at hpos
    cases hpos
  have hsound := h.sound.task hn (fun hpc hneg => absurd (hcreate hpc) hneg.not_ge) hstop hs
  have hnear : next.1.mutex = w.shared.mutex ∧ next.1.eventQueue = w.shared.eventQueue ∧
      (next.2.pc = .send ∨ next.2.pc.Near w.task.pc.distance) := by
    by_cases hpc : w.task.pc = .get
    · obtain ⟨event, queue, hqueue, hstart⟩ := h.event hpc
      rw [hzero (by rw [hpc]; nofun)] at hn
      obtain ⟨hmutex, hlive, hnear⟩ := Task.get_near hn hpc h.eventQueue hqueue hstart
      exact ⟨hmutex, hlive, Or.inr hnear⟩
    · obtain ⟨hsame, hnear⟩ := Task.advance_near hn h.mutex h.distance hpc hcreate hzero
      exact ⟨by rw [hsame], by rw [hsame], hnear⟩
  subst heq
  obtain ⟨hmutex, hlive, hsend | ⟨hget, hpos, hlt⟩⟩ := hnear
  · exact Or.inl hsend
  · exact Or.inr ⟨⟨hsound, hmutex.trans h.mutex, hlive.trans h.eventQueue, hpos,
      fun hpc => absurd hpc hget⟩, hlt⟩

theorem Way.others {shared : Shared} {stack : Stack} (h : w.Way)
    (hok : Healthy w (.others shared stack)) (hs : step w (.others shared stack) = some v) :
    v.Way ∧ v.task = w.task := by
  have hsound := h.sound.others hs
  obtain ⟨-, hs⟩ := Option.ite_none_right_eq_some.mp hs
  cases hs
  obtain ⟨hmutex, hlive, more, hqueue⟩ := hok
  refine ⟨⟨hsound, hmutex, hlive, h.distance, fun hpc => ?_⟩, rfl⟩
  obtain ⟨event, queue, heq, hstart⟩ := h.event hpc
  exact ⟨event, queue ++ more, by rw [← hqueue, heq]; rfl, hstart⟩

theorem Way.enabled (h : w.Way) (hok : Healthy w (.task res seconds)) :
    step w (.task res seconds) ≠ none := by
  have hzero := (h.answers hok).2
  have hdistance := h.distance
  simp only [step, ne_eq, Option.map_eq_none_iff]
  dsimp only [Task.advance]
  cases hpc : w.task.pc with
  | get =>
      obtain ⟨event, queue, hqueue, -⟩ := h.event hpc
      simp [Task.get, h.eventQueue, hzero (by simp [hpc]), hqueue]
  | done =>
      rw [hpc] at hdistance
      cases hdistance
  | _ => exact Option.some_ne_none _

/-- A healthy run either comes to the request, or has taken few steps of the task. -/
theorem Way.run {acts : List Action} (h : w.Way) (hok : Meets step Healthy w acts)
    (hr : Transition.run step w acts = some v) :
    (∃ front u, front <+: acts ∧ Transition.run step w front = some u ∧ u.task.pc = .send) ∨
    (v.Way ∧ acts.countP Action.isTask + v.task.pc.distance ≤ w.task.pc.distance) := by
  induction acts generalizing w with
  | nil =>
      cases hr
      exact Or.inr ⟨h, by simp⟩
  | cons a acts ih =>
      obtain ⟨u, hu, hr⟩ := Option.bind_eq_some_iff.mp hr
      obtain ⟨ha, hok⟩ := hok u hu
      have hsend : u.task.pc = .send →
          ∃ front u, front <+: a :: acts ∧ Transition.run step w front = some u ∧
            u.task.pc = .send := fun hsend =>
        ⟨[a], u, List.cons_prefix_cons.mpr ⟨rfl, List.nil_prefix⟩, by rw [run_cons hu]; rfl, hsend⟩
      have hnext : u.Way → u.task.pc.distance + [a].countP Action.isTask ≤ w.task.pc.distance →
          (∃ front u, front <+: a :: acts ∧ Transition.run step w front = some u ∧
            u.task.pc = .send) ∨
          (v.Way ∧ (a :: acts).countP Action.isTask + v.task.pc.distance ≤
            w.task.pc.distance) := by
        intro hway hle
        obtain ⟨front, x, hfront, hx, hsend⟩ | ⟨hv, hcount⟩ := ih hway hok hr
        · exact Or.inl ⟨a :: front, x, List.cons_prefix_cons.mpr ⟨rfl, hfront⟩,
            (run_cons hu front).trans hx, hsend⟩
        · refine Or.inr ⟨hv, ?_⟩
          rw [← List.singleton_append, List.countP_append]
          omega
      cases a with
      | task res seconds =>
          obtain hpc | ⟨hway, hlt⟩ := h.task ha hu
          · exact Or.inl (hsend hpc)
          · exact hnext hway (Nat.succ_le_of_lt hlt)
      | others shared stack =>
          obtain ⟨hway, hsame⟩ := h.others ha hu
          exact hnext hway (by simp [Action.isTask, hsame])

theorem Sound.recovers (h : w.Sound) : w.Recovers := by
  intro event queue hpc hmutex hlive hqueue hstart acts v hok hr
  have hway : w.Way := ⟨h, hmutex, hlive, by rw [hpc]; decide, fun _ => ⟨event, queue, hqueue,
    hstart⟩⟩
  refine (hway.run hok hr).imp id fun ⟨hv, hcount⟩ => ⟨?_, fun res seconds => hv.enabled⟩
  have hpos := hv.distance
  rw [hpc] at hcount
  change _ ≤ 9 at hcount
  omega

/-! ## Runs -/

theorem Sound.recovered {a : Action} (h : w.Sound) (hok : Recoverable w a)
    (hs : Worker.step w a = some v) : Recovered w a v := by
  have hv := h.step hok hs
  refine ⟨fun htask hcloses => h.closes hcloses (hok.stop htask), fun hreads hnone => ?_,
    hv.recovers⟩
  by_contra hsocket
  have hheld := hv.held hreads
  rw [if_neg hsocket] at hheld
  cases hnone.symm.trans hheld

theorem Sound.not_recovered {a : Action} (h : w.Sound) (hs : Worker.step w a = some v)
    (hok : ¬ Recoverable w a) : ¬ Recovered w a v := by
  intro hrecovered
  refine hok ⟨?_, fun htask hpc hsocket => ?_⟩
  · rintro res seconds rfl hpc hneg
    obtain ⟨next, hn, rfl⟩ := Option.map_eq_some_iff.mp hs
    simp only [Task.advance, hpc, if_neg hneg.not_ge] at hn
    cases hn
    have hforgets := hrecovered.forgets (by simp [Task.fail, Task.finish]; rfl)
    have hnone : w.holds res = none := by
      rw [Worker.holds, hpc]
      dsimp only
      rw [if_neg hneg.not_ge]
      exact h.created hpc
    exact (Task.fail_same _ _).socket.symm.trans (hforgets hnone)
  · have hheld := (hrecovered.closes htask (by rw [hpc]; rfl)).1
    rw [h.held (by rw [hpc]; rfl), if_pos hsocket] at hheld
    cases hheld

/-- Whatever the stack, the server, the RTOS and the others do: the task knows whether it has a
socket, closes no other and recovers from every failed start, exactly if each creation that fails
says `IOT_SOCKET_ESOCK`, and each STOP finds a socket. -/
theorem recovered_iff_recoverable (shared : Shared) (stack : Stack) (acts : List Action) :
    Steps step Recovered (new shared stack) acts ↔
      Meets step Recoverable (new shared stack) acts := by
  apply steps_iff_meets Sound
  · exact fun _ _ _ h hok hs => h.step hok hs
  · exact fun _ _ _ h hok hs => h.recovered hok hs
  · exact fun _ _ _ h hs hok => h.not_recovered hs hok
  · exact sound_new shared stack

/-- A context with all its objects, and two STARTs in the queue. -/
def twoStarts : Shared :=
  { Shared.zero with
    state := .stopped
    thread := true
    mutex := .live
    eventQueue := .live
    eventFlags := .live
    queue := [.start, .start] }

/-- The stack has no memory for the socket, and the task passes this to `iotSocketClose`. -/
theorem enomem_not_recovered :
    ¬ ∀ shared stack acts, Steps step Recovered (new shared stack) acts := by
  intro h
  have hsteps := h twoStarts .empty ([.task 0 0, .task 0 0, .task iotSocketEnomem 0, .task 0 0,
    .task 0 0, .task 0 0, .task 0 0] ++ [.task 0 0])
  have hclose := (hsteps.last rfl rfl).closes rfl rfl
  cases hclose.1

end Worker

end OpenIotSdk.Ntp
