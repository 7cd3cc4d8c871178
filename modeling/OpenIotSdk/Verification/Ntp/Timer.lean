import OpenIotSdk.Library.Monitor
import OpenIotSdk.Verification.Ntp.Semantics

/-! # The periodic timer of the NTP client

A retry goes through `NTP_EVENT_START` again, which stops the timer. It is started again only
where `ntp_client_started` is not set, and that flag is never cleared. -/

namespace OpenIotSdk.Ntp

open Transition

variable {ι : Type*}

/-- Whether the task has acknowledged a START, and taken no STOP or TERMINATE since. -/
def acknowledged (s : State ι) (a : Action ι) (t : State ι) (acked : Bool) : Bool :=
  match a with
  | .task res _ => match s.task.pc with
    | .ackStart => acked || decide (s.shared.FlagsOk res)
    | .get => acked && decide (t.task.event ≠ .stop ∧ t.task.event ≠ .terminate)
    | _ => acked
  -- A new task has acknowledged nothing.
  | .tick | .timerCallback | .stray _ | .call _ _ => acked && decide (t.task.pc ≠ .timerNew)

/-- While an acknowledged task waits on an empty queue, its timer runs. -/
def Ticking (x : State ι × Bool) : Prop :=
  x.2 = true → x.1.task.pc = .get → x.1.shared.queue = [] → x.1.task.timer ≠ none

/-- `NTP_EVENT_START` does not stop the timer of an acknowledged task. -/
def Undisturbed (x : State ι × Bool) : Action ι → Prop
  | .task res _ => x.1.task.pc = .startTimerStop → x.2 = true → res ≠ 0
  | .tick | .timerCallback | .stray _ | .call _ _ => True

instance (x : State ι × Bool) (a : Action ι) : Decidable (Undisturbed x a) :=
  match a with
  | .task _ _ => inferInstanceAs (Decidable (_ → _ → _ ≠ _))
  | .tick | .timerCallback | .stray _ | .call _ _ => isTrue trivial

/-- The timer runs when a START is acknowledged, and from then on up to the end of the loop. -/
structure Armed (t : Task) (acked : Bool) : Prop where
  ackStart : t.pc = .ackStart → t.timer ≠ none
  acked : acked = true → t.pc.leaving = true ∨ t.timer ≠ none ∧ t.pc ≠ .stopTimer

/-! ## One step -/

section Task

variable {s : Shared} {t : Task} {res : ℤ} {seconds : BitVec 32} {next : Shared × Task}
  {acked : Bool}

/-- Within an event, the timer of an acknowledged task stops only for a retry. -/
theorem Armed.advance (h : Armed t acked) (hs : t.advance s res seconds = some next)
    (hok : t.pc = .startTimerStop → acked = true → res ≠ 0) (hget : t.pc ≠ .get) :
    Armed next.2 acked := by
  constructor
  · intro hnext
    rw [Task.advance_ackStart hs hnext]
    exact Option.some_ne_none _
  · intro hacked
    rcases h.acked hacked with hleaving | ⟨hrun, hstop⟩
    · exact Or.inl (Task.advance_leaving hs hleaving)
    · obtain heq | heq | ⟨hres, hpc | hpc | hpc⟩ := Task.advance_timer hs
      · exact Or.inr ⟨heq ▸ hrun, Task.advance_ne_stopTimer hs hget⟩
      · exact Or.inr ⟨heq ▸ Option.some_ne_none _, Task.advance_ne_stopTimer hs hget⟩
      · exact absurd hres (hok hpc hacked)
      · exact absurd hpc hstop
      · exact Or.inl (Task.advance_leaving hs (by rw [hpc]; rfl))

/-- Taking an event, the task stops its timer only for a STOP. -/
theorem Armed.get (h : Armed t acked) (hpc : t.pc = .get) (hs : t.get s res = some next) :
    Armed next.2 (acked && decide (next.2.event ≠ .stop ∧ next.2.event ≠ .terminate)) := by
  have htimer : next.2.timer = t.timer := (Task.get_same hs).timer
  constructor
  · intro hnext
    rcases Task.get_flow hs with hflow | hover
    · rw [hnext] at hflow
      cases hflow
    · have htail := hover.tail
      rw [hnext] at htail
      cases htail
  · intro hacked
    obtain ⟨hacked, hevent⟩ := Bool.and_eq_true_iff.mp hacked
    rcases h.acked hacked with hleaving | ⟨hrun, -⟩
    · rw [hpc] at hleaving
      cases hleaving
    · refine Or.inr ⟨htimer ▸ hrun, fun hnext => ?_⟩
      exact (of_decide_eq_true hevent).1 (Task.get_stopTimer hs hnext)

/-- A START is acknowledged while the timer runs. -/
theorem Armed.acknowledge (h : Armed t acked) (hpc : t.pc = .ackStart) : Armed t true := by
  refine ⟨h.ackStart, fun _ => Or.inr ⟨h.ackStart hpc, ?_⟩⟩
  rw [hpc]
  simp

theorem Armed.task (h : Armed t acked) (hs : t.advance s res seconds = some next)
    (hok : t.pc = .startTimerStop → acked = true → res ≠ 0) :
    Armed next.2 (match t.pc with
      | .ackStart => acked || decide (s.FlagsOk res)
      | .get => acked && decide (next.2.event ≠ .stop ∧ next.2.event ≠ .terminate)
      | _ => acked) := by
  cases hpc : t.pc with
  | get =>
      simp only [Task.advance, hpc] at hs
      exact h.get hpc hs
  | ackStart =>
      have hack := (h.acknowledge hpc).advance hs (by simp [hpc]) (by simp [hpc])
      cases hset : decide (s.FlagsOk res) with
      | true =>
          rw [Bool.or_true]
          exact hack
      | false =>
          rw [Bool.or_false]
          exact h.advance hs hok (by simp [hpc])
  | _ =>
      exact h.advance hs hok (by simp [hpc])

end Task

/-! ## Runs -/

variable [DecidableEq ι]

theorem Armed.other {s t : State ι} {a : Action ι} {acked : Bool} (h : Armed s.task acked)
    (hs : step s a = some t) (ha : ∀ res seconds, a ≠ .task res seconds) :
    Armed t.task (acked && decide (t.task.pc ≠ .timerNew)) := by
  rcases step_other hs ha with heq | heq
  · rw [heq]
    exact ⟨h.ackStart, fun hacked => h.acked (Bool.and_eq_true_iff.mp hacked).1⟩
  · rw [heq]
    constructor
    · intro hpc
      cases hpc
    · intro hacked
      exact absurd rfl (of_decide_eq_true (Bool.and_eq_true_iff.mp hacked).2)

theorem Armed.observe {x y : State ι × Bool} {a : Action ι} (h : Armed x.1.task x.2)
    (hok : Undisturbed x a) (hs : Monitor.step step acknowledged x a = some y) :
    Armed y.1.task y.2 := by
  obtain ⟨t, ht, rfl⟩ := Monitor.step_eq_some.mp hs
  cases a with
  | task res seconds =>
      obtain ⟨next, hnext, rfl⟩ := Option.map_eq_some_iff.mp ht
      exact h.task hnext hok
  | tick => exact h.other ht (by simp)
  | timerCallback => exact h.other ht (by simp)
  | stray effect => exact h.other ht (by simp)
  | call i action => exact h.other ht (by simp)

/-- In any interleaving of the task, its timer and the callers of the API, whatever fails and
whatever the server replies: while an acknowledged task waits on an empty queue its timer
runs, if `NTP_EVENT_START` stops the timer of no acknowledged task. -/
theorem ticking_of_undisturbed (acts : List (Action ι))
    (h : Meets (Monitor.step step acknowledged) Undisturbed (init ι, false) acts) :
    Always (Monitor.step step acknowledged) Ticking (init ι, false) acts := by
  have hinit : Armed (init ι).task false := by
    constructor
    · intro hpc
      cases hpc
    · intro hacked
      cases hacked
  apply Always.of_invariant (fun x => Armed x.1.task x.2) _ _ hinit h
  · exact fun x a y hx hok hs => hx.observe hok hs
  · intro x hx hacked hpc _
    rcases hx.acked hacked with hleaving | ⟨hrun, -⟩
    · rw [hpc] at hleaving
      cases hleaving
    · exact hrun

/-- A client that is started and waits for its timer. -/
theorem firstStart_ticking :
    Always (Monitor.step step acknowledged) Ticking (init Unit, false)
      (initialise :: callStart ++ taskBegin ++ taskStart) :=
  ticking_of_undisturbed _ (by decide)

/-- The timer elapses, the server does not answer in time, and the retry succeeds. -/
def slowReply : List (Action Unit) :=
  initialise :: callStart ++ taskBegin ++ taskStart ++
    [.tick, .timerCallback, .task 0 0#32, .task 48 0#32, .task iotSocketEagain 0#32] ++
    taskRestart

theorem slowReply_not_ticking :
    ¬ ∀ acts x, run (Monitor.step step acknowledged) (init Unit, false) acts = some x →
      Ticking x := by
  intro h
  exact h slowReply _ rfl rfl rfl rfl rfl

end OpenIotSdk.Ntp
