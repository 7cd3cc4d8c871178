import OpenIotSdk.Library.Monitor
import OpenIotSdk.Verification.Ntp.Semantics

/-! # A stopped NTP client

The task does not remember that it was stopped. A GET_TIME that it takes afterwards sends a
request, or is escalated to a START. -/

namespace OpenIotSdk.Ntp

open Transition

variable {ι : Type*}

/-- The task has acknowledged a STOP, and since then it has not taken a START that was put
later: the number of the first event that is later. -/
def stopped (s : State ι) (a : Action ι) (t : State ι) (quiet : Option ℕ) : Option ℕ :=
  match a with
  | .task res _ =>
      if s.task.pc = .ackStop ∧ s.shared.FlagsOk res then some s.shared.next
      else if s.takes res = some .start then quiet.filter fun first => s.shared.taken < first
      else quiet
  -- A new task has acknowledged nothing.
  | .tick | .timerCallback | .stray _ | .call _ _ => quiet.filter fun _ => t.task.pc ≠ .timerNew

/-- A stopped task opens no socket, sends nothing, calls no listener and starts no timer. -/
def Quiet (x : State ι × Option ℕ) : Prop :=
  x.2 ≠ none → x.1.task.pc ∉ [Task.Pc.create, .send, .listeners, .timerStart]

/-- A stopped task takes no GET_TIME, and no START that was put before it stopped. -/
def Rests (x : State ι × Option ℕ) : Action ι → Prop
  | .task res _ => ∀ first, x.2 = some first → x.1.takes res ≠ some .getTime ∧
      (x.1.takes res = some .start → first ≤ x.1.shared.taken)
  | .tick | .timerCallback | .stray _ | .call _ _ => True

/-- Where a stopped task may be. -/
def Task.Pc.resting : Task.Pc → Bool
  | .stopTimer | .stopClose | .ackStop => true
  | pc => pc.tail

/-- A STOP is acknowledged without a socket, and from then on the task has none. -/
structure Resting (t : Task) (quiet : Option ℕ) : Prop where
  ackStop : t.pc = .ackStop → t.socket = iotSocketEsock
  quiet : quiet ≠ none → t.socket = iotSocketEsock ∧ t.pc.resting = true

/-! ## One step -/

section Task

variable {s : Shared} {t : Task} {res : ℤ} {seconds : BitVec 32} {next : Shared × Task}
  {quiet : Option ℕ}

theorem Task.Pc.resting_of_tail {pc : Task.Pc} (h : pc.tail = true) : pc.resting = true := by
  cases pc <;> first | rfl | cases h

theorem Task.Pc.not_mem_of_resting {pc : Task.Pc} (h : pc.resting = true) :
    pc ∉ [Task.Pc.create, .send, .listeners, .timerStart] := by
  cases pc <;> first | exact absurd h Bool.false_ne_true | simp

/-- From a STOP the flow leads to its acknowledgement. -/
theorem Task.Pc.Flow.resting {pc pc' : Task.Pc} (h : pc.Flow pc') (hget : pc ≠ .get)
    (hpc : pc.resting = true) : pc'.resting = true := by
  cases pc <;>
    first
    | exact absurd rfl hget
    | exact absurd hpc Bool.false_ne_true
    | cases pc' <;> first | rfl | cases h

theorem Task.dispatch_start (h : t.socket = iotSocketEsock) : (t.dispatch .start).pc = .create := by
  simp [dispatch, h]

theorem Task.dispatch_getTime (h : t.socket = iotSocketEsock) :
    (t.dispatch .getTime).pc = .create ∨ (t.dispatch .getTime).pc = .send := by
  cases hworking : t.working with
  | false => simp [dispatch, h, hworking]
  | true => simp [dispatch, hworking]

/-- Every other event leaves a stopped task at rest. -/
theorem Task.dispatch_resting {event : Event} (hstart : event ≠ .start)
    (hget : event ≠ .getTime) : (t.dispatch event).pc.resting = true := by
  cases event with
  | start => exact absurd rfl hstart
  | getTime => exact absurd rfl hget
  | stop => rfl
  | none => exact Pc.resting_of_tail (finish_over _).tail
  | terminate => exact Pc.resting_of_tail (finish_over _).tail
  | error => exact Pc.resting_of_tail (finish_over _).tail

theorem Resting.advance (h : Resting t quiet) (hs : t.advance s res seconds = some next)
    (hget : t.pc ≠ .get) : Resting next.2 quiet := by
  refine ⟨Task.advance_ackStop hs, fun hquiet => ?_⟩
  obtain ⟨hsocket, hpc⟩ := h.quiet hquiet
  constructor
  · have hcreate : t.pc ≠ .create := by
      intro heq
      rw [heq] at hpc
      cases hpc
    rcases Task.advance_socket hs hcreate with heq | heq
    · exact heq.trans hsocket
    · exact heq
  · rcases Task.advance_flow hs with hflow | hover
    · exact hflow.resting hget hpc
    · exact Task.Pc.resting_of_tail hover.tail

theorem Resting.stop (h : Resting t quiet) (hpc : t.pc = .ackStop) (first : ℕ) :
    Resting t (some first) :=
  ⟨h.ackStop, fun _ => ⟨h.ackStop hpc, by rw [hpc]; rfl⟩⟩

theorem Resting.get (h : Resting t quiet) (hs : t.get s res = some next) {quiet' : Option ℕ}
    (hquiet : quiet' ≠ none → quiet ≠ none ∧ next.2.pc.resting = true) :
    Resting next.2 quiet' := by
  constructor
  · intro hpc
    rcases Task.get_flow hs with hflow | hover
    · rw [hpc] at hflow
      cases hflow
    · have htail := hover.tail
      rw [hpc] at htail
      cases htail
  · intro hne
    obtain ⟨hne, hpc⟩ := hquiet hne
    exact ⟨(Task.get_same hs).socket.trans (h.quiet hne).1, hpc⟩

end Task

/-- Taking an event, a stopped task stays at rest unless the event is forbidden. -/
theorem Resting.take {s : State ι} {res : ℤ} {next : Shared × Task} {quiet : Option ℕ}
    (h : Resting s.task quiet) (hpc : s.task.pc = .get)
    (hs : s.task.get s.shared res = some next) (hok : ∀ first, quiet = some first →
      s.takes res ≠ some .getTime ∧ (s.takes res = some .start → first ≤ s.shared.taken)) :
    Resting next.2 (if s.takes res = some .start then
      quiet.filter fun first => s.shared.taken < first else quiet) := by
  apply h.get hs
  obtain ⟨event, queue, htakes, -, rfl⟩ | ⟨htakes, rfl⟩ := get_takes hpc hs
  · rw [htakes] at hok ⊢
    cases quiet with
    | none => intro hne; simp at hne
    | some first =>
        obtain ⟨hget, hstart⟩ := hok first rfl
        by_cases heq : event = .start
        · subst heq
          intro hne
          have hlt : ¬ s.shared.taken < first := Nat.not_lt.mpr (hstart rfl)
          simp [hlt] at hne
        · refine fun _ => ⟨Option.some_ne_none _, Task.dispatch_resting heq fun hevent => ?_⟩
          exact hget (congrArg some hevent)
  · rw [htakes]
    exact fun hne => ⟨by simpa using hne, Task.Pc.resting_of_tail (Task.fail_over _ _).tail⟩

/-- A forbidden event makes a stopped task open a socket or send a request. -/
theorem Resting.not_quiet {s : State ι} {t : State ι} {res : ℤ} {next : Shared × Task}
    {quiet : Option ℕ} (h : Resting s.task quiet) (hpc : s.task.pc = .get)
    (hs : s.task.get s.shared res = some next) (ht : t.task = next.2)
    (hn : ¬ ∀ first, quiet = some first →
      s.takes res ≠ some .getTime ∧ (s.takes res = some .start → first ≤ s.shared.taken)) :
    ¬ Quiet (t, if s.takes res = some .start then
      quiet.filter fun first => s.shared.taken < first else quiet) := by
  obtain ⟨event, queue, htakes, -, rfl⟩ | ⟨htakes, rfl⟩ := get_takes hpc hs
  · rw [htakes] at hn ⊢
    cases quiet with
    | none => simp at hn
    | some first =>
        have hsocket := (h.quiet (Option.some_ne_none _)).1
        dsimp only [Quiet]
        rw [ht]
        by_cases hget : event = .getTime
        · subst hget
          rcases Task.dispatch_getTime hsocket with hnext | hnext <;> simp [hnext]
        · by_cases hstart : event = .start
          · subst hstart
            have hlt : s.shared.taken < first := by simpa using hn
            simp [hlt, Task.dispatch_start hsocket]
          · simp [hget, hstart] at hn
  · simp [htakes] at hn

/-! ## Runs -/

variable [DecidableEq ι]

theorem resting_task_iff {s t : State ι} {res : ℤ} {seconds : BitVec 32} {quiet : Option ℕ}
    (h : Resting s.task quiet) (hs : step s (.task res seconds) = some t) :
    (Rests (s, quiet) (.task res seconds) →
      Resting t.task (stopped s (.task res seconds) t quiet)) ∧
    (¬ Rests (s, quiet) (.task res seconds) →
      ¬ Quiet (t, stopped s (.task res seconds) t quiet)) := by
  obtain ⟨next, hnext, rfl⟩ := Option.map_eq_some_iff.mp hs
  dsimp only [stopped]
  by_cases hget : s.task.pc = .get
  · have hack : ¬ (s.task.pc = .ackStop ∧ s.shared.FlagsOk res) := by simp [hget]
    rw [if_neg hack]
    simp only [Task.advance, hget] at hnext
    exact ⟨fun hok => h.take hget hnext hok, fun hn => h.not_quiet hget hnext rfl hn⟩
  · have htakes : s.takes res = none := takes_of_ne hget res
    rw [htakes]
    refine ⟨fun _ => ?_, fun hn => ?_⟩
    · split
      · next hack => exact (h.stop hack.1 _).advance hnext hget
      · exact h.advance hnext hget
    · exact absurd (fun first _ => by simp [htakes]) hn

theorem Resting.other {s t : State ι} {a : Action ι} {quiet : Option ℕ}
    (h : Resting s.task quiet) (hs : step s a = some t)
    (ha : ∀ res seconds, a ≠ .task res seconds) :
    Resting t.task (quiet.filter fun _ => t.task.pc ≠ .timerNew) := by
  rcases step_other hs ha with heq | heq
  · rw [heq]
    refine ⟨h.ackStop, fun hne => h.quiet fun hnone => ?_⟩
    simp [hnone] at hne
  · rw [heq]
    constructor
    · intro hpc
      cases hpc
    · intro hne
      simp [Task.init] at hne

/-- In any interleaving of the task, its timer and the callers of the API, a stopped task is
quiet if and only if it takes no GET_TIME and no START that was put before it stopped. -/
theorem quiet_iff_rests (acts : List (Action ι)) :
    Always (Monitor.step step stopped) Quiet (init ι, none) acts ↔
      Meets (Monitor.step step stopped) Rests (init ι, none) acts := by
  apply always_iff_meets fun x => Resting x.1.task x.2
  · intro x a y h hok hs
    obtain ⟨t, ht, rfl⟩ := Monitor.step_eq_some.mp hs
    cases a with
    | task res seconds => exact (resting_task_iff h ht).1 hok
    | tick => exact h.other ht (by simp)
    | timerCallback => exact h.other ht (by simp)
    | stray effect => exact h.other ht (by simp)
    | call i action => exact h.other ht (by simp)
  · exact fun x h hquiet => Task.Pc.not_mem_of_resting (h.quiet hquiet).2
  · intro x a y h hs hn
    obtain ⟨t, ht, rfl⟩ := Monitor.step_eq_some.mp hs
    cases a with
    | task res seconds => exact (resting_task_iff h ht).2 hn
    | tick | timerCallback | stray effect | call i action => exact absurd trivial hn
  · constructor
    · intro hpc
      cases hpc
    · intro hne
      exact absurd rfl hne

/-- The timer elapses while a STOP waits in the queue. -/
def lateTick : List (Action Unit) :=
  initialise :: callStart ++ taskBegin ++ taskStart ++ callReturn ++ callStop ++
    [.tick, .timerCallback] ++ taskStop ++ [.task 0 0#32]

theorem lateTick_not_quiet :
    ¬ ∀ acts x, run (Monitor.step step stopped) (init Unit, none) acts = some x → Quiet x := by
  intro h
  have hpc := h lateTick _ rfl (Option.some_ne_none _)
  exact hpc (List.mem_cons_of_mem _ List.mem_cons_self)

end OpenIotSdk.Ntp
