import OpenIotSdk.Library.Transition
import OpenIotSdk.Model.Ntp.Worker
import OpenIotSdk.Verification.Ntp.Semantics

/-! # The time of the NTP task

A START is acknowledged with the time of a full reply. A reply that is too short takes the same
way, without one. -/

namespace OpenIotSdk.Ntp

open Transition

namespace Worker

/-- The time of the last full reply since the last START. -/
def Valid (w : Worker) (time : ℕ) : Prop :=
  ∃ seconds, w.received = some seconds ∧ time1970 ≤ seconds.toNat ∧
    time = seconds.toNat - time1970

/-- A request that follows: the event is done with, and another one is in the queue. -/
structure Retried (v : Worker) : Prop where
  finished : v.task.Over
  working : v.task.working = false
  queued : .getTime ∈ v.shared.queue ∨ .start ∈ v.shared.queue

/-- What the task makes of the replies. -/
structure Timely (w : Worker) (a : Action) (v : Worker) : Prop where
  acknowledged : ∀ res seconds, a = .task res seconds →
    w.task.pc = .ackStart ∨ .start ∈ v.shared.flags ∧ .start ∉ w.shared.flags →
      ∃ time, w.written = some time ∧ w.Valid time
  time : ∀ res seconds, a = .task res seconds → v.shared.time ≠ w.shared.time →
    w.Valid v.shared.time
  listeners : v.task.pc = .listeners → v.Valid v.shared.time
  retried : ∀ res seconds, a = .task res seconds → w.task.pc = .recv → 0 ≤ w.answer res →
    w.answer res ≠ 48 ∨ seconds.toNat < time1970 →
      v.shared.time = w.shared.time ∧ v.task.pc ≠ .listeners ∧ v.Retried

/-- No reply is short, there is room for another request, and nobody else writes the time while
the task calls the listeners. -/
structure Undisturbed (w : Worker) (a : Action) : Prop where
  reply : ∀ res seconds, a = .task res seconds → w.task.pc = .recv → 0 ≤ w.answer res →
    w.answer res = 48
  room : ∀ res seconds, a = .task res seconds → w.task.pc = .recv → w.answer res = 48 →
    seconds.toNat < time1970 →
      w.shared.Room ∨ .getTime ∈ w.shared.queue ∨ .start ∈ w.shared.queue
  others : ∀ shared stack, a = .others shared stack → w.task.pc = .listeners →
    shared.time = w.shared.time

/-! ## The invariant -/

/-- What has been received and written at the calls that follow. -/
def Timed (w : Worker) : Prop :=
  match w.task.pc with
  | .timeAcquire time => w.Valid time
  | .listeners => w.written = some w.shared.time ∧ w.Valid w.shared.time
  | .timeRelease | .timerStart | .ackStart => ∃ time, w.written = some time ∧ w.Valid time
  | _ => True

variable {w v : Worker} {res : ℤ} {seconds : BitVec 32} {next : Shared × Task}

theorem timed_of_over (h : w.task.Over) : w.Timed := by
  rw [Task.Over] at h
  rw [Timed]
  cases hpc : w.task.pc <;> first | trivial | (rw [hpc] at h; cases h)

theorem flow_timed {pc : Task.Pc} (hflow : pc.Flow w.task.pc)
    (hpc : pc ≠ .recv ∧ (∀ time, pc ≠ .timeAcquire time) ∧ pc ≠ .listeners ∧ pc ≠ .timeRelease ∧
      pc ≠ .timerStart) : w.Timed := by
  obtain ⟨hrecv, hacquire, hlisteners, hrelease, hstart⟩ := hpc
  rw [Timed]
  cases heq : w.task.pc with
  | timeAcquire time | listeners | timeRelease | timerStart | ackStart =>
      rw [heq] at hflow
      cases pc with
      | recv => exact absurd rfl hrecv
      | timeAcquire time => exact absurd rfl (hacquire time)
      | listeners => exact absurd rfl hlisteners
      | timeRelease => exact absurd rfl hrelease
      | timerStart => exact absurd rfl hstart
      | _ => cases hflow
  | _ => trivial

theorem Timed.set (h : w.Timed) (hpc : w.task.pc = .listeners ∨ w.task.pc = .timeRelease ∨
    w.task.pc = .timerStart ∨ w.task.pc = .ackStart) :
    ∃ time, w.written = some time ∧ w.Valid time := by
  rw [Timed] at h
  rcases hpc with hpc | hpc | hpc | hpc
  · rw [hpc] at h
    exact ⟨w.shared.time, h⟩
  · rw [hpc] at h
    exact h
  · rw [hpc] at h
    exact h
  · rw [hpc] at h
    exact h

theorem timed_of_set (h : ∃ time, w.written = some time ∧ w.Valid time)
    (hlisteners : w.task.pc ≠ .listeners) (hacquire : ∀ time, w.task.pc ≠ .timeAcquire time) :
    w.Timed := by
  rw [Timed]
  cases hpc : w.task.pc with
  | listeners => exact absurd hpc hlisteners
  | timeAcquire time => exact absurd hpc (hacquire time)
  | timeRelease | timerStart | ackStart => exact h
  | _ => trivial

/-! ## Replies -/

theorem retried_retry {s : Shared} {t : Task} (hnext : (v.shared, v.task) = t.retry s)
    (hroom : s.Room ∨ .getTime ∈ s.queue ∨ .start ∈ s.queue) : v.Retried := by
  obtain ⟨hshared, htask⟩ := Prod.ext_iff.mp hnext
  refine ⟨?_, ?_, ?_⟩
  · rw [show v.task = _ from htask]
    exact Task.finish_over _
  · rw [show v.task = _ from htask]
    exact Task.finish_working _
  · rw [show v.shared = _ from hshared]
    dsimp only [Task.retry, Shared.ntpTimerCallback]
    split
    · exact Or.inl (by simp [Shared.push])
    · next hfull => exact hroom.resolve_left hfull

theorem not_retried_retry {s : Shared} {t : Task} (hnext : (v.shared, v.task) = t.retry s)
    (hfull : ¬ (s.Room ∨ .getTime ∈ s.queue ∨ .start ∈ s.queue)) : ¬ v.Retried := by
  intro h
  obtain ⟨hshared, -⟩ := Prod.ext_iff.mp hnext
  have hqueued := h.queued
  rw [show v.shared = _ from hshared] at hqueued
  dsimp only [Task.retry, Shared.ntpTimerCallback] at hqueued
  rw [if_neg fun hroom => hfull (Or.inl hroom)] at hqueued
  exact hfull (Or.inr hqueued)

/-- A reply that is taken for a full one is not retried. -/
theorem not_retried_settle {t : Task} (hnext : v.task = t.settle) : ¬ v.Retried := by
  intro h
  have hover := h.finished
  have hworking := h.working
  rw [hnext] at hover hworking
  dsimp only [Task.settle] at hover hworking
  split at hworking
  · cases (Task.finish_working _).symm.trans hworking
  · next hstarted =>
      rw [if_neg hstarted] at hover
      cases hover

theorem retry_time (t : Task) (s : Shared) : (t.retry s).1.time = s.time := by
  obtain ⟨events, -, hput⟩ := s.ntpTimerCallback_eq
  rw [Task.retry, hput]

/-- The cases of `iotSocketRecv`. -/
theorem recv_cases (t : Task) (s : Shared) (res : ℤ) (seconds : BitVec 32) :
    (res < 0 ∧ t.recv s res seconds = t.lose s res) ∨
    (res = 48 ∧ seconds.toNat < time1970 ∧ t.recv s res seconds = t.retry s) ∨
    (res = 48 ∧ time1970 ≤ seconds.toNat ∧
      t.recv s res seconds = (s, t.goto (.timeAcquire (seconds.toNat - time1970)))) ∨
    (0 ≤ res ∧ res ≠ 48 ∧ t.recv s res seconds = (s, t.settle)) := by
  rw [Task.recv]
  rcases lt_or_ge res 0 with hneg | hres
  · exact Or.inl ⟨hneg, if_pos hneg⟩
  · rw [if_neg hres.not_gt]
    by_cases hfull : res = 48
    · rw [if_pos hfull]
      rcases lt_or_ge seconds.toNat time1970 with hearly | hvalid
      · exact Or.inr (Or.inl ⟨hfull, hearly, if_pos hearly⟩)
      · exact Or.inr (Or.inr (Or.inl ⟨hfull, hvalid, if_neg hvalid.not_gt⟩))
    · exact Or.inr (Or.inr (Or.inr ⟨hres, hfull, if_neg hfull⟩))

/-! ## Steps of the task -/

theorem Valid.congr {time : ℕ} (h : w.Valid time) (hreceived : v.received = w.received) :
    v.Valid time := by
  rwa [Valid, hreceived]

theorem notes_of_ne (hget : w.task.pc ≠ .get) (hrecv : w.task.pc ≠ .recv)
    (hacquire : ∀ time, w.task.pc ≠ .timeAcquire time) (res : ℤ) (seconds : BitVec 32)
    (next : Shared × Task) :
    w.receives res seconds next = w.received ∧ w.writes res next = w.written := by
  dsimp only [receives, writes]
  cases hpc : w.task.pc with
  | get => exact absurd hpc hget
  | recv => exact absurd hpc hrecv
  | timeAcquire time => exact absurd hpc (hacquire time)
  | _ => exact ⟨rfl, rfl⟩

theorem Timed.recv (hpc : w.task.pc = .recv) (hok : Undisturbed w (.task res seconds))
    (hs : step w (.task res seconds) = some v) : v.Timed := by
  obtain ⟨next, hn, rfl⟩ := Option.map_eq_some_iff.mp hs
  simp only [Task.advance, hpc] at hn
  cases hn
  obtain ⟨-, heq⟩ | ⟨-, -, heq⟩ | ⟨hfull, hvalid, heq⟩ | ⟨hres, hshort, -⟩ :=
    recv_cases w.task w.shared (w.answer res) seconds
  · apply timed_of_over
    rw [heq]
    exact w.task.lose_over w.shared (w.answer res)
  · apply timed_of_over
    rw [heq]
    exact w.task.retry_over w.shared
  · rw [heq]
    refine ⟨seconds, ?_, hvalid, rfl⟩
    simp only [receives, hpc, hfull, if_true]
  · exact absurd (hok.reply res seconds rfl hpc hres) hshort

theorem Timed.timeAcquire (h : w.Timed) {time : ℕ} (hpc : w.task.pc = .timeAcquire time)
    (hs : step w (.task res seconds) = some v) : v.Timed := by
  have hanswer : w.answer res = res := by rw [answer, hpc]
  obtain ⟨next, hn, rfl⟩ := Option.map_eq_some_iff.mp hs
  simp only [Task.advance, hpc, hanswer] at hn
  cases hn
  rw [Timed, hpc] at h
  by_cases hmutex : w.shared.MutexOk res
  · simp only [if_pos hmutex]
    refine ⟨?_, h.congr ?_⟩
    · simp only [writes, hpc, if_pos hmutex]
    · simp only [receives, hpc]
  · simp only [if_neg hmutex]
    exact timed_of_over (w.task.fail_over .errMutex)

theorem Timed.task (h : w.Timed) (hok : Undisturbed w (.task res seconds))
    (hs : step w (.task res seconds) = some v) : v.Timed := by
  obtain ⟨next, hn, heq⟩ := Option.map_eq_some_iff.mp hs
  rcases Task.advance_flow hn with hflow | hover
  · cases hpc : w.task.pc with
    | recv => exact Timed.recv hpc hok hs
    | timeAcquire time => exact h.timeAcquire hpc hs
    | listeners | timeRelease | timerStart =>
        obtain ⟨hreceived, hwritten⟩ := notes_of_ne (by rw [hpc]; nofun) (by rw [hpc]; nofun)
          (by rw [hpc]; nofun) res seconds next
        obtain ⟨time, hset, hvalid⟩ := h.set (by simp [hpc])
        subst heq
        rw [hpc] at hflow
        refine timed_of_set ⟨time, hwritten.trans hset, hvalid.congr hreceived⟩ ?_ ?_
        · intro hlisteners
          rw [show next.2.pc = _ from hlisteners] at hflow
          cases hflow
        · intro time hacquire
          rw [show next.2.pc = _ from hacquire] at hflow
          cases hflow
    | _ =>
        subst heq
        rw [hpc] at hflow
        exact flow_timed hflow ⟨nofun, nofun, nofun, nofun, nofun⟩
  · subst heq
    exact timed_of_over hover

theorem Timed.others {shared : Shared} {stack : Stack} (h : w.Timed)
    (hok : w.task.pc = .listeners → shared.time = w.shared.time)
    (hs : step w (.others shared stack) = some v) : v.Timed := by
  obtain ⟨-, hs⟩ := Option.ite_none_right_eq_some.mp hs
  cases hs
  rw [Timed] at h ⊢
  dsimp only
  cases hpc : w.task.pc with
  | listeners =>
      rw [hpc] at h
      dsimp only
      rw [hok hpc]
      exact h
  | timeAcquire time | timeRelease | timerStart | ackStart =>
      rw [hpc] at h
      exact h
  | _ => trivial

theorem Timed.step {a : Action} (h : w.Timed) (hok : Undisturbed w a)
    (hs : Worker.step w a = some v) : v.Timed := by
  cases a with
  | task res seconds => exact h.task hok hs
  | others shared stack => exact h.others (hok.others shared stack rfl) hs

/-! ## What the steps do -/

/-- Only one call writes the time, and another one sets the flag. -/
theorem Timed.writes (h : w.Timed) (hs : Worker.step w (.task res seconds) = some v) :
    (v.shared.time ≠ w.shared.time → w.Valid v.shared.time) ∧
      (.start ∈ v.shared.flags → .start ∉ w.shared.flags → w.task.pc = .ackStart) := by
  obtain ⟨next, hn, rfl⟩ := Option.map_eq_some_iff.mp hs
  obtain ⟨s, t⟩ := next
  have heffect : w.task.Effect w.shared s := Task.advance_effect hn
  cases heffect with
  | none | take hget hqueue | setError herr =>
      exact ⟨fun hne => absurd rfl hne, fun hmem hnot => absurd hmem hnot⟩
  | retry hretry =>
      obtain ⟨events, -, hput⟩ := w.shared.ntpTimerCallback_eq
      rw [hput]
      exact ⟨fun hne => absurd rfl hne, fun hmem hnot => absurd hmem hnot⟩
  | setTime htime =>
      rw [Timed, htime] at h
      exact ⟨fun _ => h, fun hmem hnot => absurd hmem hnot⟩
  | setFlag hflag hlive =>
      refine ⟨fun hne => absurd rfl hne, fun hmem hnot => ?_⟩
      obtain heq | hmem := Finset.mem_insert.mp hmem
      · rw [hflag, ← heq]
        rfl
      · exact absurd hmem hnot

/-- A reply that is short or garbled is retried exactly if it is full, and there is room. -/
theorem retried_iff (hpc : w.task.pc = .recv) (hres : 0 ≤ w.answer res)
    (hbad : w.answer res ≠ 48 ∨ seconds.toNat < time1970)
    (hs : Worker.step w (.task res seconds) = some v) :
    (v.shared.time = w.shared.time ∧ v.task.pc ≠ .listeners ∧ v.Retried) ↔
      w.answer res = 48 ∧
        (w.shared.Room ∨ .getTime ∈ w.shared.queue ∨ .start ∈ w.shared.queue) := by
  obtain ⟨next, hn, rfl⟩ := Option.map_eq_some_iff.mp hs
  simp only [Task.advance, hpc] at hn
  cases hn
  obtain ⟨hneg, -⟩ | ⟨hfull, -, heq⟩ | ⟨hfull, hvalid, -⟩ | ⟨-, hshort, heq⟩ :=
    recv_cases w.task w.shared (w.answer res) seconds
  · exact absurd hres hneg.not_ge
  · rw [heq]
    constructor
    · rintro ⟨-, -, hretried⟩
      refine ⟨hfull, ?_⟩
      by_contra hnone
      exact not_retried_retry rfl hnone hretried
    · rintro ⟨-, hroom⟩
      refine ⟨retry_time w.task w.shared, fun hlisteners => ?_, retried_retry rfl hroom⟩
      have htail := (w.task.retry_over w.shared).tail
      rw [show (w.task.retry w.shared).2.pc = _ from hlisteners] at htail
      cases htail
  · exact absurd hbad (not_or.mpr ⟨not_not.mpr hfull, hvalid.not_gt⟩)
  · rw [heq]
    exact iff_of_false (fun h => not_retried_settle rfl h.2.2) fun h => hshort h.1

/-! ## Runs -/

theorem Timed.timely {a : Action} (h : w.Timed) (hok : Undisturbed w a)
    (hs : Worker.step w a = some v) : Timely w a v := by
  have hv := h.step hok hs
  refine ⟨?_, ?_, fun hpc => ?_, ?_⟩
  · rintro res seconds rfl hset
    have hpc : w.task.pc = .ackStart := hset.elim id fun hnew => (h.writes hs).2 hnew.1 hnew.2
    exact h.set (by simp [hpc])
  · rintro res seconds rfl
    exact (h.writes hs).1
  · rw [Timed, hpc] at hv
    exact hv.2
  · rintro res seconds rfl hpc hres hbad
    have hfull := hok.reply res seconds rfl hpc hres
    have hearly := hbad.resolve_left (not_not.mpr hfull)
    exact (retried_iff hpc hres hbad hs).mpr ⟨hfull, hok.room res seconds rfl hpc hfull hearly⟩

theorem Timed.not_timely {a : Action} (h : w.Timed) (hs : Worker.step w a = some v)
    (hok : ¬ Undisturbed w a) : ¬ Timely w a v := by
  intro htimely
  refine hok ⟨?_, ?_, ?_⟩
  · rintro res seconds rfl hpc hres
    by_contra hshort
    have hretried := htimely.retried res seconds rfl hpc hres (Or.inl hshort)
    exact hshort ((retried_iff hpc hres (Or.inl hshort) hs).mp hretried).1
  · rintro res seconds rfl hpc hfull hearly
    have hres : 0 ≤ w.answer res := by omega
    have hretried := htimely.retried res seconds rfl hpc hres (Or.inr hearly)
    exact ((retried_iff hpc hres (Or.inr hearly) hs).mp hretried).2
  · rintro shared stack rfl hpc
    obtain ⟨-, hs⟩ := Option.ite_none_right_eq_some.mp hs
    cases hs
    rw [Timed, hpc] at h
    obtain ⟨-, seconds, hreceived, -, htime⟩ := h
    obtain ⟨seconds', hreceived', -, htime'⟩ := htimely.listeners hpc
    cases hreceived.symm.trans hreceived'
    exact htime'.trans htime.symm

/-- Whatever the server replies, and whatever the RTOS and the others do: each acknowledgement
follows a valid time, and each reply that has none is retried, exactly if no reply is short, there
is room for the next request, and nobody else writes the time while the listeners are called. -/
theorem timely_iff_undisturbed (shared : Shared) (stack : Stack) (acts : List Action) :
    Steps step Timely (new shared stack) acts ↔
      Meets step Undisturbed (new shared stack) acts := by
  apply steps_iff_meets Timed
  · exact fun _ _ _ h hok hs => h.step hok hs
  · exact fun _ _ _ h hok hs => h.timely hok hs
  · exact fun _ _ _ h hs hok => h.not_timely hs hok
  · exact trivial

/-- The server replies with an empty datagram, and the START is acknowledged. -/
theorem emptyReply_not_timely :
    ¬ ∀ shared stack acts, Steps step Timely (new shared stack) acts := by
  intro h
  have hsteps := h { Shared.zero with
    state := .stopped
    thread := true
    mutex := .live
    eventQueue := .live
    eventFlags := .live
    queue := [.start] } .empty
    ([.task 0 0, .task 0 0, .task 3 0] ++ List.replicate 5 (.task 0 0) ++
      [.task 48 0, .task 0 0, .task 0 0] ++ [.task 1 0])
  obtain ⟨time, hwritten, -⟩ := (hsteps.last rfl rfl).acknowledged 1 0 rfl (Or.inl rfl)
  cases hwritten

end Worker

end OpenIotSdk.Ntp
