import OpenIotSdk.Verification.Aws.Client

/-! # The course of the AWS client

`app_task` goes on when its packet was acknowledged, and then it can always finish. -/

namespace OpenIotSdk.Aws.Client

open Cmsis Transition

/-! ## The specification -/

def AppPc.Acknowledged : AppPc → Prop
  | .setTerminate | .waitTerminating | .threadTerminate | .disconnect | .close
  | .returned true => True
  | _ => False

def Up (trace : List Event) : Prop := .network .networkUp ∈ trace

/-- A PUBACK came with the identifier that was taken for the message before. -/
def Acked (trace : List Event) : Prop :=
  ∃ id after before, trace = after ++ .puback id :: before ∧ .packetId id ∈ before

/-- What has happened where `app_task` is. -/
structure Course (s : State) : Prop where
  messages : s.queue.length ≤ 10
  up : s.app ≠ .messageQueueGet → Up s.trace
  acked : s.app.Acknowledged → Acked s.trace
  published : s.app = .waitAck ∨ s.app.Acknowledged → .publish ∈ s.trace

/-! ## The acknowledgement -/

variable {s t : State}

structure CourseInv (s : State) : Prop where
  course : Course s
  queued : .networkUp ∈ s.queue → Up s.trace
  taken : s.mqttPacketId ≠ 0 → ∃ id : PacketId, s.mqttPacketId = id ∧ .packetId id ∈ s.trace
  flag : isBitSet s.flags mqttThreadAckReceived = true ∨ s.background = .setAck → Acked s.trace

theorem Moves.trace_suffix (hm : Moves s t) : s.trace <:+ t.trace := by
  cases hm <;> first | exact List.suffix_rfl | exact List.suffix_cons ..

theorem Acked.later {before after : List Event} (h : Acked before) (hsuffix : before <:+ after) :
    Acked after := by
  obtain ⟨id, front, back, rfl, hmem⟩ := h
  obtain ⟨new, rfl⟩ := hsuffix
  exact ⟨id, new ++ front, back, (List.append_assoc ..).symm, hmem⟩

theorem CourseInv.messages_step (h : CourseInv s) (hm : Moves s t) : t.queue.length ≤ 10 := by
  have hlen := h.course.messages
  cases hm with
  | network event queue hqueue =>
      obtain rfl | ⟨-, hle⟩ := hqueue
      · exact hlen
      · exact hle
  | waited queue happ hqueue => exact hqueue.length_le.trans hlen
  | up queue happ hqueue =>
      rw [hqueue, List.length_cons] at hlen
      exact Nat.le_of_succ_le hlen
  | _ => exact hlen

theorem CourseInv.queued_step (h : CourseInv s) (hm : Moves s t) :
    .networkUp ∈ t.queue → Up t.trace := by
  have hlater (hmem : .networkUp ∈ s.queue) : Up t.trace := hm.trace_suffix.subset (h.queued hmem)
  cases hm with
  | network event queue hqueue =>
      obtain rfl | ⟨rfl, -⟩ := hqueue
      · exact hlater
      · intro hmem
        rcases List.mem_append.mp hmem with hmem | hmem
        · exact hlater hmem
        · rw [← List.mem_singleton.mp hmem]
          exact List.mem_cons_self
  | waited queue happ hqueue => exact fun hmem => hlater (hqueue.subset hmem)
  | up queue happ hqueue => exact fun hmem => hlater (hqueue ▸ List.mem_cons_of_mem _ hmem)
  | _ => exact hlater

theorem CourseInv.taken_step (h : CourseInv s) (hm : Moves s t) :
    t.mqttPacketId ≠ 0 → ∃ id : PacketId, t.mqttPacketId = id ∧ .packetId id ∈ t.trace := by
  have hlater (hne : s.mqttPacketId ≠ 0) :
      ∃ id : PacketId, s.mqttPacketId = id ∧ .packetId id ∈ t.trace := by
    obtain ⟨id, hid, hmem⟩ := h.taken hne
    exact ⟨id, hid, hm.trace_suffix.subset hmem⟩
  cases hm with
  | getPacketId id happ => exact fun _ => ⟨id, rfl, List.mem_cons_self⟩
  | _ => exact hlater

theorem CourseInv.flag_step (h : CourseInv s) (hm : Moves s t) :
    isBitSet t.flags mqttThreadAckReceived = true ∨ t.background = .setAck → Acked t.trace := by
  have hlater (hflag : isBitSet s.flags mqttThreadAckReceived = true ∨ s.background = .setAck) :
      Acked t.trace := (h.flag hflag).later hm.trace_suffix
  cases hm with
  | matching id hback hid =>
      intro _
      have hne : s.mqttPacketId ≠ 0 := by
        rw [hid]
        exact id.property
      obtain ⟨id', hid', hmem⟩ := h.taken hne
      obtain rfl : id = id' := Subtype.ext (hid.symm.trans hid')
      exact ⟨id, [], s.trace, rfl, hmem⟩
  | acknowledged app happ hflag hnext => exact fun _ => hlater (.inl hflag)
  | terminate app happ hnext =>
      rw [isBitSet_set_of_ne (by decide) (by decide)]
      exact hlater
  | terminating app happ hflag hnext =>
      rw [isBitSet_clear_of_ne (by decide) (by decide)]
      exact hlater
  | setAck hback => exact fun _ => hlater (.inr hback)
  | setTerminating hback =>
      rw [isBitSet_set_of_ne (by decide) (by decide)]
      exact fun hset => hlater (.inl (hset.resolve_right nofun))
  | packet background hback hnext =>
      intro hset
      refine hlater (.inl (hset.resolve_right ?_))
      rintro rfl
      obtain hnext | hnext | ⟨id, hnext⟩ := hnext <;> cases hnext
  | threadNew | threadTerminate | stop | processLoop | other | delayed =>
      exact fun hset => hlater (.inl (hset.resolve_right nofun))
  | _ => exact hlater

theorem CourseInv.up_step (h : CourseInv s) (hm : Moves s t) :
    t.app ≠ .messageQueueGet → Up t.trace := by
  have hup (hne : s.app ≠ .messageQueueGet) : Up t.trace :=
    hm.trace_suffix.subset (h.course.up hne)
  cases hm with
  | up queue happ hqueue => exact fun _ => h.queued (hqueue ▸ List.mem_cons_self)
  | next app happ => obtain ⟨happ, -⟩ | ⟨happ, -⟩ := happ <;> exact fun _ => hup (by simp [happ])
  | fail happ => exact fun _ => hup fun heq => by rw [heq] at happ; exact happ
  | unconnected _ happ | connected _ happ | closeUnconnected happ | threadNew happ
  | getPacketId _ happ | publish _ happ | acknowledged _ happ | terminate _ happ
  | terminating _ happ | threadTerminate happ | disconnect _ happ | close happ =>
      exact fun _ => hup (by simp [happ])
  | network | waited | stop | processLoop | packet | matching | other | setAck | setTerminating
  | delayed => exact hup

theorem CourseInv.acked_step (h : CourseInv s) (hm : Moves s t) :
    t.app.Acknowledged → Acked t.trace := by
  have hacked (hack : s.app.Acknowledged) : Acked t.trace :=
    (h.course.acked hack).later hm.trace_suffix
  cases hm with
  | up | fail | unconnected | connected | closeUnconnected | threadNew | getPacketId =>
      exact False.elim
  | next app happ => obtain ⟨-, rfl⟩ | ⟨-, rfl⟩ := happ <;> exact False.elim
  | publish app happ hnext => obtain rfl | rfl := hnext <;> exact False.elim
  | acknowledged app happ hflag => exact fun _ => h.flag (.inl hflag)
  | terminate _ happ | terminating _ happ | threadTerminate happ | disconnect _ happ
  | close happ => exact fun _ => hacked (by rw [happ]; trivial)
  | network | waited | stop | processLoop | packet | matching | other | setAck | setTerminating
  | delayed => exact hacked

theorem CourseInv.published_step (h : CourseInv s) (hm : Moves s t) :
    t.app = .waitAck ∨ t.app.Acknowledged → .publish ∈ t.trace := by
  have hpublished (hpub : s.app = .waitAck ∨ s.app.Acknowledged) : .publish ∈ t.trace :=
    hm.trace_suffix.subset (h.course.published hpub)
  cases hm with
  | up | fail | unconnected | connected | closeUnconnected | threadNew | getPacketId =>
      exact fun hpub => hpub.elim nofun False.elim
  | next app happ => obtain ⟨-, rfl⟩ | ⟨-, rfl⟩ := happ <;> exact (·.elim nofun False.elim)
  | publish => exact fun _ => List.mem_cons_self
  | acknowledged _ happ => exact fun _ => hpublished (.inl happ)
  | terminate _ happ | terminating _ happ | threadTerminate happ | disconnect _ happ
  | close happ => exact fun _ => hpublished (.inr (by rw [happ]; trivial))
  | network | waited | stop | processLoop | packet | matching | other | setAck | setTerminating
  | delayed => exact hpublished

theorem CourseInv.course_step (h : CourseInv s) (hm : Moves s t) : Course t :=
  ⟨h.messages_step hm, h.up_step hm, h.acked_step hm, h.published_step hm⟩

theorem CourseInv.step (h : CourseInv s) (hm : Moves s t) : CourseInv t :=
  ⟨h.course_step hm, h.queued_step hm, h.taken_step hm, h.flag_step hm⟩

theorem courseInv_init : CourseInv init where
  course := ⟨Nat.zero_le _, fun hne => absurd rfl hne, fun hack => hack.elim,
    fun hpub => hpub.elim nofun False.elim⟩
  queued := fun hmem => absurd hmem List.not_mem_nil
  taken := fun hne => absurd rfl hne
  flag := fun hset => hset.elim (fun hbit => absurd hbit (by decide)) nofun

/-- In every order of the steps: the client connects after the network came up, and it goes on from
its message when the broker has acknowledged this one. -/
theorem course_always (acts : List Action) : Always step Course init acts :=
  .of_inductive CourseInv (fun _ _ _ h ht => h.step (moves ht)) (fun _ h => h.course)
    courseInv_init acts

/-! ## The end -/

/-- Some steps bring `app_task` to its end. -/
def CanFinish (s : State) : Prop :=
  ∃ acts t, run step s acts = some t ∧ t.app = .returned true

/-- `app_task` has been told to end the receive thread. -/
def AppPc.Told : AppPc → Prop
  | .waitTerminating | .threadTerminate | .disconnect | .close | .returned _ => True
  | _ => False

/-- The message was published, and the steps that follow have not failed. -/
def AppPc.Finishing : AppPc → Prop
  | .waitAck | .setTerminate | .waitTerminating | .threadTerminate | .disconnect | .close => True
  | _ => False

def BackgroundPc.Stopping : BackgroundPc → Prop
  | .setTerminating | .delay | .ended => True
  | _ => False

structure Ready (s : State) : Prop where
  noError : isOsFlagsError s.flags = false
  started : s.app.Finishing ∨ s.app = .publish ∨ s.app = .getPacketId → s.background ≠ .none
  asked : s.app = .waitTerminating → isBitSet s.flags terminateMqttThread = true
  told : isBitSet s.flags terminateMqttThread = true → s.app.Told
  stopping : s.background.Stopping → isBitSet s.flags terminateMqttThread = true
  signalled : s.background = .delay → isBitSet s.flags mqttThreadTerminating = true ∨
    s.app ≠ .waitTerminating
  taken : s.app = .waitAck ∨ s.app = .publish → s.mqttPacketId ≠ 0

theorem Ready.noError_step (h : Ready s) (hm : Moves s t) : isOsFlagsError t.flags = false := by
  have herr := h.noError
  cases hm with
  | acknowledged | terminating => exact isOsFlagsError_clear herr _
  | terminate | setAck | setTerminating => exact isOsFlagsError_set herr (by decide)
  | _ => exact herr

theorem Ready.asked_step (h : Ready s) (hm : Moves s t) :
    t.app = .waitTerminating → isBitSet t.flags terminateMqttThread = true := by
  have hasked := h.asked
  cases hm with
  | terminate app happ hnext => exact fun _ => isBitSet_set s.flags terminateMqttThread
  | acknowledged app happ hflag hnext =>
      rintro rfl
      obtain hnext | hnext := hnext <;> cases hnext
  | terminating app happ hflag hnext =>
      rintro rfl
      obtain hnext | hnext := hnext <;> cases hnext
  | setAck | setTerminating =>
      rw [isBitSet_set_of_ne (by decide) (by decide)]
      exact hasked
  | _ => grind [AppPc.Next]

theorem Ready.told_step (h : Ready s) (hm : Moves s t) :
    isBitSet t.flags terminateMqttThread = true → t.app.Told := by
  have htold := h.told
  cases hm with
  | terminate app happ hnext => obtain rfl | rfl := hnext <;> exact fun _ => trivial
  | acknowledged app happ hflag hnext | terminating app happ hflag hnext =>
      rw [isBitSet_clear_of_ne (by decide) (by decide)]
      grind [AppPc.Told]
  | setAck | setTerminating =>
      rw [isBitSet_set_of_ne (by decide) (by decide)]
      exact htold
  | _ => grind [AppPc.Next, AppPc.Told, AppPc.CanFail]

theorem Ready.stopping_step (h : Ready s) (hinv : Inv s) (hm : Moves s t) :
    t.background.Stopping → isBitSet t.flags terminateMqttThread = true := by
  have hstopping := h.stopping
  have halone := hinv.together.2.1
  cases hm with
  | terminate => exact fun _ => isBitSet_set s.flags terminateMqttThread
  | acknowledged | terminating =>
      rw [isBitSet_clear_of_ne (by decide) (by decide)]
      exact hstopping
  | setAck => exact False.elim
  | setTerminating hback =>
      rw [isBitSet_set_of_ne (by decide) (by decide)]
      exact fun _ => hstopping (by rw [hback]; trivial)
  | _ => grind [BackgroundPc.Stopping, AppPc.Alone]

theorem Ready.signalled_step (h : Ready s) (hm : Moves s t) : t.background = .delay →
    isBitSet t.flags mqttThreadTerminating = true ∨ t.app ≠ .waitTerminating := by
  have hsignalled := h.signalled
  cases hm with
  | setTerminating => exact fun _ => .inl (isBitSet_set s.flags mqttThreadTerminating)
  | setAck => exact nofun
  | acknowledged app happ hflag hnext => exact fun _ => .inr (by grind)
  | terminating app happ hflag hnext => exact fun _ => .inr (by grind)
  | terminate app happ hnext =>
      -- The thread stops only once it was told to.
      intro hback
      have htold := h.told (h.stopping (by rw [hback]; trivial))
      rw [happ] at htold
      exact htold.elim
  | _ => grind [AppPc.Next]

theorem Ready.step (h : Ready s) (hinv : Inv s) (hm : Moves s t) : Ready t where
  noError := h.noError_step hm
  started := by
    have hstarted := h.started
    have hearly := hinv.together.1
    cases hm <;> grind [AppPc.Next, AppPc.Finishing]
  asked := h.asked_step hm
  told := h.told_step hm
  stopping := h.stopping_step hinv hm
  signalled := h.signalled_step hm
  taken := by
    have htaken := h.taken
    cases hm with
    | getPacketId id happ => exact fun _ => id.property
    | _ => grind [AppPc.Next]

theorem ready_init : Ready init where
  noError := by decide
  started := fun h => h.elim False.elim fun h => h.elim nofun nofun
  asked := nofun
  told := fun hset => absurd hset (by decide)
  stopping := False.elim
  signalled := nofun
  taken := fun h => h.elim nofun nofun

/-! ### The steps to the end -/

structure Good (s : State) : Prop where
  inv : Inv s
  ready : Ready s

theorem Good.step (h : Good s) {a : Action} (ht : Client.step s a = some t) : Good t :=
  ⟨h.inv.step (moves ht), h.ready.step h.inv (moves ht)⟩

theorem CanFinish.step {a : Action} (ht : Client.step s a = some t) (h : CanFinish t) :
    CanFinish s := by
  obtain ⟨acts, u, hr, hu⟩ := h
  exact ⟨a :: acts, u, (run_cons ht acts).trans hr, hu⟩

theorem canFinish_close (happ : s.app = .close) : CanFinish s := by
  have ht : Client.step s .app = some (({ s with network := s.network.close }.emit .close).goto
      (.returned true)) := by
    simp only [Client.step, State.advanceApp, happ]
  exact .step ht ⟨[], _, rfl, rfl⟩

theorem canFinish_disconnect (happ : s.app = .disconnect) : CanFinish s := by
  have ht : Client.step s (.disconnect true) = some ((s.emit .disconnect).goto .close) := if_pos happ
  exact .step ht (canFinish_close rfl)

theorem canFinish_threadTerminate (happ : s.app = .threadTerminate)
    (hback : s.background ≠ .ended) : CanFinish s := by
  have ht : Client.step s (.threadTerminate true) = some (({ s with
      background := .ended }.emit .threadTerminated).goto .disconnect) := by
    rw [Client.step, if_pos happ, State.threadTerminate, if_pos ⟨hback, rfl⟩]
  exact .step ht (canFinish_disconnect rfl)

theorem Good.canFinish_delay (h : Good s) (happ : s.app = .waitTerminating)
    (hback : s.background = .delay) : CanFinish s := by
  have hflag : isBitSet s.flags mqttThreadTerminating = true :=
    (h.ready.signalled hback).resolve_right (not_not_intro happ)
  have ht : Client.step s .app = some ({ s with
      flags := osThreadFlagsClear s.flags (bitMask mqttThreadTerminating) }.goto
        .threadTerminate) := by
    simp only [Client.step, State.advanceApp, happ, osEventFlagsWait, hflag, if_true, Option.map_some,
      h.ready.noError]
    rfl
  exact .step ht (canFinish_threadTerminate rfl (by simp [State.goto, hback]))

theorem Good.canFinish_setTerminating (h : Good s) (happ : s.app = .waitTerminating)
    (hback : s.background = .setTerminating) : CanFinish s := by
  have ht : Client.step s .background = some { s with
      background := .delay
      flags := osEventFlagsSet s.flags (bitMask mqttThreadTerminating) } := by
    simp only [Client.step, State.advanceBackground, hback]
  exact .step ht ((h.step ht).canFinish_delay happ rfl)

theorem Good.canFinish_eventFlagsGet (h : Good s) (happ : s.app = .waitTerminating)
    (hback : s.background = .eventFlagsGet) : CanFinish s := by
  have ht : Client.step s .background = some { s with background := .setTerminating } := by
    simp only [Client.step, State.advanceBackground, hback, h.ready.asked happ, if_true]
  exact .step ht ((h.step ht).canFinish_setTerminating happ rfl)

theorem Good.canFinish_processLoop (h : Good s) (happ : s.app = .waitTerminating)
    (hback : s.background = .processLoop) : CanFinish s := by
  have ht : Client.step s .processed = some { s with background := .eventFlagsGet } := if_pos hback
  exact .step ht ((h.step ht).canFinish_eventFlagsGet happ rfl)

theorem Good.canFinish_setAck (h : Good s) (happ : s.app = .waitTerminating)
    (hback : s.background = .setAck) : CanFinish s := by
  have ht : Client.step s .background = some { s with
      background := .processLoop
      flags := osEventFlagsSet s.flags (bitMask mqttThreadAckReceived) } := by
    simp only [Client.step, State.advanceBackground, hback]
  exact .step ht ((h.step ht).canFinish_processLoop happ rfl)

/-- Wherever the receive thread is, it comes to its end within a few statements. -/
theorem Good.canFinish_waitTerminating (h : Good s) (happ : s.app = .waitTerminating)
    (hended : s.background ≠ .ended) : CanFinish s := by
  cases hback : s.background with
  | none => exact absurd hback (h.ready.started (.inl (by rw [happ]; trivial)))
  | eventFlagsGet => exact h.canFinish_eventFlagsGet happ hback
  | processLoop => exact h.canFinish_processLoop happ hback
  | puback id =>
      have ht : Client.step s .background = some ({ s with
          background := if s.mqttPacketId = id then .setAck else .processLoop }.emit
            (.puback id)) := by
        simp only [Client.step, State.advanceBackground, hback]
      refine .step ht ?_
      have hgood := h.step ht
      by_cases hid : s.mqttPacketId = id
      · exact hgood.canFinish_setAck happ (if_pos hid)
      · exact hgood.canFinish_processLoop happ (if_neg hid)
  | setAck => exact h.canFinish_setAck happ hback
  | setTerminating => exact h.canFinish_setTerminating happ hback
  | delay => exact h.canFinish_delay happ hback
  | ended => exact absurd hback hended

theorem Good.canFinish_setTerminate (h : Good s) (happ : s.app = .setTerminate)
    (hended : s.background ≠ .ended) : CanFinish s := by
  have herr : isOsFlagsError (osEventFlagsSet s.flags (bitMask terminateMqttThread)) = false :=
    isOsFlagsError_set h.ready.noError (by decide)
  have ht : Client.step s .app = some ({ s with
      flags := osEventFlagsSet s.flags (bitMask terminateMqttThread) }.goto .waitTerminating) := by
    simp only [Client.step, State.advanceApp, happ, herr]
    rfl
  exact .step ht ((h.step ht).canFinish_waitTerminating rfl hended)

theorem Good.canFinish_acked (h : Good s) (happ : s.app = .waitAck)
    (hflag : isBitSet s.flags mqttThreadAckReceived = true) (hended : s.background ≠ .ended) :
    CanFinish s := by
  have ht : Client.step s .app = some ({ s with
      flags := osThreadFlagsClear s.flags (bitMask mqttThreadAckReceived) }.goto
        .setTerminate) := by
    simp only [Client.step, State.advanceApp, happ, osEventFlagsWait, hflag, if_true, Option.map_some,
      h.ready.noError]
    rfl
  exact .step ht ((h.step ht).canFinish_setTerminate rfl hended)

theorem Good.canFinish_ack (h : Good s) (happ : s.app = .waitAck)
    (hback : s.background = .setAck) : CanFinish s := by
  have ht : Client.step s .background = some { s with
      background := .processLoop
      flags := osEventFlagsSet s.flags (bitMask mqttThreadAckReceived) } := by
    simp only [Client.step, State.advanceBackground, hback]
  exact .step ht ((h.step ht).canFinish_acked happ (isBitSet_set ..) fun hended => by cases hended)

theorem Good.canFinish_receiving (h : Good s) (happ : s.app = .waitAck)
    (hback : s.background = .processLoop) : CanFinish s := by
  have hid : s.mqttPacketId ≠ 0 := h.ready.taken (.inl happ)
  have ht : Client.step s (.packet (some ⟨s.mqttPacketId, hid⟩)) =
      some { s with background := .puback ⟨s.mqttPacketId, hid⟩ } := if_pos hback
  refine .step ht ?_
  have hgood := h.step ht
  have hu : Client.step { s with background := .puback ⟨s.mqttPacketId, hid⟩ } .background = some
      ({ s with background := .setAck }.emit (.puback ⟨s.mqttPacketId, hid⟩)) := by
    simp only [Client.step, State.advanceBackground, if_true]
  exact .step hu ((hgood.step hu).canFinish_ack happ rfl)

theorem Good.canFinish_waitAck (h : Good s) (happ : s.app = .waitAck) : CanFinish s := by
  -- The receive thread has not been told to terminate.
  have hnot : isBitSet s.flags terminateMqttThread = false := by
    by_contra hset
    have htold := h.ready.told (by simpa using hset)
    rw [happ] at htold
    exact htold
  have hgoes (hstop : s.background.Stopping) : CanFinish s := by
    rw [h.ready.stopping hstop] at hnot
    cases hnot
  cases hback : s.background with
  | none => exact absurd hback (h.ready.started (.inl (by rw [happ]; trivial)))
  | eventFlagsGet =>
      have ht : Client.step s .background =
          some ({ s with background := .processLoop }.emit .processLoop) := by
        simp only [Client.step, State.advanceBackground, hback, hnot]
        rfl
      exact .step ht ((h.step ht).canFinish_receiving happ rfl)
  | processLoop => exact h.canFinish_receiving happ hback
  | puback id =>
      have ht : Client.step s .background = some ({ s with
          background := if s.mqttPacketId = id then .setAck else .processLoop }.emit
            (.puback id)) := by
        simp only [Client.step, State.advanceBackground, hback]
      refine .step ht ?_
      have hgood := h.step ht
      by_cases hid : s.mqttPacketId = id
      · exact hgood.canFinish_ack happ (if_pos hid)
      · exact hgood.canFinish_receiving happ (if_neg hid)
  | setAck => exact h.canFinish_ack happ hback
  | setTerminating | delay | ended => exact hgoes (by rw [hback]; trivial)

/-- No order of the steps leads to a deadlock: once its message was published, the client can
finish, unless the receive thread has ended before it was terminated. -/
theorem finish_always (acts : List Action) :
    Always step (fun s => s.app.Finishing → (s.background = .ended → s.app.Cleaning) →
      CanFinish s) init acts := by
  refine .of_inductive Good (fun _ _ _ h ht => h.step ht) ?_ ⟨inv_init, ready_init⟩ acts
  intro s h hfinishing hended
  have hne (happ : ¬ s.app.Cleaning) : s.background ≠ .ended := fun hback => happ (hended hback)
  cases happ : s.app with
  | waitAck => exact h.canFinish_waitAck happ
  | setTerminate => exact h.canFinish_setTerminate happ (hne (by rw [happ]; exact id))
  | waitTerminating => exact h.canFinish_waitTerminating happ (hne (by rw [happ]; exact id))
  | threadTerminate => exact canFinish_threadTerminate happ (hne (by rw [happ]; exact id))
  | disconnect => exact canFinish_disconnect happ
  | close => exact canFinish_close happ
  | messageQueueGet | mqttInit | networkConnect | closeUnconnected | eventFlagsNew | threadNew
  | getPacketId | publish | returned =>
      rw [happ] at hfinishing
      exact hfinishing.elim

end OpenIotSdk.Aws.Client
