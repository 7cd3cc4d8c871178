import OpenIotSdk.Library.Transition
import OpenIotSdk.Model.Lwip.CmsisLwip

/-! # The sockets of the lwIP example

After a loss of the network, `app_task` keeps what `iotSocketClose` answered as the ids of its
sockets. It sends to an id that is not open, and its error keeps it from setting up new sockets. -/

namespace OpenIotSdk.CmsisLwip

open Transition

variable {s t : State} {a : Action}

/-! ## The specification -/

/-- After each step, the id that `app_task` sends to is that of the open socket it has created to
send, and its receive task calls `iotSocketRecv` only on the open one that was created to
receive. -/
structure Sound (s : State) (a : Action) (t : State) : Prop where
  send : 0 ≤ t.sendSocketId → t.sendSocket = some t.sendSocketId ∧
    t.stack.isOpen t.sendSocketId = true
  recv : a = .recvCall → ∃ id, s.recvTaskId = some id ∧ s.recvSocket = some id ∧
    s.stack.isOpen id = true

/-- The socket that `app_task` sends to is not closed, and between the close of the other one and
`osThreadTerminate` the receive task makes no call if that close has succeeded, nor with what the
close has answered. -/
def Orderly (s : State) : Action → Prop
  | .closeSend answer => answer.val ≠ 0
  | .recvCall => s.pc = .terminate → s.recvSocketId ≠ 0 ∧ s.recvTaskId ≠ some s.recvSocketId
  | _ => True

/-! ## The sockets of the stack -/

section Stack

variable {k : Stack} {id id' : ℤ} {reply : ℤ}

theorem isOpen_create (h : 0 ≤ k.created reply) :
    (k.iotSocketCreate reply).isOpen (k.created reply) = true := by
  rw [Stack.iotSocketCreate, if_neg (not_lt.mpr h)]
  exact Function.update_self ..

theorem created_ne (hid : 0 ≤ id) (h : k.isOpen id = true) : k.created reply ≠ id := by
  intro heq
  have hnew := Stack.isOpen_created (heq ▸ hid : 0 ≤ k.created reply)
  rw [heq, h] at hnew
  cases hnew

theorem isOpen_create_of_isOpen (h : k.isOpen id = true) :
    (k.iotSocketCreate reply).isOpen id = true := by
  rw [Stack.iotSocketCreate]
  split
  · exact h
  · dsimp only
    rw [Function.update_apply]
    split
    · rfl
    · exact h

theorem isOpen_close_of_ne (h : id ≠ id') :
    (k.iotSocketClose id' reply).isOpen id = k.isOpen id := by
  rw [Stack.iotSocketClose]
  split
  · exact Function.update_of_ne h ..
  · rfl

theorem answer_nonpos (answer : CloseAnswer) : k.answer id answer.val ≤ 0 := by
  rw [Stack.answer]
  split
  · exact answer.property.1
  · decide

end Stack

/-! ## `NET_EVENT_NETWORK_UP` -/

/-- A socket is open as long as it is noted. -/
def Live (s : State) : Prop :=
  ∀ id, s.sendSocket = some id ∨ s.recvSocket = some id → s.stack.isOpen id = true

structure Pair (s : State) : Prop where
  live : Live s
  send : 0 ≤ s.sendSocketId → s.sendSocket = some s.sendSocketId
  recv : 0 ≤ s.recvSocketId → s.recvSocket = some s.recvSocketId
  ne : 0 ≤ s.sendSocketId → s.recvSocketId ≠ s.sendSocketId

theorem note_cases {note : Option ℤ} {id id' rc : ℤ}
    (h : (if rc = 0 ∧ note = some id then none else note) = some id') :
    note = some id' ∧ (id' = id → rc ≠ 0) := by
  split at h
  · cases h
  · next hkept => exact ⟨h, fun heq hrc => hkept ⟨hrc, heq ▸ h⟩⟩

theorem Live.close (h : Live s) (id : ℤ) (answer : CloseAnswer) : Live (s.close id answer).1 := by
  intro id' hid'
  have hnoted : (s.sendSocket = some id' ∨ s.recvSocket = some id') ∧
      (id' = id → s.stack.answer id answer.val ≠ 0) := by
    rcases hid' with hsend | hrecv
    · exact ⟨.inl (note_cases hsend).1, (note_cases hsend).2⟩
    · exact ⟨.inr (note_cases hrecv).1, (note_cases hrecv).2⟩
  have hopen := h id' hnoted.1
  change (s.stack.iotSocketClose id answer.val).isOpen id' = true
  by_cases heq : id' = id
  · rw [Stack.iotSocketClose, if_neg (hnoted.2 heq)]
    exact hopen
  · rw [isOpen_close_of_ne heq]
    exact hopen

theorem Live.pair_createSockets (h : Live s) (answers : UpAnswers) :
    Pair (s.createSockets answers) := by
  refine ⟨fun id hid => ?_, fun hid => if_pos hid, fun hid => if_pos hid, fun hid => ?_⟩
  · simp only [State.createSockets] at hid ⊢
    rcases hid with hsend | hrecv
    · split at hsend
      · next hnew =>
          cases hsend
          exact isOpen_create_of_isOpen (isOpen_create hnew)
      · exact isOpen_create_of_isOpen (isOpen_create_of_isOpen (h id (.inl hsend)))
    · split at hrecv
      · next hnew =>
          cases hrecv
          exact isOpen_create hnew
      · exact isOpen_create_of_isOpen (isOpen_create_of_isOpen (h id (.inr hrecv)))
  · exact created_ne hid (isOpen_create hid)

theorem createSockets_err (s : State) (answers : UpAnswers)
    (h : (s.createSockets answers).err = 0) :
    s.err = 0 ∧ 0 ≤ (s.createSockets answers).sendSocketId ∧
      0 ≤ (s.createSockets answers).recvSocketId := by
  simp only [State.createSockets] at h ⊢
  split at h
  · exact absurd h (by decide)
  · next hids =>
      obtain ⟨hsend, hrecv⟩ := not_or.mp hids
      exact ⟨h, not_lt.mp hsend, not_lt.mp hrecv⟩

/-- What binding and the creation of the thread leave. -/
theorem setUp_cases (s : State) (answers : UpAnswers) :
    let t := (s.bindSocket answers).newThread answers
    t = { s with
      err := t.err, recvThread := t.recvThread, recvTaskId := t.recvTaskId,
      receiving := t.receiving } ∧
      (t.err = 0 ∧ s.err = 0 ∧ t.recvTaskId = none ∨
        t.err ≠ 0 ∧ (s.recvThread = false → t.recvThread = false)) := by
  dsimp only
  unfold State.bindSocket
  split
  · next herr =>
      unfold State.newThread
      split
      · cases hthread : answers.threadNew with
        | true => exact ⟨rfl, .inl ⟨rfl, herr, rfl⟩⟩
        | false =>
            have herror : iotSocketError ≠ 0 := by decide
            exact ⟨rfl, .inr ⟨herror, fun _ => rfl⟩⟩
      · next hbind => exact ⟨rfl, .inr ⟨hbind, id⟩⟩
  · next herr =>
      rw [State.newThread, if_neg herr]
      exact ⟨rfl, .inr ⟨herr, id⟩⟩

/-- A socket that was cleaned up has no id that can be sent to, unless it had the id 0. -/
theorem cleanup_cases (s : State) (id : ℤ) (answer : CloseAnswer) :
    (id = 0 ∧ s.cleanup id answer = (s, 0)) ∨
    (id ≠ 0 ∧ (s.cleanup id answer).1 = (s.close id answer).1 ∧ (s.cleanup id answer).2 < 0) := by
  by_cases hid : id = 0
  · exact .inl ⟨hid, by simp [State.cleanup, hid]⟩
  · have hle : (s.close id answer).2 ≤ 0 := answer_nonpos answer
    refine .inr ⟨hid, ?_, ?_⟩ <;> rw [State.cleanup, if_pos hid]
    by_cases hrc : (s.close id answer).2 = 0
    · exact (if_pos hrc).trans_lt (by decide)
    · exact (if_neg hrc).trans_lt (lt_of_le_of_ne hle hrc)

theorem Live.cleanup (h : Live s) (id : ℤ) (answer : CloseAnswer) :
    Live (s.cleanup id answer).1 := by
  rcases cleanup_cases s id answer with ⟨-, heq⟩ | ⟨-, heq, -⟩
  · rw [heq]
    exact h
  · rw [heq]
    exact h.close id answer

theorem Live.cleanupSockets (h : Live s) (answers : UpAnswers) :
    Live (s.cleanupSockets answers) := by
  have hboth := (h.cleanup s.sendSocketId answers.closeSend).cleanup
    (s.cleanup s.sendSocketId answers.closeSend).1.recvSocketId answers.closeRecv
  exact fun id hid => hboth id hid

theorem Pair.own_cleanupSockets (h : Pair s) (answers : UpAnswers)
    (hid : 0 ≤ (s.cleanupSockets answers).sendSocketId) :
    (s.cleanupSockets answers).sendSocket = some (s.cleanupSockets answers).sendSocketId := by
  rcases cleanup_cases s s.sendSocketId answers.closeSend with ⟨hzero, heq⟩ | ⟨-, -, hneg⟩
  · have hown : s.sendSocket = some 0 := hzero ▸ h.send hzero.ge
    have hne : s.recvSocketId ≠ 0 := hzero ▸ h.ne hzero.ge
    simp only [State.cleanupSockets, heq]
    rcases cleanup_cases s s.recvSocketId answers.closeRecv with ⟨hrecv, -⟩ | ⟨-, hclose, -⟩
    · exact absurd hrecv hne
    · rw [hclose]
      refine (if_neg ?_).trans hown
      rintro ⟨-, hsame⟩
      exact hne (Option.some.inj (hsame.symm.trans hown))
  · exact absurd hid (not_le.mpr hneg)

theorem cleanup_rest (s : State) (id : ℤ) (answer : CloseAnswer) :
    (s.cleanup id answer).1.err = s.err ∧ (s.cleanup id answer).1.recvThread = s.recvThread := by
  unfold State.cleanup
  split <;> exact ⟨rfl, rfl⟩

/-- Both sockets are set up, or there is an error and no receive task. -/
theorem networkUp_cases (h : Live s) (answers : UpAnswers) :
    let t := s.networkUp answers
    (t = s ∧ s.sendSocketId ≠ iotSocketEsock) ∨
    (s.sendSocketId = iotSocketEsock ∧ s.err = 0 ∧ t.lost = s.lost ∧ t.recvTaskId = none ∧
      Pair t ∧ 0 ≤ t.sendSocketId ∧ 0 ≤ t.recvSocketId) ∨
    (s.sendSocketId = iotSocketEsock ∧ t.err ≠ 0 ∧ (s.recvThread = false → t.recvThread = false) ∧
      Live t ∧ (0 ≤ t.sendSocketId → t.sendSocket = some t.sendSocketId)) := by
  dsimp only
  by_cases hid : s.sendSocketId = iotSocketEsock
  · rw [State.networkUp, if_neg (not_not.mpr hid)]
    have hpair := h.pair_createSockets answers
    have herr := createSockets_err s answers
    obtain ⟨hsame, hsetUp⟩ := setUp_cases (s.createSockets answers) answers
    generalize ((s.createSockets answers).bindSocket answers).newThread answers = t at *
    have hpair : Pair t := by
      rw [hsame]
      exact ⟨hpair.live, hpair.send, hpair.recv, hpair.ne⟩
    rcases hsetUp with ⟨hzero, hcreated, htask⟩ | ⟨hne, hkept⟩
    · obtain ⟨hbefore, hsendId, hrecvId⟩ := herr hcreated
      rw [if_neg (not_not.mpr hzero)]
      refine .inr (.inl ⟨hid, hbefore, ?_, htask, hpair, ?_, ?_⟩) <;> rw [hsame]
      · rfl
      · exact hsendId
      · exact hrecvId
    · rw [if_pos hne]
      obtain ⟨herr₁, hthread₁⟩ := cleanup_rest t t.sendSocketId answers.closeSend
      obtain ⟨herr₂, hthread₂⟩ :=
        cleanup_rest (t.cleanup t.sendSocketId answers.closeSend).1
          (t.cleanup t.sendSocketId answers.closeSend).1.recvSocketId answers.closeRecv
      refine .inr (.inr ⟨hid, ?_, ?_, hpair.live.cleanupSockets answers,
        hpair.own_cleanupSockets answers⟩)
      · exact fun hzero => hne ((herr₂.trans herr₁).symm.trans hzero)
      · exact fun hnone => (hthread₂.trans hthread₁).trans (hkept hnone)
  · rw [State.networkUp, if_pos hid]
    exact .inl ⟨rfl, hid⟩

/-! ## Every order of steps -/

/-- The receive task has its socket. -/
structure Serves (s : State) : Prop where
  id : 0 ≤ s.recvSocketId
  own : s.recvSocket = some s.recvSocketId
  task : ∀ id, s.recvTaskId = some id → id = s.recvSocketId

theorem Serves.congr (h : Serves s) (hid : t.recvSocketId = s.recvSocketId)
    (hown : t.recvSocket = s.recvSocket) (htask : t.recvTaskId = s.recvTaskId) : Serves t := by
  refine ⟨hid ▸ h.id, ?_, fun id hread => ?_⟩
  · rw [hown, hid]
    exact h.own
  · rw [hid]
    exact h.task id (htask ▸ hread)

/-- Its socket has been closed, or it could not be closed. -/
def Left (s : State) : Prop :=
  s.recvSocketId = 0 ∧ s.recvSocket = none ∨
  s.recvSocketId < 0 ∧ ∃ socket, 0 ≤ socket ∧ s.recvSocket = some socket ∧
    ∀ id, s.recvTaskId = some id → id = socket ∨ id = s.recvSocketId

/-- Without its receive task, `app_task` may have lost its sockets. -/
structure Inv (s : State) : Prop where
  live : Live s
  own : 0 ≤ s.sendSocketId → s.sendSocket = some s.sendSocketId
  found : s.pc = .closeSend → 0 ≤ s.sendSocketId
  failed : s.pc = .closeRecv ∨ s.pc = .terminate → s.sendSocketId < 0
  up : s.recvThread = true → s.sendSocketId ≠ iotSocketEsock
  serves : s.recvThread = true → s.pc ≠ .terminate → Serves s
  left : s.recvThread = true → s.pc = .terminate → Left s

theorem inv_init : Inv init :=
  ⟨nofun, fun h => absurd h (by decide), nofun, nofun, nofun, nofun, nofun⟩

theorem Inv.rest (h : Inv s) (queue : List NetMsg) (err : ℤ) :
    Inv { s with queue := queue, err := err } :=
  ⟨h.live, h.own, h.found, h.failed, h.up,
    fun hthread hpc => (h.serves hthread hpc).congr rfl rfl rfl, h.left⟩

theorem Inv.put (h : Inv s) (msg : NetMsg) : Inv (s.put msg) := by
  unfold State.put
  split
  · exact h.rest ..
  · exact h

theorem Inv.goto (h : Inv s) (hpc : s.pc = .get ∨ s.pc = .send) {pc : Pc}
    (ht : pc = .get ∨ pc = .send) : Inv { s with pc := pc } := by
  have hnot : s.pc ≠ .terminate := by rcases hpc with hpc | hpc <;> rw [hpc] <;> nofun
  refine ⟨h.live, h.own, fun heq => ?_, fun heq => ?_, h.up, fun hthread _ => ?_,
    fun _ heq => ?_⟩
  · rcases ht with rfl | rfl <;> cases heq
  · rcases ht with rfl | rfl <;> rcases heq with heq | heq <;> cases heq
  · exact (h.serves hthread hnot).congr rfl rfl rfl
  · rcases ht with rfl | rfl <;> cases heq

theorem Inv.networkUp (h : Inv s) (hpc : s.pc = .get) (answers : UpAnswers) :
    Inv (s.networkUp answers).handled := by
  rcases networkUp_cases h.live answers with ⟨heq, -⟩ | ⟨-, -, -, htask, hpair, hsend, hrecv⟩ |
    ⟨hid, -, hthread, hlive, hown⟩
  · rw [heq]
    exact h.goto (.inl hpc) (.inr rfl)
  · refine ⟨hpair.live, hpair.send, nofun, nofun, fun _ hesock => ?_, fun _ _ => ?_, nofun⟩
    · have hneg : iotSocketEsock < 0 := by decide
      exact absurd hsend (not_le.mpr (hesock ▸ hneg))
    · refine ⟨hrecv, hpair.recv hrecv, fun id hread => ?_⟩
      exact absurd (htask.symm.trans hread) nofun
  · have hnone := hthread (Bool.eq_false_iff.mpr fun hsome => h.up hsome hid)
    have hnot : ¬ (s.networkUp answers).recvThread = true := Bool.eq_false_iff.mp hnone
    exact ⟨hlive, hown, nofun, nofun, fun hsome => absurd hsome hnot,
      fun hsome => absurd hsome hnot, nofun⟩

theorem Inv.networkDown (h : Inv s) (hpc : s.pc = .get) : Inv s.networkDown := by
  unfold State.networkDown
  split
  · next hid =>
      refine ⟨h.live, h.own, fun _ => hid, nofun, h.up, fun hthread _ => ?_, nofun⟩
      exact (h.serves hthread (by rw [hpc]; nofun)).congr rfl rfl rfl
  · exact h.goto (.inl hpc) (.inr rfl)

theorem close_of_ne {id : ℤ} {answer : CloseAnswer} (h : s.stack.answer id answer.val ≠ 0) :
    (s.close id answer).1 = { s with stack := s.stack.iotSocketClose id answer.val } := by
  simp [State.close, h]

theorem Inv.closeSend (h : Inv s) (hpc : s.pc = .closeSend) {answer : CloseAnswer}
    (hok : answer.val ≠ 0) : Inv (s.closeSend answer) := by
  have hid := h.found hpc
  have hanswer : s.stack.answer s.sendSocketId answer.val = answer.val :=
    if_pos (h.live _ (.inl (h.own hid)))
  have hneg : s.stack.answer s.sendSocketId answer.val < 0 := by
    rw [hanswer]
    exact lt_of_le_of_ne answer.property.1 hok
  have hlive := h.live.close s.sendSocketId answer
  have hclose : s.closeSend answer = { s with
      stack := s.stack.iotSocketClose s.sendSocketId answer.val
      sendSocketId := s.stack.answer s.sendSocketId answer.val
      pc := .closeRecv } := by
    simp [State.closeSend, State.close, hneg.ne]
  rw [close_of_ne hneg.ne] at hlive
  rw [hclose]
  refine ⟨hlive, fun hge => absurd hge (not_le.mpr hneg), nofun, fun _ => hneg, fun _ hesock => ?_,
    fun hthread _ => ?_, nofun⟩
  · exact answer.property.2 (hanswer.symm.trans hesock)
  · exact (h.serves hthread (by rw [hpc]; nofun)).congr rfl rfl rfl

theorem Inv.closeRecv (h : Inv s) (hpc : s.pc = .closeRecv) (answer : CloseAnswer) :
    Inv (s.closeRecv answer) := by
  have hneg := h.failed (.inl hpc)
  refine ⟨h.live.close s.recvSocketId answer, fun hge => absurd hge (not_le.mpr hneg), nofun,
    fun _ => hneg, h.up, fun _ hterminate => absurd rfl hterminate, fun hthread _ => ?_⟩
  have hserves := h.serves hthread (by rw [hpc]; nofun)
  have hle : s.stack.answer s.recvSocketId answer.val ≤ 0 := answer_nonpos answer
  by_cases hrc : s.stack.answer s.recvSocketId answer.val = 0
  · exact .inl ⟨hrc, if_pos ⟨hrc, hserves.own⟩⟩
  · refine .inr ⟨lt_of_le_of_ne hle hrc, s.recvSocketId, hserves.id, ?_, fun id hread => ?_⟩
    · exact (if_neg fun hboth => hrc hboth.1).trans hserves.own
    · exact .inl (hserves.task id hread)

theorem Inv.terminate (h : Inv s) : Inv s.terminate.handled :=
  ⟨h.live, h.own, nofun, nofun, nofun, nofun, nofun⟩

theorem Inv.sendTo (h : Inv s) (hpc : s.pc = .send) (reply : ℤ) : Inv (s.sendTo reply) := by
  have hget := h.goto (.inr hpc) (.inl rfl)
  unfold State.sendTo
  dsimp only
  split
  · exact hget.rest s.queue _
  · exact hget

theorem Inv.recvTask (h : Inv s) : Inv { s with recvTaskId := some s.recvSocketId } := by
  refine ⟨h.live, h.own, h.found, h.failed, h.up, fun hthread hpc => ?_, fun hthread hpc => ?_⟩
  · have hserves := h.serves hthread hpc
    exact ⟨hserves.id, hserves.own, fun id hread => (Option.some.inj hread).symm⟩
  · rcases h.left hthread hpc with hclosed | ⟨hneg, socket, hge, hown, -⟩
    · exact .inl hclosed
    · exact .inr ⟨hneg, socket, hge, hown, fun id hread => .inr (Option.some.inj hread).symm⟩

theorem Inv.receive (h : Inv s) (receiving : Bool) {recvThread : Bool}
    (hthread : recvThread = true → s.recvThread = true) :
    Inv { s with receiving := receiving, recvThread := recvThread } := by
  refine ⟨h.live, h.own, h.found, h.failed, fun hnow => h.up (hthread hnow), fun hnow hpc => ?_,
    fun hnow hpc => h.left (hthread hnow) hpc⟩
  exact (h.serves (hthread hnow) hpc).congr rfl rfl rfl

theorem Inv.step (h : Inv s) (hok : Orderly s a) (ht : step s a = some t) : Inv t := by
  cases a with
  | network up =>
      cases ht
      exact h.put _
  | timeout =>
      obtain ⟨hpc, ht⟩ := Option.ite_none_right_eq_some.mp ht
      cases ht
      exact h.goto (.inl hpc) (.inr rfl)
  | up answers =>
      simp only [CmsisLwip.step] at ht
      split at ht
      · next queue hqueue =>
          obtain ⟨hpc, ht⟩ := Option.ite_none_right_eq_some.mp ht
          cases ht
          exact (h.rest queue s.err).networkUp hpc answers
      · cases ht
  | down =>
      simp only [CmsisLwip.step] at ht
      split at ht
      · next queue hqueue =>
          obtain ⟨hpc, ht⟩ := Option.ite_none_right_eq_some.mp ht
          cases ht
          exact (h.rest queue s.err).networkDown hpc
      · cases ht
  | closeSend answer =>
      obtain ⟨hpc, ht⟩ := Option.ite_none_right_eq_some.mp ht
      cases ht
      exact h.closeSend hpc hok
  | closeRecv answer =>
      obtain ⟨hpc, ht⟩ := Option.ite_none_right_eq_some.mp ht
      cases ht
      exact h.closeRecv hpc answer
  | terminate =>
      obtain ⟨-, ht⟩ := Option.ite_none_right_eq_some.mp ht
      cases ht
      exact h.terminate
  | dataReceived =>
      simp only [CmsisLwip.step] at ht
      split at ht
      · next _ queue hqueue =>
          obtain ⟨hpc, ht⟩ := Option.ite_none_right_eq_some.mp ht
          cases ht
          exact (h.rest queue s.err).goto (.inl hpc) (.inr rfl)
      · cases ht
  | sendTo reply =>
      obtain ⟨hpc, ht⟩ := Option.ite_none_right_eq_some.mp ht
      cases ht
      exact h.sendTo hpc reply
  | recvTask =>
      obtain ⟨-, ht⟩ := Option.ite_none_right_eq_some.mp ht
      cases ht
      exact h.recvTask
  | recvCall =>
      obtain ⟨-, ht⟩ := Option.ite_none_right_eq_some.mp ht
      cases ht
      exact h.receive true id
  | recvReturn reply =>
      obtain ⟨⟨hthread, -⟩, ht⟩ := Option.ite_none_right_eq_some.mp ht
      cases ht
      exact (h.receive false fun _ => hthread).put _

theorem Inv.recvCall (h : Inv s) (hok : Orderly s .recvCall)
    (ht : CmsisLwip.step s .recvCall = some t) :
    ∃ id, s.recvTaskId = some id ∧ s.recvSocket = some id := by
  obtain ⟨⟨hthread, hread, -⟩, -⟩ := Option.ite_none_right_eq_some.mp ht
  obtain ⟨id, hid⟩ := Option.ne_none_iff_exists'.mp hread
  refine ⟨id, hid, ?_⟩
  by_cases hpc : s.pc = .terminate
  · obtain ⟨hzero, hne⟩ := hok hpc
    rcases h.left hthread hpc with ⟨hclosed, -⟩ | ⟨-, socket, -, hown, htask⟩
    · exact absurd hclosed hzero
    · rcases htask id hid with rfl | rfl
      · exact hown
      · exact absurd hid hne
  · have hserves := h.serves hthread hpc
    exact (hserves.task id hid) ▸ hserves.own

theorem Inv.sound (h : Inv s) (hok : Orderly s a) (ht : CmsisLwip.step s a = some t) :
    Sound s a t := by
  have hafter := h.step hok ht
  refine ⟨fun hid => ⟨hafter.own hid, hafter.live _ (.inl (hafter.own hid))⟩, ?_⟩
  rintro rfl
  obtain ⟨id, hread, hown⟩ := h.recvCall hok ht
  exact ⟨id, hread, hown, h.live id (.inr hown)⟩

/-- The id that is left after a close is that of no socket. -/
theorem not_sound (h : Inv s) (ht : step s a = some t) (hbad : ¬ Orderly s a) :
    ¬ Sound s a t := by
  intro hsound
  cases a with
  | closeSend answer =>
      obtain ⟨hpc, ht⟩ := Option.ite_none_right_eq_some.mp ht
      cases ht
      have hown := h.own (h.found hpc)
      have hzero : s.stack.answer s.sendSocketId answer.val = 0 :=
        (if_pos (h.live _ (.inl hown))).trans (not_not.mp hbad)
      obtain ⟨hnoted, -⟩ := hsound.send hzero.ge
      have hnone : (s.closeSend answer).sendSocket = none := if_pos ⟨hzero, hown⟩
      exact absurd (hnone.symm.trans hnoted) nofun
  | recvCall =>
      obtain ⟨⟨hthread, -, -⟩, -⟩ := Option.ite_none_right_eq_some.mp ht
      obtain ⟨hpc, hleft⟩ := Classical.not_imp.mp hbad
      obtain ⟨id, hread, hown, -⟩ := hsound.recv rfl
      rcases h.left hthread hpc with ⟨-, hnone⟩ | ⟨hneg, socket, hge, hsocket, -⟩
      · exact absurd (hnone.symm.trans hown) nofun
      · -- The task has read what the close has answered.
        have htask : s.recvTaskId = some s.recvSocketId := by
          by_contra hne
          exact hleft ⟨hneg.ne, hne⟩
        obtain rfl : id = s.recvSocketId := Option.some.inj (hread.symm.trans htask)
        obtain rfl : socket = s.recvSocketId := Option.some.inj (hsocket.symm.trans hown)
        exact absurd hge (not_le.mpr hneg)
  | _ => exact hbad trivial

/-- In every order of the steps, the example sends to its own socket and receives from its own one
exactly as long as no loss of the network closes the socket it sends to, and the receive task makes
no call between the close of its socket and its own end. -/
theorem sound_always_iff (acts : List Action) :
    Steps step Sound init acts ↔ Meets step Orderly init acts :=
  steps_iff_meets Inv (fun _ _ _ h hok ht => h.step hok ht) (fun _ _ _ h hok ht => h.sound hok ht)
    (fun _ _ _ h ht hbad => not_sound h ht hbad) inv_init acts

/-! ## After a loss of the network -/

structure Lost (s : State) : Prop where
  live : Live s
  thread : s.lost = true → s.recvThread = false
  found : s.pc = .closeSend → 0 ≤ s.sendSocketId
  err : s.lost = true ∨ s.pc = .closeRecv ∨ s.pc = .terminate →
    s.sendSocketId = iotSocketEsock → s.err ≠ 0
  closed : s.pc = .get ∨ s.pc = .closeSend → 0 ≤ s.sendSocketId →
    s.stack.isOpen s.sendSocketId = false → s.err ≠ 0 -- the error of the last `iotSocketSendTo`
  alive : s.recvThread = true → s.sendSocketId ≠ iotSocketEsock ∨ s.pc = .closeRecv ∨
    s.pc = .terminate

theorem lost_init : Lost init := ⟨nofun, nofun, nofun, nofun, nofun, nofun⟩

theorem Lost.rest (h : Lost s) (queue : List NetMsg) (recvTaskId : Option ℤ) (receiving : Bool) :
    Lost { s with queue := queue, recvTaskId := recvTaskId, receiving := receiving } :=
  ⟨h.live, h.thread, h.found, h.err, h.closed, h.alive⟩

theorem Lost.put (h : Lost s) (msg : NetMsg) : Lost (s.put msg) := by
  unfold State.put
  split
  · exact h.rest ..
  · exact h

theorem Lost.alive_get (h : Lost s) (hpc : s.pc = .get) (hthread : s.recvThread = true) :
    s.sendSocketId ≠ iotSocketEsock := by
  rcases h.alive hthread with hid | hpc' | hpc'
  · exact hid
  · exact absurd (hpc.symm.trans hpc') nofun
  · exact absurd (hpc.symm.trans hpc') nofun

theorem Lost.handled (h : Lost s) (hpc : s.pc = .get) : Lost s.handled :=
  ⟨h.live, h.thread, nofun, fun hlost => h.err (hlost.imp_right (·.elim nofun nofun)), nofun,
    fun hthread => .inl (h.alive_get hpc hthread)⟩

theorem Lost.networkUp (h : Lost s) (hpc : s.pc = .get) (answers : UpAnswers) :
    Lost (s.networkUp answers).handled := by
  rcases networkUp_cases h.live answers with ⟨heq, -⟩ | ⟨hid, hzero, hlost, -, hpair, hsend, -⟩ |
    ⟨hid, herr, hthread, hlive, -⟩
  · rw [heq]
    exact h.handled hpc
  · have hnot : (s.networkUp answers).lost ≠ true := by
      rw [hlost]
      exact fun hl => h.err (.inl hl) hid hzero
    have hsome : (s.networkUp answers).sendSocketId ≠ iotSocketEsock := by
      intro heq
      exact absurd (heq ▸ hsend) (by decide)
    exact ⟨hpair.live, fun hl => absurd hl hnot, nofun, fun _ heq => absurd heq hsome, nofun,
      fun _ => .inl hsome⟩
  · have hnone := hthread (Bool.eq_false_iff.mpr fun hsome => h.alive_get hpc hsome hid)
    refine ⟨hlive, fun _ => hnone, nofun, fun _ _ => herr, nofun, fun hsome => ?_⟩
    exact absurd (hnone.symm.trans hsome) nofun

theorem Lost.networkDown (h : Lost s) (hpc : s.pc = .get) : Lost s.networkDown := by
  unfold State.networkDown
  split
  · next hid =>
      exact ⟨h.live, h.thread, fun _ => hid,
        fun hlost => h.err (hlost.imp_right (·.elim nofun nofun)), fun _ => h.closed (.inl hpc),
        fun hthread => .inl (h.alive_get hpc hthread)⟩
  · exact h.handled hpc

theorem Lost.closeSend (h : Lost s) (hpc : s.pc = .closeSend) (answer : CloseAnswer) :
    Lost (s.closeSend answer) := by
  refine ⟨h.live.close s.sendSocketId answer, h.thread, nofun, fun _ hesock => ?_, ?_,
    fun _ => .inr (.inl rfl)⟩
  · -- Only a socket that was closed before is answered so.
    cases hopen : s.stack.isOpen s.sendSocketId with
    | true =>
        have hanswer : s.stack.answer s.sendSocketId answer.val = answer.val := if_pos hopen
        exact absurd (hanswer.symm.trans hesock) answer.property.2
    | false => exact h.closed (.inr hpc) (h.found hpc) hopen
  · rintro (hget | hclose)
    · cases hget
    · cases hclose

theorem Lost.closeRecv (h : Lost s) (hpc : s.pc = .closeRecv) (answer : CloseAnswer) :
    Lost (s.closeRecv answer) := by
  refine ⟨h.live.close s.recvSocketId answer, h.thread, nofun,
    fun _ => h.err (.inr (.inl hpc)), ?_, fun _ => .inr (.inr rfl)⟩
  rintro (hget | hclose)
  · cases hget
  · cases hclose

theorem Lost.terminate (h : Lost s) (hpc : s.pc = .terminate) : Lost s.terminate.handled :=
  ⟨h.live, fun _ => rfl, nofun, fun _ => h.err (.inr (.inr hpc)), nofun, nofun⟩

theorem Lost.sendTo (h : Lost s) (hpc : s.pc = .send) (reply : ℤ) : Lost (s.sendTo reply) := by
  have halive : s.recvThread = true → s.sendSocketId ≠ iotSocketEsock := by
    intro hthread
    rcases h.alive hthread with hid | hpc' | hpc'
    · exact hid
    · exact absurd (hpc.symm.trans hpc') (by decide)
    · exact absurd (hpc.symm.trans hpc') (by decide)
  unfold State.sendTo
  dsimp only
  split
  · next hid =>
      refine ⟨h.live, h.thread, (by simp), fun _ hesock => ?_, fun _ _ hopen => ?_,
        fun hthread => .inl (halive hthread)⟩
      · exact absurd (hesock ▸ hid) (by decide)
      · have hanswer : s.stack.answer s.sendSocketId reply = iotSocketEsock := by
          rw [Stack.answer, if_neg (Bool.eq_false_iff.mp hopen)]
        exact fun hzero => absurd (hanswer.symm.trans hzero) (by decide)
  · next hid =>
      exact ⟨h.live, h.thread, (by simp),
        fun hlost => h.err (hlost.imp_right fun hpc' => absurd hpc' (by simp)),
        fun _ hge => absurd hge hid, fun hthread => .inl (halive hthread)⟩

theorem Lost.step (h : Lost s) (ht : step s a = some t) : Lost t := by
  cases a with
  | network up =>
      cases ht
      exact h.put _
  | timeout =>
      obtain ⟨hpc, ht⟩ := Option.ite_none_right_eq_some.mp ht
      cases ht
      exact h.handled hpc
  | up answers =>
      simp only [CmsisLwip.step] at ht
      split at ht
      · next queue hqueue =>
          obtain ⟨hpc, ht⟩ := Option.ite_none_right_eq_some.mp ht
          cases ht
          exact (h.rest queue s.recvTaskId s.receiving).networkUp hpc answers
      · cases ht
  | down =>
      simp only [CmsisLwip.step] at ht
      split at ht
      · next queue hqueue =>
          obtain ⟨hpc, ht⟩ := Option.ite_none_right_eq_some.mp ht
          cases ht
          exact (h.rest queue s.recvTaskId s.receiving).networkDown hpc
      · cases ht
  | closeSend answer =>
      obtain ⟨hpc, ht⟩ := Option.ite_none_right_eq_some.mp ht
      cases ht
      exact h.closeSend hpc answer
  | closeRecv answer =>
      obtain ⟨hpc, ht⟩ := Option.ite_none_right_eq_some.mp ht
      cases ht
      exact h.closeRecv hpc answer
  | terminate =>
      obtain ⟨hpc, ht⟩ := Option.ite_none_right_eq_some.mp ht
      cases ht
      exact h.terminate hpc
  | dataReceived =>
      simp only [CmsisLwip.step] at ht
      split at ht
      · next _ queue hqueue =>
          obtain ⟨hpc, ht⟩ := Option.ite_none_right_eq_some.mp ht
          cases ht
          exact (h.rest queue s.recvTaskId s.receiving).handled hpc
      · cases ht
  | sendTo reply =>
      obtain ⟨hpc, ht⟩ := Option.ite_none_right_eq_some.mp ht
      cases ht
      exact h.sendTo hpc reply
  | recvTask =>
      obtain ⟨-, ht⟩ := Option.ite_none_right_eq_some.mp ht
      cases ht
      exact h.rest s.queue _ s.receiving
  | recvCall =>
      obtain ⟨-, ht⟩ := Option.ite_none_right_eq_some.mp ht
      cases ht
      exact h.rest s.queue s.recvTaskId true
  | recvReturn reply =>
      obtain ⟨⟨hthread, -⟩, ht⟩ := Option.ite_none_right_eq_some.mp ht
      cases ht
      have hfound (hl : s.lost = true) : False := nomatch hthread.symm.trans (h.thread hl)
      have hafter : Lost { s with receiving := false, recvThread := decide (0 ≤ reply) } :=
        ⟨h.live, fun hl => (hfound hl).elim, h.found, h.err, h.closed, fun _ => h.alive hthread⟩
      exact hafter.put _

/-- In every order of the steps, the example receives nothing any more once the network has gone
down under its sockets or it has failed to set them up, however often the network comes up. -/
theorem deaf_always (acts : List Action) :
    Always step (fun s => s.lost = true → s.recvThread = false) init acts :=
  .of_inductive Lost (fun _ _ _ h ht => h.step ht) (fun _ h => h.thread) lost_init acts

end OpenIotSdk.CmsisLwip
