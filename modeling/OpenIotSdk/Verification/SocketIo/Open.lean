import OpenIotSdk.Verification.SocketIo.Semantics
import OpenIotSdk.Verification.SocketIo.Integrity

/-! # Failures of `socketio_open`

All failures share one label, which destroys the connection of the instance and sets it to
null, whether or not this call made it. -/

namespace OpenIotSdk.SocketIo.Open

variable {api : SinglyLinkedList ℕ} {β : Type}

/-- A call that fails leaves the instance and a connection that it held as they were, it
passes a socket that it created to `iotSocketClose`, and no field is read through null. -/
structure Unharmed (handle : Option (State api β)) (tcp : Tcp) (replies : OpenReplies)
    (o : Opened api β) : Prop where
  instanceKept : o.ok = false → o.handle = handle
  connectionKept : o.ok = false → ∀ s, handle = some s → s.connection = true → o.tcp = tcp
  passed : o.ok = false →
    ∀ id, o.tcp.stack.unclosed id = true → tcp.stack.unclosed id = true
  closed : o.ok = false → replies.closed = 0 →
    ∀ id, o.tcp.stack.isOpen id = true → tcp.stack.isOpen id = true
  notRead : o.nullRead = false

/-- The handle is not null, and the instance holds no connection or gets one. -/
def Harmless (handle : Option (State api β)) (tcp : Tcp) (replies : OpenReplies) : Prop :=
  ∃ s, handle = some s ∧
    (s.connection = false ∨ s.ioState = .closed ∧ Connects tcp replies)

/-! ## The socket of a failed call -/

/-- The new socket is passed to `iotSocketClose`, and nothing else is. -/
theorem destroy_create {tcp : Tcp} {reply : ℤ} (h : tcp.creates reply = true) (closed : ℤ) :
    (∀ id, ((tcp.create reply).destroy true closed).stack.unclosed id = true →
        tcp.stack.unclosed id = true) ∧
      (closed = 0 → ∀ id, ((tcp.create reply).destroy true closed).stack.isOpen id = true →
        tcp.stack.isOpen id = true) := by
  have hid : 0 ≤ tcp.stack.created reply := by
    simpa [TcpSocketConnection.State.creates] using h
  have hcreate : tcp.create reply = { tcp with
      id := tcp.stack.created reply
      stack := tcp.stack.iotSocketCreate reply } := if_neg (Int.not_lt.mpr hid)
  have hesock : tcp.stack.created reply ≠ iotSocketEsock := by
    intro heq
    exact absurd (heq ▸ hid) (by decide)
  have hstack : ((tcp.create reply).destroy true closed).stack =
      (tcp.stack.iotSocketCreate reply).iotSocketClose (tcp.stack.created reply) closed := by
    simp only [hcreate, TcpSocketConnection.State.destroy, hesock, ne_eq, not_false_eq_true,
      if_true]
    split
    · cases ‹_ = _›
    · split <;> rfl
  have hnew : tcp.stack.iotSocketCreate reply = ⟨Function.update tcp.stack.isOpen _ true,
      Function.update tcp.stack.connected _ false, Function.update tcp.stack.unclosed _ true⟩ :=
    if_neg (Int.not_lt.mpr hid)
  rw [hstack, hnew]
  constructor
  · intro id hun
    by_cases heq : id = tcp.stack.created reply
    · simp only [Stack.iotSocketClose, heq] at hun
      split at hun <;> simp at hun
    · simp only [Stack.iotSocketClose] at hun
      split at hun <;> simpa [Function.update_of_ne heq] using hun
  · intro hclosed id hopen
    by_cases heq : id = tcp.stack.created reply
    · simp [Stack.iotSocketClose, Stack.answer, heq, hclosed] at hopen
    · simpa [Stack.iotSocketClose, Stack.answer, hclosed, Function.update_of_ne heq] using hopen

/-! ## One call -/

theorem unharmed_of_ok {handle : Option (State api β)} {tcp : Tcp} {replies : OpenReplies}
    {o : Opened api β} (hok : o.ok = true) (hread : o.nullRead = false) :
    Unharmed handle tcp replies o := by
  have hfails : o.ok ≠ false := by
    simp [hok]
  exact ⟨fun h => absurd h hfails, fun h => absurd h hfails, fun h => absurd h hfails,
    fun h => absurd h hfails, hread⟩

section

variable {s : State api β} {tcp : Tcp} {replies : OpenReplies} {onBytesReceived onIoError : Bool}

theorem unharmed_of_no_connection (hconn : s.connection = false) :
    Unharmed (some s) tcp replies
      (socketioOpen (some s) tcp replies onBytesReceived onIoError) := by
  have hs : { s with connection := false } = s := by
    rw [← hconn]
  have hnone : ∀ t, some s = some t → t.connection = true → False := by
    intro t ht htrue
    cases ht
    simp [hconn] at htrue
  by_cases hclosed : s.ioState = .closed
  · cases hcreate : tcp.creates replies.created with
    | false =>
        rw [open_notCreated s tcp replies _ _ hclosed hcreate, hs, create_of_not_creates hcreate]
        exact ⟨fun _ => rfl, fun _ _ _ _ => rfl, fun _ _ => id, fun _ _ _ => id, rfl⟩
    | true =>
        cases hconnect :
            (tcp.create replies.created).connects true replies.host replies.connected with
        | false =>
            rw [open_notConnected s tcp replies _ _ hclosed hcreate hconnect, hs,
              connect_of_not_connects hconnect]
            obtain ⟨hpassed, hgone⟩ := destroy_create hcreate replies.closed
            exact ⟨fun _ => rfl, fun _ t ht htrue => (hnone t ht htrue).elim, fun _ => hpassed,
              fun _ => hgone, rfl⟩
        | true =>
            rw [open_ok s tcp replies _ _ hclosed ⟨hcreate, hconnect⟩]
            exact unharmed_of_ok rfl rfl
  · rw [open_wrongState s tcp replies _ _ hclosed, openFailed_eq, hconn, hs]
    exact ⟨fun _ => rfl, fun _ _ _ _ => rfl, fun _ _ => id, fun _ _ _ => id, rfl⟩

end

/-- For every handle, every state of the instance and of the record, and every answer of
the stack. -/
theorem unharmed_iff_harmless (handle : Option (State api β)) (tcp : Tcp) (replies : OpenReplies)
    (onBytesReceived onIoError : Bool) :
    Unharmed handle tcp replies
      (socketioOpen handle tcp replies onBytesReceived onIoError) ↔
      Harmless handle tcp replies := by
  cases handle with
  | none =>
      constructor
      · intro h
        exact absurd h.notRead (by simp [socketioOpen])
      · rintro ⟨s, hs, -⟩
        cases hs
  | some s =>
      constructor
      · intro h
        refine ⟨s, rfl, ?_⟩
        by_cases hok : s.ioState = .closed ∧ Connects tcp replies
        · exact .inr hok
        · obtain ⟨tcp', ho⟩ := open_failed s tcp replies onBytesReceived onIoError hok
          rw [ho] at h
          have hkept := h.instanceKept rfl
          rw [Option.some.injEq] at hkept
          exact .inl (congrArg State.connection hkept).symm
      · rintro ⟨t, ht, hconn | ⟨hclosed, hconnects⟩⟩
        · cases ht
          exact unharmed_of_no_connection hconn
        · cases ht
          rw [open_ok s tcp replies _ _ hclosed hconnects]
          exact unharmed_of_ok rfl rfl

/-- An instance that was opened successfully. -/
def openInstance : Opened lists Bool :=
  socketioOpen (some (socketioCreate lists Bool)) TcpSocketConnection.init ⟨0, 0, 0, 0⟩ true true

/-- The open instance is opened once more. -/
theorem reopened_harmed :
    ¬ ∀ (handle : Option (State lists Bool)) (tcp : Tcp) (replies : OpenReplies),
      Unharmed handle tcp replies (socketioOpen handle tcp replies true true) := by
  intro h
  have hkept := (h openInstance.handle openInstance.tcp ⟨1, 0, 0, 0⟩).instanceKept rfl
  exact absurd (congrArg (Option.map State.connection) hkept) (by decide)

end OpenIotSdk.SocketIo.Open
