import OpenIotSdk.Model.Azure.SocketIoInstances

/-! # What one step of an instance can do

Every step has one of the effects below on the instance, its past and the record. The other
modules about instances use these rules only. -/

namespace OpenIotSdk.SocketIo

variable {api : SinglyLinkedList ℕ} {β : Type}

def State.fails (s : State api β) : List (Item β) :=
  if s.ioState = .closed ∨ s.ioState = .error then []
  else if s.onIoError then [.callback .ioError] else []

def State.failedState (s : State api β) : IoState :=
  if s.ioState = .closed then .closed else .error

def completes (context : Option ℕ) (ok : Bool) : List (Item β) :=
  context.toList.map fun call => .callback (.sendComplete call ok)

def Instance.context (x : Instance api β) (callback : Bool) : Option ℕ :=
  if callback then some x.calls else none

def State.result (s : State api β) (reply : ℤ) (e : PendingSocketIo β) : ℤ :=
  s.tcpsocketconnectionSend reply (toInt32 e.size)

def Connects (tcp : Tcp) (replies : OpenReplies) : Prop :=
  tcp.creates replies.created = true ∧
    (tcp.create replies.created).connects true replies.host replies.connected = true

instance (tcp : Tcp) (replies : OpenReplies) : Decidable (Connects tcp replies) :=
  inferInstanceAs (Decidable (_ ∧ _))

inductive Effect (tcp : Tcp) (x : Instance api β) (s : State api β) :
    Op β → Tcp → Instance api β → Prop where
  | opened {replies onBytesReceived onIoError} (hpc : s.pc = .idle)
      (hclosed : s.ioState = .closed) (hconnects : Connects tcp replies) :
      Effect tcp x s (.open replies onBytesReceived onIoError)
        ((tcp.create replies.created).connect true replies.host replies.connected)
        { x with
          handle := some { s with
            connection := true
            onBytesReceived := onBytesReceived
            onIoError := onIoError
            ioState := .open }
          history :=
            .opened ((tcp.create replies.created).connect true replies.host replies.connected).id ::
              x.history }
  | openFailed {replies onBytesReceived onIoError tcp'} (hpc : s.pc = .idle)
      (hfailed : ¬ (s.ioState = .closed ∧ Connects tcp replies))
      (htcp : tcp' = (socketioOpen (some s) tcp replies onBytesReceived onIoError).tcp) :
      Effect tcp x s (.open replies onBytesReceived onIoError) tcp'
        { x with
          handle := some { s with connection := false }
          history := (if s.connection then [.dropped] else []) ++ x.history }
  | close {closed destroyed} (hpc : s.pc ≠ .loop) :
      Effect tcp x s (.close closed destroyed) (s.closeTcp tcp closed destroyed)
        { x with handle := some s.closeTcpConnection, history := s.drops ++ x.history }
  | destroy {closed destroyed} (hpc : s.pc = .idle) :
      Effect tcp x s (.destroy closed destroyed) (s.closeTcp tcp closed destroyed)
        { x with handle := none, history := s.drops ++ x.history }
  | rejected {buffer callback entry} (hpc : s.pc ≠ .loop) (hq : s.queues buffer entry = none) :
      Effect tcp x s (.send buffer callback entry) tcp
        { x with
          handle := some s
          calls := x.calls + 1
          history := completes (x.context callback) false ++
            ((x.context callback).toList.map .called ++ x.history) }
  | queued {buffer callback p} (hpc : s.pc ≠ .loop) (hp : s.fresh (some p) = true)
      (hlen : buffer.length ≠ 0) (hopen : s.ioState = .open) :
      Effect tcp x s (.send (some buffer) callback (some p)) tcp
        { x with
          handle := some (s.addPendingIo buffer (x.context callback) p)
          calls := x.calls + 1
          history := completes (x.context callback) true ++ (.queued (x.context callback) buffer ::
            ((x.context callback).toList.map .called ++ x.history)) }
  | dowork (hpc : s.pc = .idle) :
      Effect tcp x s .dowork tcp
        { x with
          handle := some (s.goto (if s.ioState = .open then .loop else .idle))
          test := false }
  | drained {reply} (hpc : s.pc = .loop) (hhead : api.headItem s.pendingIoList = none) :
      Effect tcp x s (.sendNext reply) tcp { x with handle := some (s.goto .receive) }
  | completed {reply p e} (hpc : s.pc = .loop) (hhead : api.headItem s.pendingIoList = some p)
      (he : s.heap p = some e) (hall : s.result reply e = toInt32 e.size) (short : ℕ) :
      Effect tcp x s (.sendNext reply) tcp
        { x with
          handle := some { s with
            accepted := s.accepted ++ e.bytes.take (s.result reply e).toNat
            heap := Function.update s.heap p none
            short := short
            pc := .remove }
          history := completes e.onSendComplete true ++ (s.sends tcp.id reply ++ x.history) }
  | sendFailed {reply p e} (hpc : s.pc = .loop) (hhead : api.headItem s.pendingIoList = some p)
      (he : s.heap p = some e) (hsome : s.result reply e ≠ toInt32 e.size)
      (hneg : s.result reply e < 0) :
      Effect tcp x s (.sendNext reply) tcp
        { x with
          handle := some { s with ioState := s.failedState, pc := .receive }
          history := s.fails ++ (s.sends tcp.id reply ++ x.history) }
  | sentPart {reply p e} (hpc : s.pc = .loop) (hhead : api.headItem s.pendingIoList = some p)
      (he : s.heap p = some e) (hsome : s.result reply e ≠ toInt32 e.size)
      (hpos : 0 ≤ s.result reply e) :
      Effect tcp x s (.sendNext reply) tcp
        { x with
          handle := some { s with
            accepted := s.accepted ++ e.bytes.take (s.result reply e).toNat
            heap := Function.update s.heap p (some (State.moved
              { e with taken := e.taken + (s.result reply e).toNat } (s.result reply e).toNat))
            pc := .loop }
          history := s.sends tcp.id reply ++ x.history }
  | removed (hpc : s.pc = .remove) :
      Effect tcp x s (.remove true) tcp
        { x with
          handle := some { s with pendingIoList := api.removeHead s.pendingIoList, pc := .loop } }
  | removeFailed (hpc : s.pc = .remove) :
      Effect tcp x s (.remove false) tcp
        { x with
          handle := some { s with ioState := s.failedState, pc := .receive }
          history := s.fails ++ x.history }
  | loopEnd {reply} (hpc : s.pc = .receive) (htest : x.test = true)
      (hclosed : s.ioState ≠ .open) :
      Effect tcp x s (.receive reply) tcp
        { x with handle := some (s.goto .idle), test := false }
  | data {reply : Except ℤ (List β)} {data : List β} (hpc : s.pc = .receive)
      (hreply : reply = .ok data) (hdata : data ≠ []) (hconn : s.connection = true)
      (hflag : s.isConnected = true) :
      Effect tcp x s (.receive reply) tcp
        { x with
          handle := some (s.goto (if s.ioState = .open then .receive else .idle))
          test := decide (s.ioState = .open)
          history := (if s.onBytesReceived then [.callback (.bytesReceived data)] else []) ++
            (.received tcp.id reply :: x.history) }
  | receiveFailed {reply} (hpc : s.pc = .receive)
      (hreply : s.connection = true → s.isConnected = true →
        reply = .ok [] ∨ ∃ code, reply = .error code ∧ code ≠ iotSocketEagain) :
      Effect tcp x s (.receive reply) tcp
        { x with
          handle := some { s with ioState := s.failedState, pc := .idle }
          test := false
          history := s.fails ++ (s.receives tcp.id reply ++ x.history) }
  | noData {reply} (hpc : s.pc = .receive) (hreply : reply = .error iotSocketEagain)
      (hconn : s.connection = true) (hflag : s.isConnected = true) :
      Effect tcp x s (.receive reply) tcp
        { x with
          handle := some (s.goto .idle)
          test := false
          history := .received tcp.id reply :: x.history }

/-! ## The items of a step -/

/-- Closing a closed instance does nothing. -/
theorem close_cases (s : State api β) :
    s.ioState = .closed ∧ s.closeTcpConnection = s ∧ s.drops = [] ∨
      s.ioState ≠ .closed ∧
        s.closeTcpConnection = { s with connection := false, ioState := .closed } := by
  by_cases hclosed : s.ioState = .closed
  · refine .inl ⟨hclosed, if_neg (not_not.mpr hclosed), if_neg ?_⟩
    exact fun h => h.1 hclosed
  · exact .inr ⟨hclosed, if_pos hclosed⟩

theorem fails_cases (s : State api β) :
    s.fails = [] ∨ s.fails = [.callback .ioError] ∧ s.ioState ≠ .closed ∧ s.ioState ≠ .error := by
  dsimp only [State.fails]
  split
  · exact .inl rfl
  · next hloud =>
      split
      · exact .inr ⟨rfl, not_or.mp hloud⟩
      · exact .inl rfl

theorem sends_eq {s : State api β} {p : ℕ} {e : PendingSocketIo β}
    (hhead : api.headItem s.pendingIoList = some p) (he : s.heap p = some e) (socket reply : ℤ) :
    s.sends socket reply = if s.connection = true ∧ s.isConnected = true then
      [.sent socket e.onSendComplete (e.bytes.take (toInt32 e.size % 2 ^ 32).toNat)
        (s.result reply e)] else [] := by
  have hentry : s.headEntry = some e := by
    rw [State.headEntry, hhead]
    exact he
  simp only [State.sends, hentry]
  rfl

theorem mem_sends {s : State api β} {socket reply : ℤ} {a : Item β}
    (h : a ∈ s.sends socket reply) :
    ∃ p e, api.headItem s.pendingIoList = some p ∧ s.heap p = some e ∧
      s.connection = true ∧ s.isConnected = true ∧
      a = .sent socket e.onSendComplete (e.bytes.take (toInt32 e.size % 2 ^ 32).toNat)
        (s.result reply e) := by
  cases hentry : s.headEntry with
  | none => simp [State.sends, hentry] at h
  | some e =>
      obtain ⟨p, hhead, he⟩ := Option.bind_eq_some_iff.mp hentry
      rw [sends_eq hhead he] at h
      split at h
      · next hlive => exact ⟨p, e, hhead, he, hlive.1, hlive.2, List.mem_singleton.mp h⟩
      · cases h

theorem mem_receives {s : State api β} {socket : ℤ} {reply : Except ℤ (List β)} {a : Item β}
    (h : a ∈ s.receives socket reply) :
    s.connection = true ∧ s.isConnected = true ∧ a = .received socket reply := by
  dsimp only [State.receives] at h
  split at h
  · next hlive => exact ⟨hlive.1, hlive.2, List.mem_singleton.mp h⟩
  · cases h

section

/-! What holds of every item of one kind holds of the items of a step. -/

variable {P : Item β → Prop} {s : State api β}

theorem forall_ite {c : Prop} [Decidable c] {a : Item β} (h : P a) :
    ∀ b ∈ if c then [a] else [], P b := by
  split
  · exact List.forall_mem_singleton.mpr h
  · exact List.forall_mem_nil P

theorem forall_completes {context : Option ℕ} {ok : Bool}
    (h : ∀ call, P (.callback (.sendComplete call ok))) : ∀ a ∈ completes context ok, P a := by
  intro a ha
  obtain ⟨call, -, rfl⟩ := List.mem_map.mp ha
  exact h call

theorem forall_called {context : Option ℕ} (h : ∀ call, P (.called call)) :
    ∀ a ∈ context.toList.map Item.called, P a := by
  intro a ha
  obtain ⟨call, -, rfl⟩ := List.mem_map.mp ha
  exact h call

theorem forall_drops (h : P .dropped) : ∀ a ∈ s.drops, P a :=
  forall_ite h

theorem forall_fails (h : P (.callback .ioError)) : ∀ a ∈ s.fails, P a := by
  rcases fails_cases s with hnone | ⟨hone, -⟩
  · rw [hnone]
    exact List.forall_mem_nil P
  · rw [hone]
    exact List.forall_mem_singleton.mpr h

theorem forall_sends {socket reply : ℤ}
    (h : ∀ call bytes result, P (.sent socket call bytes result)) :
    ∀ a ∈ s.sends socket reply, P a := by
  intro a ha
  obtain ⟨p, e, -, -, -, -, rfl⟩ := mem_sends ha
  exact h _ _ _

theorem forall_receives {socket : ℤ} {reply : Except ℤ (List β)} (h : P (.received socket reply)) :
    ∀ a ∈ s.receives socket reply, P a :=
  forall_ite h

end

/-! ## Callbacks -/

theorem indicateError_eq_events (s : State api β) (hevents : s.events = []) (pc : Pc) :
    s.indicateError.goto pc = { s with
      ioState := s.failedState
      events := (s.indicateError.goto pc).events
      pc := pc } ∧
    (s.indicateError.goto pc).events.map Item.callback = s.fails := by
  dsimp only [State.indicateError, State.failedState, State.fails]
  by_cases hquiet : s.ioState = .closed ∨ s.ioState = .error
  · rw [if_pos hquiet, if_pos hquiet]
    refine ⟨?_, by simp [State.goto, hevents]⟩
    rcases hquiet with h | h <;> simp [State.goto, h]
  · rw [if_neg hquiet, if_neg hquiet]
    rw [not_or] at hquiet
    split <;> simp [State.goto, hevents, hquiet.1]

theorem become_indicateError (x : Instance api β) (s : State api β) (hevents : s.events = [])
    (pc : Pc) (items : List (Item β)) :
    x.become (s.indicateError.goto pc) items =
      { x with
        handle := some { s with ioState := s.failedState, pc := pc }
        history := s.fails ++ (items ++ x.history) } := by
  obtain ⟨hstate, hfails⟩ := indicateError_eq_events s hevents pc
  -- There is at most one callback.
  have hshort : s.fails.reverse = s.fails := by
    dsimp only [State.fails]
    split
    · rfl
    · split <;> rfl
  dsimp only [Instance.become]
  rw [hfails, hshort, hstate, List.append_assoc]
  simp [hevents]

theorem become_sendComplete (x : Instance api β) (s : State api β) (hevents : s.events = [])
    (context : Option ℕ) (ok : Bool) (items : List (Item β)) :
    x.become (s.sendComplete context ok) items =
      { x with
        handle := some s
        history := completes context ok ++ (items ++ x.history) } := by
  have hs : { s with events := [] } = s := by
    rw [← hevents]
  cases context with
  | none => simp [Instance.become, State.sendComplete, completes, hevents, hs]
  | some call => simp [Instance.become, State.sendComplete, completes, hevents, hs]

theorem become_quiet (x : Instance api β) (s : State api β) (hevents : s.events = [])
    (items : List (Item β)) :
    x.become s items = { x with handle := some s, history := items ++ x.history } := by
  have hs : { s with events := [] } = s := by
    rw [← hevents]
  simp [Instance.become, hevents, hs]

/-! ## Sending -/

theorem queues_eq_some {s : State api β} {buffer : Option (List β)} {entry : Option ℕ}
    {bytes : List β} (h : s.queues buffer entry = some bytes) :
    buffer = some bytes ∧ (∃ p, entry = some p) ∧ bytes.length ≠ 0 ∧ s.ioState = .open := by
  cases buffer with
  | none => cases h
  | some buffer =>
      cases entry with
      | none => cases h
      | some p =>
          obtain ⟨hok, hbytes⟩ := Option.ite_none_left_eq_some.mp h
          cases hbytes
          rw [not_or, not_not] at hok
          exact ⟨rfl, ⟨p, rfl⟩, hok⟩

theorem socketioSend_rejected {s : State api β} {buffer : Option (List β)} {entry : Option ℕ}
    (h : s.queues buffer entry = none) (context : Option ℕ) :
    s.socketioSend buffer context entry = s.sendComplete context false := by
  cases buffer with
  | none => rfl
  | some buffer =>
      cases entry with
      | none => rfl
      | some p =>
          dsimp only [State.queues] at h
          dsimp only [State.socketioSend]
          split at h
          · next hbad => exact if_pos hbad
          · cases h

theorem send_effect {tcp : Tcp} {x x' : Instance api β} {s : State api β}
    (hevents : s.events = []) {buffer : Option (List β)} {callback : Bool} {entry : Option ℕ}
    (h : x.send s buffer callback entry = some x') :
    Effect tcp x s (.send buffer callback entry) tcp x' := by
  obtain ⟨t, ht, rfl⟩ := Option.map_eq_some_iff.mp h
  obtain ⟨⟨hpc, hfresh⟩, ht⟩ := Option.ite_none_right_eq_some.mp ht
  cases ht
  clear h
  cases hq : s.queues buffer entry with
  | none =>
      simp only [socketioSend_rejected hq]
      rw [become_sendComplete x s hevents]
      exact .rejected hpc hq
  | some bytes =>
      obtain ⟨rfl, ⟨p, rfl⟩, hlen, hopen⟩ := queues_eq_some hq
      have hsend : ∀ context, s.socketioSend (some bytes) context (some p) =
          (s.addPendingIo bytes context p).sendComplete context true :=
        fun context => if_neg (by simp [hlen, hopen])
      simp only [hsend]
      rw [become_sendComplete x (s.addPendingIo bytes _ p) hevents]
      exact .queued hpc hfresh hlen hopen

def State.offer (s : State api β) (reply : ℤ) (e : PendingSocketIo β) : State api β :=
  { s with accepted := s.accepted ++ e.bytes.take (s.result reply e).toNat }

def State.offered (s : State api β) (reply : ℤ) (e : PendingSocketIo β) : PendingSocketIo β :=
  { e with taken := e.taken + (s.result reply e).toNat }

theorem sendNext_entry {s : State api β} {p : ℕ} {e : PendingSocketIo β}
    (hhead : api.headItem s.pendingIoList = some p) (he : s.heap p = some e) (reply : ℤ) :
    s.sendNext reply = some (
      if s.result reply e = toInt32 e.size then (s.offer reply e).complete p (s.offered reply e)
      else if s.result reply e < 0 then (s.offer reply e).indicateError.goto .receive
      else (((s.offer reply e).setEntry p
        (some (State.moved (s.offered reply e) (s.result reply e).toNat))).goto .loop)) := by
  simp only [State.sendNext, hhead, he, Option.map_some]
  rfl

theorem offer_error {s : State api β} {reply : ℤ} {e : PendingSocketIo β}
    (h : s.result reply e < 0) : s.offer reply e = s := by
  rw [State.offer, Int.toNat_of_nonpos (Int.le_of_lt h), List.take_zero, List.append_nil]

theorem become_complete (x : Instance api β) (s : State api β) (hevents : s.events = []) (p : ℕ)
    (e : PendingSocketIo β) (items : List (Item β)) :
    x.become (s.complete p e) items =
      { x with
        handle := some { s with
          heap := Function.update s.heap p none
          short := s.short + if e.taken = e.queued.length then 0 else 1
          pc := .remove }
        history := completes e.onSendComplete true ++ (items ++ x.history) } := by
  have hcallback := become_sendComplete x (s.setEntry p none) hevents e.onSendComplete true items
  dsimp only [Instance.become] at hcallback ⊢
  rw [Instance.mk.injEq] at hcallback
  obtain ⟨-, -, -, hhistory⟩ := hcallback
  dsimp only [State.complete]
  rw [hhistory]
  cases e.onSendComplete <;> simp [State.sendComplete, State.setEntry, hevents]

theorem sendNext_effect {tcp : Tcp} {x : Instance api β} {s t : State api β}
    (hevents : s.events = []) {reply : ℤ} (h : SocketIo.step s (.sendNext reply) = some t) :
    Effect tcp x s (.sendNext reply) tcp (x.become t (s.sends tcp.id reply)) := by
  obtain ⟨hpc, h⟩ := Option.ite_none_right_eq_some.mp h
  cases hhead : api.headItem s.pendingIoList with
  | none =>
      simp only [State.sendNext, hhead, Option.some.injEq] at h
      subst h
      have hsends : s.sends tcp.id reply = [] := by
        simp [State.sends, State.headEntry, hhead]
      rw [hsends, become_quiet x (s.goto .receive) hevents]
      exact .drained hpc hhead
  | some p =>
      cases he : s.heap p with
      | none => simp [State.sendNext, hhead, he] at h
      | some e =>
          rw [sendNext_entry hhead he, Option.some.injEq] at h
          subst h
          by_cases hall : s.result reply e = toInt32 e.size
          · rw [if_pos hall, become_complete x (s.offer reply e) hevents]
            exact .completed hpc hhead he hall _
          · rw [if_neg hall]
            by_cases hneg : s.result reply e < 0
            · rw [if_pos hneg, offer_error hneg, become_indicateError x s hevents]
              exact .sendFailed hpc hhead he hall hneg
            · have hquiet := become_quiet x (((s.offer reply e).setEntry p (some (State.moved
                (s.offered reply e) (s.result reply e).toNat))).goto .loop) hevents
              rw [if_neg hneg, hquiet]
              exact .sentPart hpc hhead he hall (Int.not_lt.mp hneg)

/-! ## Receiving -/

theorem become_receiveFailed (x : Instance api β) (s : State api β) (hevents : s.events = [])
    (items : List (Item β)) :
    ({ x.become (s.indicateError.goto .idle) items with
      test := decide ((s.indicateError.goto .idle).pc = .receive) } : Instance api β) =
      { x with
        handle := some { s with ioState := s.failedState, pc := .idle }
        test := false
        history := s.fails ++ (items ++ x.history) } := by
  rw [become_indicateError x s hevents]
  rfl

/-- Data is delivered, and the loop goes on while the instance is open. -/
theorem become_data (x : Instance api β) (s : State api β) (hevents : s.events = [])
    (data : List β) (items : List (Item β)) :
    let t : State api β := { s with
      events := if s.onBytesReceived then s.events ++ [.bytesReceived data] else s.events
      pc := if s.ioState = .open then .receive else .idle }
    ({ x.become t items with test := decide (t.pc = .receive) } : Instance api β) =
      { x with
        handle := some (s.goto (if s.ioState = .open then .receive else .idle))
        test := decide (s.ioState = .open)
        history := (if s.onBytesReceived then [.callback (.bytesReceived data)] else []) ++
          (items ++ x.history) } := by
  by_cases hcallback : s.onBytesReceived = true <;> by_cases hopen : s.ioState = .open <;>
    simp [Instance.become, State.goto, hevents, hcallback, hopen]

theorem receive_effect {tcp : Tcp} {x x' : Instance api β} {s : State api β}
    (hevents : s.events = []) {reply : Except ℤ (List β)}
    (h : x.receive s tcp.id reply = some x') : Effect tcp x s (.receive reply) tcp x' := by
  dsimp only [Instance.receive] at h
  split at h
  · next htest =>
      cases h
      rw [become_quiet x (s.goto .idle) hevents]
      exact .loopEnd htest.2.1 htest.1 htest.2.2
  · obtain ⟨t, ht, rfl⟩ := Option.map_eq_some_iff.mp h
    obtain ⟨hpc, ht⟩ := Option.ite_none_right_eq_some.mp ht
    cases ht
    clear h
    by_cases hlive : s.connection = true ∧ s.isConnected = true
    · have hresult : s.tcpsocketconnectionReceive reply = reply := by
        simp [State.tcpsocketconnectionReceive, hlive]
      have hitems : s.receives tcp.id reply = [.received tcp.id reply] := if_pos hlive
      cases reply with
      | error code =>
          by_cases hcode : code = iotSocketEagain
          · have hstate : s.receive (.error code) = s.goto .idle := by
              simp only [State.receive, hresult, if_pos hcode]
            rw [hstate, hitems, become_quiet x (s.goto .idle) hevents]
            exact .noData hpc (congrArg _ hcode) hlive.1 hlive.2
          · have hstate : s.receive (.error code) = s.indicateError.goto .idle := by
              simp [State.receive, hresult, hcode]
            rw [hstate, become_receiveFailed x s hevents]
            exact .receiveFailed hpc fun _ _ => .inr ⟨code, rfl, hcode⟩
      | ok data =>
          cases data with
          | nil =>
              have hstate : s.receive (.ok []) = s.indicateError.goto .idle := by
                simp only [State.receive, hresult]
              rw [hstate, become_receiveFailed x s hevents]
              exact .receiveFailed hpc fun _ _ => .inl rfl
          | cons byte data =>
              have heffect : Effect tcp x s (.receive (.ok (byte :: data))) tcp _ :=
                .data hpc rfl (List.cons_ne_nil byte data) hlive.1 hlive.2
              have hdata := become_data x s hevents (byte :: data)
                [.received tcp.id (.ok (byte :: data))]
              simp only [State.receive, hresult, hitems]
              rw [hdata]
              exact heffect
    · have hstate : s.receive reply = s.indicateError.goto .idle := by
        have hresult : s.tcpsocketconnectionReceive reply = .error (-1) := by
          dsimp only [State.tcpsocketconnectionReceive]
          by_cases hconn : s.connection = false
          · exact if_pos hconn
          · rw [if_neg hconn, if_pos]
            rw [not_and, Bool.not_eq_true] at hlive
            exact hlive (Bool.not_eq_false _ ▸ hconn)
        simp only [State.receive, hresult]
        exact if_neg (by decide)
      rw [hstate, become_receiveFailed x s hevents]
      exact .receiveFailed hpc fun hconn hflag => absurd ⟨hconn, hflag⟩ hlive

/-! ## Opening -/

theorem create_of_not_creates {tcp : Tcp} {reply : ℤ} (h : tcp.creates reply = false) :
    tcp.create reply = tcp := by
  have hneg : tcp.stack.created reply < 0 := by
    simpa [TcpSocketConnection.State.creates] using h
  simp [TcpSocketConnection.State.create, Stack.iotSocketCreate, hneg]

theorem connect_of_not_connects {tcp : Tcp} {host reply : ℤ}
    (h : tcp.connects true host reply = false) : tcp.connect true host reply = tcp := by
  simp only [TcpSocketConnection.State.connects, Bool.true_and, Bool.or_eq_false_iff,
    Bool.and_eq_false_iff, decide_eq_false_iff_not] at h
  obtain ⟨hflag, hhost | hreply⟩ := h
  · simp [TcpSocketConnection.State.connect, hflag, Int.not_le.mp hhost]
  · have hsame : tcp.stack.iotSocketConnect tcp.id reply = tcp.stack := if_neg hreply
    dsimp only [TcpSocketConnection.State.connect]
    rw [hsame, if_pos hreply]
    split_ifs <;> rfl

section

variable (s : State api β) (tcp : Tcp) (replies : OpenReplies) (onBytesReceived onIoError : Bool)

theorem openFailed_eq (closed : ℤ) :
    s.openFailed tcp closed =
      ⟨false, some { s with connection := false },
        if s.connection then tcp.destroy true closed else tcp, false⟩ := by
  dsimp only [State.openFailed]
  split
  · rfl
  · next hconn =>
      rw [Bool.not_eq_true] at hconn
      rw [← hconn]

theorem open_wrongState (h : s.ioState ≠ .closed) :
    socketioOpen (some s) tcp replies onBytesReceived onIoError =
      s.openFailed tcp replies.closed :=
  if_pos h

theorem open_notCreated (h : s.ioState = .closed) (hcreate : tcp.creates replies.created = false) :
    socketioOpen (some s) tcp replies onBytesReceived onIoError =
      ⟨false, some { s with connection := false }, tcp.create replies.created, false⟩ := by
  simp [socketioOpen, h, hcreate, openFailed_eq]

theorem open_notConnected (h : s.ioState = .closed) (hcreate : tcp.creates replies.created = true)
    (hconnect :
      (tcp.create replies.created).connects true replies.host replies.connected = false) :
    socketioOpen (some s) tcp replies onBytesReceived onIoError =
      ⟨false, some { s with connection := false },
        ((tcp.create replies.created).connect true replies.host replies.connected).destroy true
          replies.closed, false⟩ := by
  simp [socketioOpen, h, hcreate, hconnect, openFailed_eq]

theorem open_ok (h : s.ioState = .closed) (hconnect : Connects tcp replies) :
    socketioOpen (some s) tcp replies onBytesReceived onIoError =
      ⟨true, some { s with
        connection := true
        onBytesReceived := onBytesReceived
        onIoError := onIoError
        ioState := .open },
        (tcp.create replies.created).connect true replies.host replies.connected, false⟩ := by
  simp [socketioOpen, h, hconnect.1, hconnect.2]

/-- Every failure leaves the instance without a connection. -/
theorem open_failed (h : ¬ (s.ioState = .closed ∧ Connects tcp replies)) :
    ∃ tcp', socketioOpen (some s) tcp replies onBytesReceived onIoError =
      ⟨false, some { s with connection := false }, tcp', false⟩ := by
  by_cases hclosed : s.ioState = .closed
  · cases hcreate : tcp.creates replies.created with
    | false => exact ⟨_, open_notCreated s tcp replies _ _ hclosed hcreate⟩
    | true =>
        cases hconnect :
            (tcp.create replies.created).connects true replies.host replies.connected with
        | false => exact ⟨_, open_notConnected s tcp replies _ _ hclosed hcreate hconnect⟩
        | true => exact absurd ⟨hclosed, hcreate, hconnect⟩ h
  · exact ⟨_, (open_wrongState s tcp replies _ _ hclosed).trans (openFailed_eq s tcp _)⟩

end

theorem open_effect {tcp : Tcp} {x : Instance api β} {s : State api β} {replies : OpenReplies}
    {onBytesReceived onIoError : Bool} (hpc : s.pc = .idle) :
    Effect tcp x s (.open replies onBytesReceived onIoError)
      (socketioOpen (some s) tcp replies onBytesReceived onIoError).tcp
      { x with
        handle := (socketioOpen (some s) tcp replies onBytesReceived onIoError).handle
        history := s.opens (socketioOpen (some s) tcp replies onBytesReceived onIoError) ++
          x.history } := by
  by_cases h : s.ioState = .closed ∧ Connects tcp replies
  · rw [open_ok s tcp replies _ _ h.1 h.2]
    exact .opened hpc h.1 h.2
  · obtain ⟨tcp', ho⟩ := open_failed s tcp replies onBytesReceived onIoError h
    have heffect : Effect tcp x s (.open replies onBytesReceived onIoError) _ _ :=
      .openFailed hpc h rfl
    rw [ho] at heffect ⊢
    exact heffect

/-! ## One step -/

theorem call_effect {tcp tcp' : Tcp} {x x' : Instance api β} {s : State api β}
    (hevents : s.events = []) {a : Op β} (h : x.call tcp s a = some (tcp', x')) :
    Effect tcp x s a tcp' x' := by
  cases a with
  | create => cases h
  | «open» replies onBytesReceived onIoError =>
      obtain ⟨hpc, h⟩ := Option.ite_none_right_eq_some.mp h
      cases h
      exact open_effect hpc
  | close closed destroyed =>
      obtain ⟨hpc, h⟩ := Option.ite_none_right_eq_some.mp h
      cases h
      rw [become_quiet x s.closeTcpConnection]
      · exact .close hpc
      · dsimp only [State.closeTcpConnection]
        split <;> exact hevents
  | destroy closed destroyed =>
      obtain ⟨hpc, h⟩ := Option.ite_none_right_eq_some.mp h
      cases h
      exact .destroy hpc
  | send buffer callback entry =>
      obtain ⟨t, ht, h⟩ := Option.map_eq_some_iff.mp h
      cases h
      exact send_effect hevents ht
  | dowork =>
      obtain ⟨t, ht, h⟩ := Option.map_eq_some_iff.mp h
      obtain ⟨hpc, ht⟩ := Option.ite_none_right_eq_some.mp ht
      cases ht
      cases h
      have hquiet := become_quiet x (s.goto (if s.ioState = .open then .loop else .idle)) hevents
      rw [hquiet]
      exact .dowork hpc
  | sendNext reply =>
      obtain ⟨t, ht, h⟩ := Option.map_eq_some_iff.mp h
      cases h
      exact sendNext_effect hevents ht
  | remove removed =>
      obtain ⟨t, ht, h⟩ := Option.map_eq_some_iff.mp h
      obtain ⟨hpc, ht⟩ := Option.ite_none_right_eq_some.mp ht
      cases ht
      cases h
      cases removed with
      | true =>
          have hquiet := become_quiet x
            { s with pendingIoList := api.removeHead s.pendingIoList, pc := .loop } hevents []
          exact hquiet ▸ .removed hpc
      | false =>
          have hfailed := become_indicateError x s hevents .receive []
          exact hfailed ▸ .removeFailed hpc
  | receive reply =>
      obtain ⟨t, ht, h⟩ := Option.map_eq_some_iff.mp h
      cases h
      exact receive_effect hevents ht

theorem step_effect {tcp tcp' : Tcp} {x x' : Instance api β} {a : Op β}
    (h : x.step tcp a = some (tcp', x')) :
    x.handle = none ∧ a = .create ∧ tcp' = tcp ∧
        x' = { x with handle := some (socketioCreate api β) } ∨
      ∃ s, x.handle = some s ∧ Effect tcp x (s.load tcp) a tcp' x' := by
  dsimp only [Instance.step] at h
  cases hx : x.handle with
  | none =>
      rw [hx] at h
      cases a with
      | create =>
          cases h
          exact .inl ⟨rfl, rfl, rfl, rfl⟩
      | «open» | close | destroy | send | dowork | sendNext | remove | receive => cases h
  | some s =>
      rw [hx] at h
      exact .inr ⟨s, rfl, call_effect rfl h⟩

end OpenIotSdk.SocketIo
