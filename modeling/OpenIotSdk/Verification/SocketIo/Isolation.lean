import OpenIotSdk.Library.History
import OpenIotSdk.Verification.SocketIo.Semantics
import OpenIotSdk.Verification.SocketIo.Integrity

/-! # Isolation of instances

`tcpsocketconnection_create` returns the address of one static record, whichever instance is
opened, and writes the id of the new socket over the one that is there. -/

namespace OpenIotSdk.SocketIo.Isolation

open Transition History

variable {ι : Type} {api : SinglyLinkedList ℕ} {β : Type}

/-- An item that begins or ends a connection, with its socket. -/
def holds : Item β → Option (Option ℤ)
  | .opened id => some (some id)
  | .dropped => some none
  | _ => none

/-- The socket that the last successful `socketio_open` created, until the instance gives it
up. -/
def socket (history : List (Item β)) : Option ℤ := (latest holds history).join

/-- Data goes to the socket of the instance and comes from it. -/
def Own (a : Item β) (before : List (Item β)) : Prop :=
  match a with
  | .sent id _ _ _ => socket before = some id
  | .received id _ => socket before = some id
  | .callback (.bytesReceived data) => ∃ id rest, before = .received id (.ok data) :: rest
  | _ => True

def Isolated (x : Instance api β) : Prop := Along Own x.history

/-- The state that the socket `id` has in the stack, and the flag of the record. -/
def status (tcp : Tcp) (id : ℤ) : Bool × Bool × Bool :=
  (tcp.stack.isOpen id, tcp.stack.connected id, tcp.isConnected)

/-- Closing or destroying an instance leaves the sockets of the others alone. -/
def LeavesOthers (s : System ι api β) (a : ι × Op β) (t : System ι api β) : Prop :=
  match a.2 with
  | .close _ _ | .destroy _ _ => ∀ j, j ≠ a.1 → ∀ id, socket (s.2 j).history = some id →
      status t.1 id = status s.1 id
  | _ => True

def connected (x : Instance api β) : Bool := x.handle.elim false State.connection

def Creates (tcp : Tcp) (x : Instance api β) : Op β → Prop
  | .open replies _ _ =>
      tcp.creates replies.created = true ∧ x.handle.map State.ioState = some .closed
  | _ => False

instance (tcp : Tcp) (x : Instance api β) (a : Op β) : Decidable (Creates tcp x a) :=
  match a with
  | .open _ _ _ => inferInstanceAs (Decidable (_ ∧ _))
  | .create | .close _ _ | .destroy _ _ | .send _ _ _ | .dowork | .sendNext _ | .remove _
  | .receive _ => isFalse id

/-- A socket is created for an instance only while no other one has a connection. -/
def Alone (s : System ι api β) (a : ι × Op β) : Prop :=
  Creates s.1 (s.2 a.1) a.2 → ∀ j, j ≠ a.1 → connected (s.2 j) = false

instance [Fintype ι] [DecidableEq ι] (s : System ι api β) (a : ι × Op β) :
    Decidable (Alone s a) :=
  inferInstanceAs (Decidable (_ → _))

/-! ## One instance -/

/-- A connected instance holds the socket of the record. -/
structure Holding (tcp : Tcp) (x : Instance api β) : Prop where
  isolated : Isolated x
  held : socket x.history = if connected x then some tcp.id else none
  closed : ∀ s, x.handle = some s → s.ioState = .closed → s.connection = false

theorem socket_append {items : List (Item β)} (h : ∀ a ∈ items, holds a = none)
    (before : List (Item β)) : socket (items ++ before) = socket before := by
  rw [socket, latest_append h, socket]

/-- An item that may come after any history whose socket is `o`. -/
def Suits (o : Option ℤ) : Item β → Prop
  | .sent id _ _ _ | .received id _ => o = some id
  | .callback (.bytesReceived _) => False
  | _ => True

theorem own_append {items before : List (Item β)} (h : ∀ a ∈ items, holds a = none)
    (hsuits : ∀ a ∈ items, Suits (socket before) a) (hb : Along Own before) :
    Along Own (items ++ before) := by
  apply Along.append _ hb
  intro a back hsuffix
  have hsocket : socket (back ++ before) = socket before :=
    socket_append (fun b hb => h b (hsuffix.mem (List.mem_cons_of_mem a hb))) before
  have ha := hsuits a (hsuffix.mem List.mem_cons_self)
  cases a with
  | sent | received => exact hsocket.trans ha
  | callback event =>
      cases event with
      | bytesReceived => exact ha.elim
      | sendComplete | ioError => trivial
  | called | queued | opened | dropped => trivial

theorem Holding.keep {tcp : Tcp} {x : Instance api β} (h : Holding tcp x) {s : State api β}
    (hx : x.handle = some s) {t : State api β} {test : Bool} {calls : ℕ} {items : List (Item β)}
    (hitems : ∀ a ∈ items, holds a = none) (hsuits : ∀ a ∈ items, Suits (socket x.history) a)
    (hconn : t.connection = s.connection)
    (hclosed : t.ioState = .closed → s.ioState = .closed) :
    Holding tcp ⟨some t, test, calls, items ++ x.history⟩ := by
  refine ⟨own_append hitems hsuits h.isolated, ?_, ?_⟩
  · have hsame : connected x = t.connection := by
      rw [connected, hx, hconn]
      rfl
    rw [socket_append hitems, h.held, hsame]
    rfl
  · intro t' ht' hc
    cases ht'
    exact hconn ▸ h.closed s hx (hclosed hc)

theorem Holding.disconnect {tcp tcp' : Tcp} {x : Instance api β} (h : Holding tcp x)
    {handle : Option (State api β)} (hconn : ∀ t, handle = some t → t.connection = false)
    {test : Bool} {calls : ℕ} {items : List (Item β)}
    (hitems : items = if connected x then [.dropped] else []) :
    Holding tcp' ⟨handle, test, calls, items ++ x.history⟩ := by
  have hnone : connected (⟨handle, test, calls, items ++ x.history⟩ : Instance api β) = false := by
    cases handle with
    | none => rfl
    | some t => exact hconn t rfl
  refine ⟨?_, ?_, fun t ht _ => hconn t ht⟩
  · rw [hitems]
    split
    · exact ⟨trivial, h.isolated⟩
    · exact h.isolated
  · rw [hnone, hitems]
    split
    · rfl
    · next hc =>
        have hheld := h.held
        rw [if_neg hc] at hheld
        exact hheld

/-- An item that suits any history. -/
def plain : Item β → Bool
  | .called _ | .queued _ _ | .callback (.sendComplete _ _) | .callback .ioError => true
  | _ => false

theorem holds_of_plain {a : Item β} (h : plain a = true) : holds a = none := by
  cases a with
  | opened | dropped => cases h
  | called | queued | sent | received | callback => rfl

theorem suits_of_plain {a : Item β} (h : plain a = true) (o : Option ℤ) : Suits o a := by
  cases a with
  | sent | received => cases h
  | callback event =>
      cases event with
      | bytesReceived => cases h
      | sendComplete | ioError => trivial
  | called | queued | opened | dropped => trivial

theorem Holding.use {tcp : Tcp} {x : Instance api β} (h : Holding tcp x) {s : State api β}
    (hx : x.handle = some s) {t : State api β} {test : Bool} {calls : ℕ}
    {items uses : List (Item β)} (hitems : ∀ a ∈ items, plain a = true)
    (huses : ∀ a ∈ uses, holds a = none ∧ Suits (some tcp.id) a ∧ s.connection = true)
    (hconn : t.connection = s.connection)
    (hclosed : t.ioState = .closed → s.ioState = .closed) :
    Holding tcp ⟨some t, test, calls, items ++ (uses ++ x.history)⟩ := by
  rw [← List.append_assoc]
  apply h.keep hx _ _ hconn hclosed
  · intro a ha
    rcases List.mem_append.mp ha with ha | ha
    · exact holds_of_plain (hitems a ha)
    · exact (huses a ha).1
  · intro a ha
    rcases List.mem_append.mp ha with ha | ha
    · exact suits_of_plain (hitems a ha) _
    · obtain ⟨-, hsuits, hlive⟩ := huses a ha
      have hheld : socket x.history = some tcp.id := by
        rw [h.held, connected, hx]
        exact if_pos hlive
      exact hheld ▸ hsuits

theorem failedState_closed {s : State api β} (h : s.failedState = .closed) :
    s.ioState = .closed := by
  by_contra hn
  rw [State.failedState, if_neg hn] at h
  cases h

theorem Holding.sends {tcp : Tcp} {s : State api β} {reply : ℤ} {a : Item β}
    (ha : a ∈ (s.load tcp).sends tcp.id reply) :
    holds a = none ∧ Suits (some tcp.id) a ∧ s.connection = true := by
  obtain ⟨p, e, -, -, hconn, -, rfl⟩ := mem_sends ha
  exact ⟨rfl, rfl, hconn⟩

theorem Holding.receives {tcp : Tcp} {s : State api β} {reply : Except ℤ (List β)} {a : Item β}
    (ha : a ∈ (s.load tcp).receives tcp.id reply) :
    holds a = none ∧ Suits (some tcp.id) a ∧ s.connection = true := by
  obtain ⟨hconn, -, rfl⟩ := mem_receives ha
  exact ⟨rfl, rfl, hconn⟩

theorem Holding.deliver {tcp : Tcp} {handle : Option (State api β)} {test : Bool} {calls : ℕ}
    {id : ℤ} {data : List β} {before : List (Item β)}
    (h : Holding tcp ⟨handle, test, calls, .received id (.ok data) :: before⟩) :
    Holding tcp ⟨handle, test, calls,
      .callback (.bytesReceived data) :: .received id (.ok data) :: before⟩ :=
  ⟨⟨⟨id, before, rfl⟩, h.isolated⟩, h.held, h.closed⟩

/-- Only a connected instance gives up a connection. -/
theorem drops_eq {s : State api β} (hclosed : s.ioState = .closed → s.connection = false) :
    s.drops = if s.connection then [.dropped] else [] := by
  dsimp only [State.drops]
  by_cases hconn : s.connection = true
  · rw [if_pos hconn, if_pos ⟨fun hx => by simp [hclosed hx] at hconn, hconn⟩]
  · rw [if_neg hconn, if_neg fun hx => hconn hx.2]

theorem closeTcp_eq {s : State api β} (hconn : s.connection = false) (tcp : Tcp)
    (closed destroyed : ℤ) : s.closeTcp tcp closed destroyed = tcp :=
  if_neg fun hx => by simp [hconn] at hx

/-- Every step of an instance holds the socket of the record or gives it up. -/
theorem Holding.effect {tcp tcp' : Tcp} {x x' : Instance api β} {s : State api β} {a : Op β}
    (h : Holding tcp x) (hx : x.handle = some s)
    (heffect : Effect tcp x (s.load tcp) a tcp' x') : Holding tcp' x' := by
  have hconn : connected x = s.connection := by
    rw [connected, hx]
    rfl
  have hdrops : (s.load tcp).drops = if connected x then [.dropped] else [] :=
    hconn ▸ drops_eq (h.closed s hx)
  cases heffect with
  | opened =>
      refine ⟨⟨trivial, h.isolated⟩, rfl, ?_⟩
      intro t ht hclosed
      cases ht
      cases hclosed
  | openFailed =>
      apply h.disconnect
      · intro t ht
        cases ht
        rfl
      · rw [hconn]
        rfl
  | close =>
      refine h.disconnect ?_ hdrops
      intro t ht
      cases ht
      rcases close_cases (s.load tcp) with ⟨hclosed, hstate, -⟩ | ⟨-, hstate⟩
      · rw [hstate]
        exact h.closed s hx hclosed
      · rw [hstate]
  | destroy =>
      refine h.disconnect ?_ hdrops
      intro t ht
      cases ht
  | rejected =>
      rw [← List.append_assoc]
      refine h.use hx (List.forall_mem_append.mpr ⟨?_, ?_⟩) (List.forall_mem_nil _) rfl id
      · exact forall_completes fun _ => rfl
      · exact forall_called fun _ => rfl
  | queued =>
      rw [← List.cons_append, ← List.append_assoc]
      refine h.use hx (List.forall_mem_append.mpr ⟨?_, List.forall_mem_cons.mpr ⟨rfl, ?_⟩⟩)
        (List.forall_mem_nil _) rfl id
      · exact forall_completes fun _ => rfl
      · exact forall_called fun _ => rfl
  | dowork | drained | loopEnd | removed =>
      exact h.keep hx (List.forall_mem_nil _) (List.forall_mem_nil _) rfl id
  | completed =>
      exact h.use hx (forall_completes fun _ => rfl) (fun a ha => Holding.sends ha) rfl id
  | sendFailed =>
      exact h.use hx (forall_fails rfl) (fun a ha => Holding.sends ha) rfl
        failedState_closed
  | sentPart =>
      exact h.use hx (List.forall_mem_nil _) (fun a ha => Holding.sends ha) rfl id
  | removeFailed =>
      exact h.use hx (forall_fails rfl) (List.forall_mem_nil _) rfl failedState_closed
  | @data reply data hpc hreply hdata hlive =>
      have huse : ∀ a ∈ [Item.received tcp.id reply], holds a = none ∧
          Suits (some tcp.id) a ∧ s.connection = true :=
        List.forall_mem_singleton.mpr ⟨rfl, rfl, hlive⟩
      subst hreply
      by_cases hcallback : (s.load tcp).onBytesReceived = true
      · rw [if_pos hcallback]
        apply Holding.deliver
        exact h.use hx (List.forall_mem_nil _) huse rfl id
      · rw [if_neg hcallback]
        exact h.use hx (List.forall_mem_nil _) huse rfl id
  | receiveFailed =>
      exact h.use hx (forall_fails rfl) (fun a ha => Holding.receives ha) rfl
        failedState_closed
  | @noData reply hpc hreply hlive =>
      have huse : ∀ a ∈ [Item.received tcp.id reply], holds a = none ∧
          Suits (some tcp.id) a ∧ s.connection = true :=
        List.forall_mem_singleton.mpr ⟨rfl, rfl, hlive⟩
      exact h.use hx (List.forall_mem_nil _) huse rfl id

/-- The record changes only for an instance that is connected or creates a socket. -/
theorem tcp_effect {tcp tcp' : Tcp} {x x' : Instance api β} {s : State api β} {a : Op β}
    (hx : x.handle = some s) (heffect : Effect tcp x (s.load tcp) a tcp' x')
    (hconn : connected x = false) (hcreates : ¬ Creates tcp x a) :
    tcp' = tcp ∧ connected x' = false := by
  have hs : s.connection = false := by
    rw [connected, hx] at hconn
    exact hconn
  have hclosed' : s.ioState = .closed → x.handle.map State.ioState = some .closed := by
    intro hclosed
    rw [hx]
    exact congrArg some hclosed
  cases heffect with
  | opened hpc hclosed hconnects => exact absurd ⟨hconnects.1, hclosed' hclosed⟩ hcreates
  | @openFailed replies onBytesReceived onIoError tcp' hpc hfailed htcp =>
      refine ⟨?_, rfl⟩
      rw [htcp]
      by_cases hclosed : s.ioState = .closed
      · cases hcreate : tcp.creates replies.created with
        | false =>
            rw [open_notCreated (s.load tcp) tcp replies _ _ hclosed hcreate,
              create_of_not_creates hcreate]
        | true => exact absurd ⟨hcreate, hclosed' hclosed⟩ hcreates
      · rw [open_wrongState (s.load tcp) tcp replies _ _ hclosed, openFailed_eq]
        exact if_neg (by simp [State.load, hs])
  | close =>
      refine ⟨closeTcp_eq hs tcp _ _, ?_⟩
      rcases close_cases (s.load tcp) with ⟨-, hstate, -⟩ | ⟨-, hstate⟩
      · rw [hstate]
        exact hs
      · rw [hstate]
        rfl
  | destroy => exact ⟨closeTcp_eq hs tcp _ _, rfl⟩
  | rejected | queued | dowork | drained | completed | sendFailed | sentPart | removed
  | removeFailed | loopEnd | data | receiveFailed | noData => exact ⟨rfl, hs⟩

/-! ## All instances -/

/-- At most one instance is connected. -/
structure Inv (s : System ι api β) : Prop where
  holding : ∀ i, Holding s.1 (s.2 i)
  alone : ∀ i j, connected (s.2 i) = true → connected (s.2 j) = true → i = j

theorem inv_init : Inv (System.init ι api β) :=
  ⟨fun _ => ⟨trivial, rfl, nofun⟩, nofun⟩

theorem Holding.change {tcp tcp' : Tcp} {x : Instance api β} (h : Holding tcp x)
    (hconn : connected x = false) : Holding tcp' x := by
  have hheld := h.held
  rw [hconn] at hheld
  refine ⟨h.isolated, ?_, h.closed⟩
  rw [hconn]
  exact hheld

/-- What a step of one instance means for the others. -/
theorem Inv.others {s : System ι api β} {i : ι} {a : Op β} (h : Inv s)
    (hok : Alone s (i, a)) {tcp' : Tcp} {x' : Instance api β}
    (hs : (s.2 i).step s.1 a = some (tcp', x')) :
    (∀ j, j ≠ i → connected (s.2 j) = false) ∨ tcp' = s.1 ∧ connected x' = false := by
  by_cases hconn : connected (s.2 i) = true
  · left
    intro j hj
    by_contra hc
    exact hj (h.alone j i (Bool.not_eq_false _ ▸ hc) hconn)
  · by_cases hcreates : Creates s.1 (s.2 i) a
    · exact .inl (hok hcreates)
    · rw [Bool.not_eq_true] at hconn
      rcases step_effect hs with ⟨-, -, htcp, rfl⟩ | ⟨t, hx, heffect⟩
      · exact .inr ⟨htcp, rfl⟩
      · exact .inr (tcp_effect hx heffect hconn hcreates)

theorem Holding.step {tcp tcp' : Tcp} {x x' : Instance api β} {a : Op β} (h : Holding tcp x)
    (hs : x.step tcp a = some (tcp', x')) : Holding tcp' x' := by
  rcases step_effect hs with ⟨hx, -, rfl, rfl⟩ | ⟨s, hx, heffect⟩
  · have hheld := h.held
    rw [connected, hx] at hheld
    refine ⟨h.isolated, hheld, ?_⟩
    intro t ht _
    cases ht
    rfl
  · exact h.effect hx heffect

variable [DecidableEq ι]

theorem Inv.step {s t : System ι api β} {a : ι × Op β} (h : Inv s) (hok : Alone s a)
    (hs : System.step s a = some t) : Inv t := by
  obtain ⟨i, a⟩ := a
  obtain ⟨tcp', x', hact, rfl⟩ := Family.step_eq_some.mp hs
  have hothers := h.others hok hact
  constructor
  · intro j
    by_cases hj : j = i
    · subst hj
      simp only [Function.update_self]
      exact (h.holding j).step hact
    · simp only [Function.update_of_ne hj]
      rcases hothers with hnone | ⟨rfl, -⟩
      · exact (h.holding j).change (hnone j hj)
      · exact h.holding j
  · intro j k hj hk
    by_cases hji : j = i <;> by_cases hki : k = i
    · exact hji.trans hki.symm
    · rcases hothers with hnone | ⟨-, hnot⟩
      · simp [Function.update_of_ne hki, hnone k hki] at hk
      · simp [hji, hnot] at hj
    · rcases hothers with hnone | ⟨-, hnot⟩
      · simp [Function.update_of_ne hji, hnone j hji] at hj
      · simp [hki, hnot] at hk
    · simp only [Function.update_of_ne hji, Function.update_of_ne hki] at hj hk
      exact h.alone j k hj hk

theorem Inv.leavesOthers {s t : System ι api β} {a : ι × Op β} (h : Inv s) (hok : Alone s a)
    (hs : System.step s a = some t) : LeavesOthers s a t := by
  obtain ⟨i, a⟩ := a
  obtain ⟨tcp', x', hact, rfl⟩ := Family.step_eq_some.mp hs
  have hall : ∀ j, j ≠ i → ∀ id, socket (s.2 j).history = some id →
      status tcp' id = status s.1 id := by
    intro j hj id hid
    rcases h.others hok hact with hnone | ⟨rfl, -⟩
    · rw [(h.holding j).held, hnone j hj] at hid
      cases hid
    · rfl
  cases a with
  | close | destroy => exact hall
  | create | «open» | send | dowork | sendNext | remove | receive => trivial

/-- For any instances, in any interleaving of calls on them, data stays within its instance
and closing one leaves the others alone, if a socket is created for an instance only while no
other one is connected. -/
theorem isolated_of_alone (acts : List (ι × Op β))
    (h : Meets System.step Alone (System.init ι api β) acts) :
    Always System.step (fun s => ∀ i, Isolated (s.2 i)) (System.init ι api β) acts ∧
      Steps System.step LeavesOthers (System.init ι api β) acts := by
  have hstep : ∀ (s : System ι api β) a t, Inv s → Alone s a → System.step s a = some t → Inv t :=
    fun _ _ _ h hok hs => h.step hok hs
  constructor
  · exact Always.of_invariant Inv hstep (fun _ h i => (h.holding i).isolated) inv_init h
  · exact Steps.of_invariant Inv hstep (fun _ _ _ h hok hs => h.leavesOthers hok hs) inv_init h

def inTurn : List (Bool × Op Bool) :=
  [(false, .create), (true, .create), (false, .open ⟨0, 0, 0, 0⟩ true true),
    (false, .close 0 0), (true, .open ⟨1, 0, 0, 0⟩ true true),
    (true, .send (some [true]) false (some 0)), (true, .dowork), (true, .sendNext 1),
    (false, .destroy 0 0)]

theorem inTurn_isolated :
    Always System.step (fun s => ∀ i, Isolated (s.2 i)) (System.init Bool lists Bool) inTurn ∧
      Steps System.step LeavesOthers (System.init Bool lists Bool) inTurn :=
  isolated_of_alone inTurn (by decide)

/-- A second instance is opened, and the data of the first one goes to its socket. -/
def crossed : List (Bool × Op Bool) :=
  [(false, .create), (true, .create), (false, .open ⟨0, 0, 0, 0⟩ true true),
    (false, .send (some [true]) false (some 0)), (true, .open ⟨1, 0, 0, 0⟩ true true),
    (false, .dowork), (false, .sendNext 1)]

theorem crossed_not_isolated :
    ¬ ∀ acts, Always System.step (fun s => ∀ i, Isolated (s.2 i))
        (System.init Bool lists Bool) acts ∧
      Steps System.step LeavesOthers (System.init Bool lists Bool) acts := by
  intro h
  have hsent := ((h crossed).1.reached rfl false).1
  -- The instance holds socket 0 and sends to socket 1.
  change some (0 : ℤ) = some 1 at hsent
  exact absurd hsent (by decide)

end OpenIotSdk.SocketIo.Isolation
