import OpenIotSdk.Verification.SocketIo.Semantics
import OpenIotSdk.Verification.SocketIo.Integrity

/-! # Errors and `IOT_SOCKET_EAGAIN`

`retrieve_data` tells `IOT_SOCKET_EAGAIN` from the other errors, and `send_queued_data` takes
every negative result for an error. -/

namespace OpenIotSdk.SocketIo.WouldBlock

open Transition

variable {api : SinglyLinkedList ℕ} {β : Type}

def entries (s : State api β) : List (PendingSocketIo β) :=
  (api.items s.pendingIoList).filterMap s.heap

def heldBytes (s : State api β) : List β := (entries s).flatMap fun e => e.bytes.take e.size

/-- What the socket has still to accept of them. -/
def unaccepted (s : State api β) : List β := (entries s).flatMap PendingSocketIo.rest

/-- The instance has a connection, and its flag says so. -/
def live (tcp : Tcp) (s : State api β) : Bool := s.connection && tcp.isConnected

/-- The stack reports an error that is not `IOT_SOCKET_EAGAIN`, the peer has closed, or the
list fails. -/
def Justified (tcp : Tcp) (s : State api β) : Op β → Prop
  | .sendNext reply => live tcp s = true ∧ ∃ e, s.headEntry = some e ∧
      (s.load tcp).result reply e < 0 ∧ (s.load tcp).result reply e ≠ iotSocketEagain
  | .remove removed => removed = false
  | .receive reply => live tcp s = true ∧
      (reply = .ok [] ∨ ∃ code, reply = .error code ∧ code ≠ iotSocketEagain)
  | _ => False

def Blocks (tcp : Tcp) (s : State api β) : Op β → Prop
  | .sendNext reply => live tcp s = true ∧ ∃ e, s.headEntry = some e ∧
      (s.load tcp).result reply e = iotSocketEagain
  | .receive reply => live tcp s = true ∧ reply = .error iotSocketEagain
  | _ => False

/-- What a step may do to an open instance. -/
structure Lenient (tcp : Tcp) (s : State api β) (before : List (Item β)) (a : Op β)
    (x' : Instance api β) : Prop where
  justified : ∀ items, x'.history = items ++ before →
    (.callback .ioError ∈ items ∨ x'.handle.map State.ioState = some .error) →
    Justified tcp s a
  waits : Blocks tcp s a → ∃ t, x'.handle = some t ∧ t.ioState = .open ∧
    heldBytes t = heldBytes s ∧ heldBytes t = unaccepted t

/-- An open instance fails only for a reason, and it waits when the stack would block. -/
def Patient (tcp : Tcp) (x : Instance api β) (a : Op β) (x' : Instance api β) : Prop :=
  ∀ s, x.handle = some s → s.ioState = .open → Lenient tcp s x.history a x'

/-- A round finds the connection of the instance, and a send does not block. -/
def Round (tcp : Tcp) (s : State api β) : Op β → Prop
  | .sendNext reply => ∀ e, s.headEntry = some e →
      live tcp s = true ∧ (s.load tcp).result reply e ≠ iotSocketEagain
  | .receive _ => live tcp s = true
  | _ => True

instance (tcp : Tcp) (s : State api β) (a : Op β) : Decidable (Round tcp s a) :=
  match a with
  | .sendNext _ => decidableNext s.headEntry fun _ => inferInstanceAs (Decidable (_ ∧ _))
  | .receive _ => inferInstanceAs (Decidable (_ = _))
  | .create | .open _ _ _ | .close _ _ | .destroy _ _ | .send _ _ _ | .dowork | .remove _ =>
      isTrue trivial

/-- The rounds of an open instance are so. -/
def Ready (tcp : Tcp) (x : Instance api β) (a : Op β) : Prop :=
  ∀ s, x.handle = some s → s.ioState = .open → Round tcp s a

instance (tcp : Tcp) (x : Instance api β) (a : Op β) : Decidable (Ready tcp x a) :=
  decidableNext x.handle fun _ => inferInstanceAs (Decidable (_ → _))

/-! ## The invariant -/

/-- Nothing was sent of what is queued. -/
def Whole (s : State api β) : Prop :=
  ∀ p ∈ api.items s.pendingIoList, ∀ e, s.heap p = some e →
    e.bytes = e.queued ∧ e.size = e.queued.length ∧ e.taken = 0

/-- When `retrieve_data` runs on an open instance, `send_queued_data` has emptied the list. -/
def Inv (x : Instance api β) : Prop :=
  ∀ s, x.handle = some s → s.pc = .receive → s.ioState = .open → Whole s

theorem inv_init : Inv (Instance.init api β) := nofun

theorem Whole.addPendingIo {s : State api β} (h : Whole s) (buffer : List β)
    (context : Option ℕ) (p : ℕ) : Whole (s.addPendingIo buffer context p) := by
  intro q hq e he
  change q ∈ api.items (api.add s.pendingIoList p) at hq
  change Function.update s.heap p _ q = some e at he
  by_cases hqp : q = p
  · rw [hqp, Function.update_self] at he
    cases he
    exact ⟨rfl, rfl, rfl⟩
  · rw [api.items_add, List.mem_append, List.mem_singleton] at hq
    rw [Function.update_of_ne hqp] at he
    exact h q (hq.resolve_right hqp) e he

theorem whole_of_headItem {s : State api β} (h : api.headItem s.pendingIoList = none) :
    Whole s := by
  rw [api.headItem_eq, List.head?_eq_none_iff] at h
  intro p hp
  rw [h] at hp
  cases hp

theorem failedState_ne_open (s : State api β) : s.failedState ≠ .open := by
  dsimp only [State.failedState]
  split <;> nofun

theorem Inv.effect {tcp tcp' : Tcp} {x x' : Instance api β} {s : State api β} {a : Op β}
    (h : Inv x) (hx : x.handle = some s)
    (heffect : Effect tcp x (s.load tcp) a tcp' x') : Inv x' := by
  intro t ht hpc' hopen'
  cases heffect with
  | opened hpc | openFailed hpc =>
      cases ht
      exact absurd (hpc'.symm.trans hpc) (by decide)
  | close =>
      cases ht
      rcases close_cases (s.load tcp) with ⟨hclosed, hstate, -⟩ | ⟨-, hstate⟩
      · rw [hstate] at hopen'
        exact absurd (hclosed.symm.trans hopen') (by decide)
      · rw [hstate] at hopen'
        cases hopen'
  | destroy => cases ht
  | rejected =>
      cases ht
      exact h s hx hpc' hopen'
  | queued =>
      cases ht
      exact Whole.addPendingIo (h s hx hpc' hopen') _ _ _
  | drained hpc hhead =>
      cases ht
      exact whole_of_headItem hhead
  | dowork =>
      cases ht
      change (if s.ioState = .open then Pc.loop else .idle) = .receive at hpc'
      split at hpc' <;> cases hpc'
  | completed | sentPart | removed | loopEnd | noData =>
      cases ht
      cases hpc'
  | sendFailed | removeFailed | receiveFailed =>
      cases ht
      exact absurd hopen' (failedState_ne_open _)
  | data hpc =>
      cases ht
      exact h s hx hpc hopen'

theorem Inv.step {tcp tcp' : Tcp} {x x' : Instance api β} {a : Op β} (h : Inv x)
    (hs : x.step tcp a = some (tcp', x')) : Inv x' := by
  rcases step_effect hs with ⟨-, -, -, rfl⟩ | ⟨s, hx, heffect⟩
  · intro s hs hpc
    cases hs
    cases hpc
  · exact h.effect hx heffect

/-! ## One step -/

/-- A list without partly sent entries holds what the socket has still to accept. -/
theorem Whole.heldBytes {s : State api β} (h : Whole s) : heldBytes s = unaccepted s := by
  apply List.flatMap_congr
  intro e he
  obtain ⟨p, hp, he⟩ := List.mem_filterMap.mp he
  obtain ⟨hbytes, hsize, htaken⟩ := h p hp e he
  rw [PendingSocketIo.rest, hbytes, hsize, htaken, List.take_length]
  rfl

theorem no_error {before items items' : List (Item β)} {handle : Option (State api β)}
    (hitems : ∀ a ∈ items, a ≠ .callback .ioError)
    (hstate : ∀ t, handle = some t → t.ioState ≠ .error)
    (hsame : items ++ before = items' ++ before)
    (herror : .callback .ioError ∈ items' ∨ handle.map State.ioState = some .error) : False := by
  rcases herror with herror | herror
  · exact hitems _ (List.append_cancel_right hsame ▸ herror) rfl
  · obtain ⟨t, ht, herror⟩ := Option.map_eq_some_iff.mp herror
    exact hstate t ht herror

theorem lenient_of_open {tcp : Tcp} {s : State api β} {before : List (Item β)} {a : Op β}
    {handle : Option (State api β)} {test : Bool} {calls : ℕ} {items : List (Item β)}
    (hitems : ∀ a ∈ items, a ≠ .callback .ioError)
    (hstate : ∀ t, handle = some t → t.ioState ≠ .error) (hblocks : ¬ Blocks tcp s a) :
    Lenient tcp s before a ⟨handle, test, calls, items ++ before⟩ :=
  ⟨fun _ hsame herror => (no_error hitems hstate hsame herror).elim,
    fun hb => absurd hb hblocks⟩

theorem lenient_of_justified {tcp : Tcp} {s : State api β} {before : List (Item β)} {a : Op β}
    {x' : Instance api β} (h : Justified tcp s a) (hblocks : ¬ Blocks tcp s a) :
    Lenient tcp s before a x' :=
  ⟨fun _ _ _ => h, fun hb => absurd hb hblocks⟩

theorem headEntry_eq {s : State api β} {p : ℕ} {e : PendingSocketIo β}
    (hhead : api.headItem s.pendingIoList = some p) (he : s.heap p = some e) :
    s.headEntry = some e := by
  rw [State.headEntry, hhead]
  exact he

theorem Inv.patient {tcp tcp' : Tcp} {x x' : Instance api β} {s : State api β} {a : Op β}
    (h : Inv x) (hok : Ready tcp x a) (hx : x.handle = some s) (hopen : s.ioState = .open)
    (heffect : Effect tcp x (s.load tcp) a tcp' x') : Lenient tcp s x.history a x' := by
  have hready := hok s hx hopen
  -- Most steps leave the state of the instance alone.
  have hquiet : ∀ {t t' : State api β}, t.ioState = s.ioState → some t = some t' →
      t'.ioState ≠ .error := by
    intro t t' hstate ht
    cases ht
    rw [hstate, hopen]
    decide
  cases heffect with
  | opened hpc hclosed => exact absurd (hopen.symm.trans hclosed) (by decide)
  | openFailed =>
      exact lenient_of_open (forall_ite (by simp)) (fun _ => hquiet rfl) id
  | close =>
      refine lenient_of_open (forall_drops (by simp)) ?_ id
      intro t ht
      cases ht
      rcases close_cases (s.load tcp) with ⟨hclosed, -⟩ | ⟨-, hstate⟩
      · exact absurd (hopen.symm.trans hclosed) (by decide)
      · simp [hstate]
  | destroy =>
      refine lenient_of_open (forall_drops (by simp)) ?_ id
      intro t ht
      cases ht
  | rejected =>
      rw [← List.append_assoc]
      refine lenient_of_open (List.forall_mem_append.mpr ⟨?_, ?_⟩) (fun _ => hquiet rfl) id
      · exact forall_completes (by simp)
      · exact forall_called (by simp)
  | queued =>
      rw [← List.cons_append, ← List.append_assoc]
      refine lenient_of_open (List.forall_mem_append.mpr ⟨?_, List.forall_mem_cons.mpr ⟨?_, ?_⟩⟩)
        (fun _ => hquiet rfl) id
      · exact forall_completes (by simp)
      · simp
      · exact forall_called (by simp)
  | dowork | removed =>
      exact lenient_of_open (List.forall_mem_nil _) (fun _ => hquiet rfl) id
  | drained hpc hhead =>
      refine lenient_of_open (List.forall_mem_nil _) (fun _ => hquiet rfl) ?_
      rintro ⟨-, e, he, -⟩
      change api.headItem s.pendingIoList = none at hhead
      simp [State.headEntry, hhead] at he
  | completed hpc hhead he =>
      rw [← List.append_assoc]
      refine lenient_of_open (List.forall_mem_append.mpr ⟨?_, ?_⟩) (fun _ => hquiet rfl) ?_
      · exact forall_completes (by simp)
      · exact forall_sends (by simp)
      · rintro ⟨-, e, he, hblocked⟩
        exact (hready e he).2 hblocked
  | @sendFailed reply p e hpc hhead he hsome hneg =>
      have hentry : s.headEntry = some e := headEntry_eq hhead he
      obtain ⟨hlive, hnot⟩ := hready e hentry
      have hreason : Justified tcp s (.sendNext reply) := ⟨hlive, e, hentry, hneg, hnot⟩
      apply lenient_of_justified hreason
      rintro ⟨-, e, he, hblocked⟩
      exact (hready e he).2 hblocked
  | sentPart =>
      refine lenient_of_open (forall_sends (by simp)) (fun _ => hquiet rfl) ?_
      rintro ⟨-, e, he, hblocked⟩
      exact (hready e he).2 hblocked
  | removeFailed => exact lenient_of_justified rfl id
  | loopEnd hpc htest hclosed => exact absurd hopen hclosed
  | data hpc hreply =>
      rw [List.append_cons]
      refine lenient_of_open (List.forall_mem_append.mpr ⟨forall_ite (by simp), ?_⟩)
        (fun _ => hquiet rfl) ?_
      · exact List.forall_mem_singleton.mpr (by simp)
      · rintro ⟨-, hblocked⟩
        cases hreply.symm.trans hblocked
  | @receiveFailed reply hpc hreply =>
      obtain ⟨hconn, hflag⟩ := Bool.and_eq_true_iff.mp hready
      have hcase := hreply hconn hflag
      have hreason : Justified tcp s (.receive reply) := ⟨hready, hcase⟩
      apply lenient_of_justified hreason
      rintro ⟨-, hblocked⟩
      rcases hcase with hnone | ⟨code, hcode, hnot⟩
      · cases hnone.symm.trans hblocked
      · cases hcode.symm.trans hblocked
        exact hnot rfl
  | noData hpc hreply =>
      rw [← List.singleton_append]
      refine ⟨fun _ hsame herror => (no_error ?_ (fun _ => hquiet rfl) hsame herror).elim, ?_⟩
      · simp
      · intro _
        exact ⟨_, rfl, hopen, rfl, Whole.heldBytes (h s hx hpc hopen)⟩

/-- For any instances, in any interleaving of calls on them, every open instance is patient,
if no send blocks and every round finds its connection. -/
theorem patient_of_ready (ι : Type) [DecidableEq ι] (acts : List (ι × Op β))
    (h : Meets System.step (Family.At Ready) (System.init ι api β) acts) :
    Steps System.step (Family.Moves Patient) (System.init ι api β) acts := by
  apply Family.steps_of_meets _ _ _ h
  · exact Inv
  · exact fun _ _ _ _ _ h _ hs => Inv.step h hs
  · intro tcp x a tcp' x' h hok hs s hx hopen
    rcases step_effect hs with ⟨hnone, -⟩ | ⟨s', hs', heffect⟩
    · rw [hx] at hnone
      cases hnone
    · rw [hx, Option.some.injEq] at hs'
      subst hs'
      exact Inv.patient h hok hx hopen heffect
  · exact fun _ => inv_init

/-- A byte is sent, and nothing can be received. -/
def noData : List (Unit × Op Bool) :=
  [.create, .open ⟨0, 0, 0, 0⟩ true true, .send (some [true]) false (some 0), .dowork, .sendNext 1,
    .remove true, .sendNext 0, .receive (.error iotSocketEagain)].map ((), ·)

theorem noData_patient :
    Steps System.step (Family.Moves Patient) (System.init Unit lists Bool) noData :=
  patient_of_ready Unit noData (by decide)

def queuedByte : List (Unit × Op Bool) :=
  [.create, .open ⟨0, 0, 0, 0⟩ true true, .send (some [true]) false (some 0), .dowork].map ((), ·)

/-- The send blocks. -/
theorem blocked_not_patient :
    ¬ ∀ acts, Steps System.step (Family.Moves Patient) (System.init Unit lists Bool) acts := by
  intro h
  have hpatient := (h (queuedByte ++ [((), .sendNext iotSocketEagain)])).last rfl rfl
  obtain ⟨-, e, he, -, hnot⟩ := (hpatient _ rfl rfl).justified [_, _] rfl (.inr rfl)
  cases he
  exact hnot rfl

end OpenIotSdk.SocketIo.WouldBlock
