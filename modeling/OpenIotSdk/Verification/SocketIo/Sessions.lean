import OpenIotSdk.Library.History
import OpenIotSdk.Verification.SocketIo.Semantics
import OpenIotSdk.Verification.SocketIo.Integrity

/-! # Sessions of an instance

`close_tcp_connection` leaves `pending_io_list` as it is, so that what was queued for one
connection is sent over the next one. -/

namespace OpenIotSdk.SocketIo.Sessions

open Transition History

variable {api : SinglyLinkedList ℕ} {β : Type}

/-- A connection begins or ends. -/
def boundary : Item β → Bool
  | .opened _ | .dropped => true
  | _ => false

def queuedBytes : Item β → List β
  | .queued _ bytes => bytes
  | _ => []

/-- The bytes that were queued during the present connection. -/
def sessionBytes (history : List (Item β)) : List β :=
  (since boundary history).flatMap queuedBytes

/-- What is passed to `iotSocketSend` after `before` was queued during the same connection. -/
def Own (a : Item β) (before : List (Item β)) : Prop :=
  ∀ socket call bytes result, a = .sent socket call bytes result → bytes ⊆ sessionBytes before

def Contained (x : Instance api β) : Prop := Along Own x.history

/-- A connection is opened only on an instance whose list is empty. -/
def StartsEmpty (tcp : Tcp) (x : Instance api β) : Op β → Prop
  | .open replies _ _ => ∀ s, x.handle = some s → s.ioState = .closed → Connects tcp replies →
      api.items s.pendingIoList = []
  | _ => True

instance (tcp : Tcp) (x : Instance api β) (a : Op β) : Decidable (StartsEmpty tcp x a) :=
  match a with
  | .open _ _ _ => decidableNext x.handle fun _ => inferInstanceAs (Decidable (_ → _ → _))
  | .create | .close _ _ | .destroy _ _ | .send _ _ _ | .dowork | .sendNext _ | .remove _
  | .receive _ => isTrue trivial

/-! ## The invariant -/

/-- The list of a connected instance holds bytes of this connection. -/
structure Inv (x : Instance api β) : Prop where
  contained : Contained x
  entries : ∀ s, x.handle = some s → s.connection = true →
    ∀ p ∈ api.items s.pendingIoList, ∀ e, s.heap p = some e → e.bytes ⊆ sessionBytes x.history

theorem inv_init : Inv (Instance.init api β) := ⟨trivial, nofun⟩

theorem sessionBytes_append {items : List (Item β)} (h : ∀ a ∈ items, boundary a = false)
    (before : List (Item β)) :
    sessionBytes (items ++ before) = items.flatMap queuedBytes ++ sessionBytes before := by
  rw [sessionBytes, since_append h, List.flatMap_append, sessionBytes]

theorem subset_sessionBytes {items : List (Item β)} (h : ∀ a ∈ items, boundary a = false)
    (before : List (Item β)) : sessionBytes before ⊆ sessionBytes (items ++ before) := by
  rw [sessionBytes_append h]
  exact List.subset_append_right _ _

theorem own_append {items before : List (Item β)}
    (h : ∀ a ∈ items, ∀ socket call bytes result, a ≠ .sent socket call bytes result)
    (hb : Along Own before) : Along Own (items ++ before) := by
  apply Along.append _ hb
  intro a back hsuffix socket call bytes result ha
  exact absurd ha (h a (hsuffix.mem List.mem_cons_self) socket call bytes result)

theorem Inv.next {x : Instance api β} (h : Inv x) {s : State api β} (hx : x.handle = some s)
    {t : State api β} {test : Bool} {calls : ℕ} {items : List (Item β)}
    (hown : Along Own (items ++ x.history))
    (hconn : t.connection = true → s.connection = true ∧ ∀ a ∈ items, boundary a = false)
    (hentries : ∀ p ∈ api.items t.pendingIoList, ∀ e, t.heap p = some e →
      p ∈ api.items s.pendingIoList ∧ ∃ e', s.heap p = some e' ∧ e.bytes ⊆ e'.bytes) :
    Inv ⟨some t, test, calls, items ++ x.history⟩ := by
  refine ⟨hown, ?_⟩
  intro t' ht' hconn' p hp e he
  cases ht'
  obtain ⟨hconn, hboundary⟩ := hconn hconn'
  obtain ⟨hp, e', he', hsub⟩ := hentries p hp e he
  exact List.Subset.trans (List.Subset.trans hsub (h.entries s hx hconn p hp e' he'))
    (subset_sessionBytes hboundary _)

/-- The bytes of the head entry that are offered were queued during this connection. -/
theorem Inv.sends {x : Instance api β} (h : Inv x) {s : State api β} (hx : x.handle = some s)
    (tcp : Tcp) (socket reply : ℤ) :
    Along Own ((s.load tcp).sends socket reply ++ x.history) := by
  apply Along.append _ h.contained
  intro a back hsuffix socket' call bytes result ha
  obtain ⟨p, e, hhead, he, hconn, -, ha'⟩ := mem_sends (hsuffix.mem List.mem_cons_self)
  rw [ha] at ha'
  cases ha'
  have hp : p ∈ api.items s.pendingIoList := by
    rw [api.headItem_eq] at hhead
    exact List.mem_of_mem_head? hhead
  have hback : ∀ b ∈ back, boundary b = false := by
    intro b hb
    obtain ⟨-, -, -, -, -, -, rfl⟩ := mem_sends (hsuffix.mem (List.mem_cons_of_mem _ hb))
    rfl
  have hbytes := h.entries s hx hconn p hp e he
  exact List.Subset.trans (List.take_subset _ _)
    (List.Subset.trans hbytes (subset_sessionBytes hback _))

/-! ## One step -/

/-- An item that neither sends nor is a boundary. -/
def neutral : Item β → Bool
  | .sent _ _ _ _ | .opened _ | .dropped => false
  | _ => true

theorem boundary_of_neutral {a : Item β} (h : neutral a = true) : boundary a = false := by
  cases a with
  | opened | dropped => cases h
  | called | queued | sent | received | callback => rfl

theorem own_neutral {items before : List (Item β)} (h : ∀ a ∈ items, neutral a = true)
    (hb : Along Own before) : Along Own (items ++ before) := by
  apply own_append _ hb
  rintro _ ha socket call bytes result rfl
  exact absurd (h _ ha) nofun

theorem Inv.disconnect {x : Instance api β} (h : Inv x) {t : State api β}
    (hconn : t.connection = false) {test : Bool} {calls : ℕ} {items : List (Item β)}
    (hitems : ∀ a ∈ items, a = .dropped) : Inv ⟨some t, test, calls, items ++ x.history⟩ := by
  refine ⟨own_append ?_ h.contained, ?_⟩
  · rintro a ha socket call bytes result heq
    rw [hitems a ha] at heq
    cases heq
  · intro t' ht' hconn'
    cases ht'
    simp [hconn] at hconn'

theorem Inv.keep {x : Instance api β} (h : Inv x) {s : State api β} (hx : x.handle = some s)
    {t : State api β} {test : Bool} {calls : ℕ} {items : List (Item β)}
    (hitems : ∀ a ∈ items, neutral a = true) (hconn : t.connection = s.connection)
    (hentries : ∀ p ∈ api.items t.pendingIoList, ∀ e, t.heap p = some e →
      p ∈ api.items s.pendingIoList ∧ s.heap p = some e) :
    Inv ⟨some t, test, calls, items ++ x.history⟩ := by
  apply h.next hx (own_neutral hitems h.contained)
  · exact fun ht => ⟨hconn ▸ ht, fun a ha => boundary_of_neutral (hitems a ha)⟩
  · intro p hp e he
    obtain ⟨hp, he⟩ := hentries p hp e he
    exact ⟨hp, e, he, List.Subset.refl _⟩

theorem Inv.sent {x : Instance api β} (h : Inv x) {s : State api β} {tcp : Tcp}
    (hx : x.handle = some s) {p : ℕ} {e : PendingSocketIo β} (he : s.heap p = some e)
    (entry : Option (PendingSocketIo β)) (hentry : ∀ e', entry = some e' → e'.bytes ⊆ e.bytes)
    {reply : ℤ} {items : List (Item β)} (hitems : ∀ a ∈ items, neutral a = true)
    {t : State api β} (hconn : t.connection = s.connection)
    (hlist : t.pendingIoList = s.pendingIoList) (hheap : t.heap = Function.update s.heap p entry)
    {test : Bool} {calls : ℕ} :
    Inv ⟨some t, test, calls, items ++ ((s.load tcp).sends tcp.id reply ++ x.history)⟩ := by
  have hown := own_neutral hitems (h.sends hx tcp tcp.id reply)
  rw [← List.append_assoc] at hown ⊢
  apply h.next hx hown
  · refine fun ht => ⟨hconn ▸ ht, List.forall_mem_append.mpr ⟨?_, ?_⟩⟩
    · exact fun a ha => boundary_of_neutral (hitems a ha)
    · exact forall_sends fun _ _ _ => rfl
  · intro q hq e' he'
    rw [hlist] at hq
    rw [hheap] at he'
    refine ⟨hq, ?_⟩
    by_cases hqp : q = p
    · rw [hqp, Function.update_self] at he'
      exact ⟨e, hqp ▸ he, hentry e' he'⟩
    · rw [Function.update_of_ne hqp] at he'
      exact ⟨e', he', List.Subset.refl _⟩

theorem Inv.queued {x : Instance api β} (h : Inv x) {s : State api β} (hx : x.handle = some s)
    {p : ℕ} {tcp : Tcp} {buffer : List β} {context : Option ℕ}
    {front back : List (Item β)} (hfront : ∀ a ∈ front, neutral a = true)
    (hback : ∀ a ∈ back, neutral a = true) {test : Bool} {calls : ℕ} :
    Inv ⟨some ((s.load tcp).addPendingIo buffer context p), test, calls,
      front ++ .queued context buffer :: back ++ x.history⟩ := by
  have hitems : ∀ a ∈ front ++ .queued context buffer :: back, neutral a = true :=
    List.forall_mem_append.mpr ⟨hfront, List.forall_mem_cons.mpr ⟨rfl, hback⟩⟩
  have hboundary : ∀ a ∈ front ++ .queued context buffer :: back, boundary a = false :=
    fun a ha => boundary_of_neutral (hitems a ha)
  refine ⟨own_neutral hitems h.contained, ?_⟩
  intro t ht hconn q hq e he
  cases ht
  change q ∈ api.items (api.add s.pendingIoList p) at hq
  change Function.update s.heap p _ q = some e at he
  rw [api.items_add, List.mem_append, List.mem_singleton] at hq
  by_cases hqp : q = p
  · -- The new entry holds the buffer that was queued just now.
    rw [hqp, Function.update_self] at he
    cases he
    simp only [sessionBytes_append hboundary]
    intro byte hbyte
    apply List.mem_append_left
    exact List.mem_flatMap.mpr ⟨_, List.mem_append_right _ List.mem_cons_self, hbyte⟩
  · rw [Function.update_of_ne hqp] at he
    have hold := h.entries s hx hconn q (hq.resolve_right hqp) e he
    exact List.Subset.trans hold (subset_sessionBytes hboundary _)

theorem Inv.effect {tcp tcp' : Tcp} {x x' : Instance api β} {s : State api β} {a : Op β}
    (h : Inv x) (hx : x.handle = some s) (hok : StartsEmpty tcp x a)
    (heffect : Effect tcp x (s.load tcp) a tcp' x') : Inv x' := by
  -- Most steps leave the list and the heap alone.
  have hsame : ∀ p ∈ api.items s.pendingIoList, ∀ e, s.heap p = some e →
      p ∈ api.items s.pendingIoList ∧ s.heap p = some e := fun p hp e he => ⟨hp, he⟩
  cases heffect with
  | opened hpc hclosed hconnects =>
      refine ⟨⟨nofun, h.contained⟩, ?_⟩
      intro t ht hconn p hp
      cases ht
      change p ∈ api.items s.pendingIoList at hp
      rw [hok s hx hclosed hconnects] at hp
      cases hp
  | openFailed =>
      exact h.disconnect rfl (forall_ite rfl)
  | close =>
      rcases close_cases (s.load tcp) with ⟨-, hstate, hdrops⟩ | ⟨-, hstate⟩
      · rw [hstate, hdrops]
        exact h.keep hx (List.forall_mem_nil _) rfl hsame
      · rw [hstate]
        exact h.disconnect rfl (forall_drops rfl)
  | destroy =>
      refine ⟨own_append (forall_drops ?_) h.contained, nofun⟩
      intro socket call bytes result heq
      cases heq
  | rejected =>
      rw [← List.append_assoc]
      refine h.keep hx (List.forall_mem_append.mpr ⟨?_, ?_⟩) rfl hsame
      · exact forall_completes fun _ => rfl
      · exact forall_called fun _ => rfl
  | queued =>
      rw [← List.cons_append, ← List.append_assoc]
      exact h.queued hx (forall_completes fun _ => rfl) (forall_called fun _ => rfl)
  | dowork | drained | loopEnd =>
      exact h.keep hx (List.forall_mem_nil _) rfl hsame
  | removed =>
      refine h.keep hx (List.forall_mem_nil _) rfl fun p hp e he => ⟨?_, he⟩
      change p ∈ api.items (api.removeHead s.pendingIoList) at hp
      rw [api.items_removeHead] at hp
      exact List.mem_of_mem_tail hp
  | completed hpc hhead he =>
      apply h.sent hx he none nofun
      · exact forall_completes fun _ => rfl
      all_goals rfl
  | @sendFailed reply p e hpc hhead he =>
      apply h.sent hx he (some e)
      · intro e' he'
        cases he'
        exact List.Subset.refl _
      · exact forall_fails rfl
      · rfl
      · rfl
      · exact (Function.update_eq_self_iff.mpr he.symm).symm
  | @sentPart reply p e hpc hhead he =>
      apply h.sent hx he (some (State.moved _ _)) _ (List.forall_mem_nil _)
      · rfl
      · rfl
      · rfl
      · intro e' he'
        cases he'
        exact List.append_subset.mpr ⟨List.drop_subset _ _, List.drop_subset _ _⟩
  | removeFailed =>
      exact h.keep hx (forall_fails rfl) rfl hsame
  | data =>
      rw [List.append_cons]
      refine h.keep hx (List.forall_mem_append.mpr ⟨forall_ite rfl, ?_⟩) rfl hsame
      exact List.forall_mem_singleton.mpr rfl
  | receiveFailed =>
      rw [← List.append_assoc]
      refine h.keep hx (List.forall_mem_append.mpr ⟨forall_fails rfl, ?_⟩) rfl hsame
      exact forall_receives rfl
  | noData =>
      rw [← List.singleton_append]
      exact h.keep hx (List.forall_mem_singleton.mpr rfl) rfl hsame

theorem Inv.step {tcp tcp' : Tcp} {x x' : Instance api β} {a : Op β} (h : Inv x)
    (hok : StartsEmpty tcp x a) (hs : x.step tcp a = some (tcp', x')) : Inv x' := by
  rcases step_effect hs with ⟨hx, -, -, rfl⟩ | ⟨s, hx, heffect⟩
  · refine ⟨h.contained, ?_⟩
    intro t ht hconn
    cases ht
    cases hconn
  · exact h.effect hx hok heffect

/-- For any instances, in any interleaving of calls on them, no byte leaves in another
connection than its own, if every connection is opened on an empty list. -/
theorem contained_of_startsEmpty (ι : Type) [DecidableEq ι] (acts : List (ι × Op β))
    (h : Meets System.step (Family.At StartsEmpty) (System.init ι api β) acts) :
    Always System.step (fun s => ∀ i, Contained (s.2 i)) (System.init ι api β) acts := by
  apply Family.always_of_meets _ _ _ h
  · exact Inv
  · exact fun _ _ _ _ _ h hok hs => Inv.step h hok hs
  · exact fun _ h => h.contained
  · exact fun _ => inv_init

/-- A byte is sent, the instance is closed and opened again, and another byte is sent. -/
def twoSessions : List (Unit × Op Bool) :=
  [.create, .open ⟨0, 0, 0, 0⟩ true true, .send (some [true]) false (some 0), .dowork, .sendNext 1,
    .remove true, .sendNext 0, .receive (.error iotSocketEagain), .close 0 0,
    .open ⟨1, 0, 0, 0⟩ true true, .send (some [false]) false (some 0), .dowork,
    .sendNext 1].map ((), ·)

theorem twoSessions_contained :
    Always System.step (fun s => ∀ i, Contained (s.2 i)) (System.init Unit lists Bool)
      twoSessions :=
  contained_of_startsEmpty Unit twoSessions (by decide)

/-- A byte is queued in one session and sent in the next one. -/
def lateByte : List (Unit × Op Bool) :=
  [.create, .open ⟨0, 0, 0, 0⟩ true true, .send (some [true]) false (some 0), .close 0 0,
    .open ⟨1, 0, 0, 0⟩ true true, .dowork, .sendNext 1].map ((), ·)

theorem lateByte_not_contained :
    ¬ ∀ acts s, run System.step (System.init Unit lists Bool) acts = some s →
      ∀ i, Contained (s.2 i) := by
  intro h
  exact absurd ((h lateByte _ rfl ()).1 1 none [true] 1 rfl) (by decide)

end OpenIotSdk.SocketIo.Sessions
