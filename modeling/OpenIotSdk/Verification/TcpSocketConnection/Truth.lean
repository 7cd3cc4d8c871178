import OpenIotSdk.Library.Transition
import OpenIotSdk.Model.Azure.TcpSocketConnection

/-! # Truth of the connected flag

`tcpsocketconnection_destroy` leaves `isConnected` as it is, and `tcpsocketconnection_create`
writes over `id` without a look at the flag. -/

namespace OpenIotSdk.TcpSocketConnection

open Transition

/-- The flag stands for a connected socket, `connect` never returned 0 without one, and every
socket that was created is held in `id` or was passed to `iotSocketClose`. -/
structure Truthful (s : State) : Prop where
  connected : s.isConnected = true → s.joined = true
  returned : s.misreported = 0
  held : ∀ id, s.stack.unclosed id = true → id = s.id

/-- A socket is created only over a record that is not connected and holds no socket that
has still to be closed, and `destroy` closes the socket only of a record that is not connected. -/
def Orderly (s : State) : Action → Prop
  | .create reply =>
      0 ≤ s.stack.created reply → s.isConnected = false ∧ s.stack.unclosed s.id = false
  | .destroy handle reply =>
      handle = true → s.stack.answer s.id reply = 0 → s.isConnected = false
  | _ => True

instance (s : State) (a : Action) : Decidable (Orderly s a) :=
  match a with
  | .create _ => inferInstanceAs (Decidable (_ → _))
  | .destroy _ _ => inferInstanceAs (Decidable (_ → _ → _))
  | .connect _ _ _ | .close _ _ => isTrue trivial

/-! ## The stack -/

/-- A socket that has still to be closed is open, and an open socket has an id. -/
structure Consistent (k : Stack) : Prop where
  unclosed : ∀ id, k.unclosed id = true → k.isOpen id = true
  ids : ∀ id, k.isOpen id = true → 0 ≤ id

theorem Consistent.esock {k : Stack} (h : Consistent k) : k.isOpen iotSocketEsock = false := by
  by_contra hn
  exact absurd (h.ids _ (Bool.not_eq_false _ ▸ hn)) (by decide)

theorem Consistent.create {k : Stack} (h : Consistent k) (reply : ℤ) :
    Consistent (k.iotSocketCreate reply) := by
  dsimp only [Stack.iotSocketCreate]
  split
  · exact h
  · next hid =>
      constructor
      · intro id hun
        by_cases heq : id = k.created reply
        · subst heq
          exact Function.update_self ..
        · simp only [Function.update_of_ne heq] at hun ⊢
          exact h.unclosed id hun
      · intro id hopen
        by_cases heq : id = k.created reply
        · subst heq
          exact Int.not_lt.mp hid
        · simp only [Function.update_of_ne heq] at hopen
          exact h.ids id hopen

theorem Consistent.connect {k : Stack} (h : Consistent k) (id reply : ℤ) :
    Consistent (k.iotSocketConnect id reply) := by
  dsimp only [Stack.iotSocketConnect]
  split
  · exact ⟨h.unclosed, h.ids⟩
  · exact h

theorem Consistent.close {k : Stack} (h : Consistent k) (id reply : ℤ) :
    Consistent (k.iotSocketClose id reply) := by
  dsimp only [Stack.iotSocketClose]
  split
  · constructor
    · intro x hun
      by_cases heq : x = id
      · simp [heq] at hun
      · simp only [Function.update_of_ne heq] at hun ⊢
        exact h.unclosed x hun
    · intro x hopen
      by_cases heq : x = id
      · simp [heq] at hopen
      · simp only [Function.update_of_ne heq] at hopen
        exact h.ids x hopen
  · refine ⟨fun x hun => ?_, h.ids⟩
    by_cases heq : x = id
    · simp [heq] at hun
    · simp only [Function.update_of_ne heq] at hun
      exact h.unclosed x hun

/-- After `iotSocketClose` only other sockets have still to be closed. -/
theorem unclosed_close {k : Stack} {id reply x : ℤ}
    (h : (k.iotSocketClose id reply).unclosed x = true) : x ≠ id ∧ k.unclosed x = true := by
  have hx : Function.update k.unclosed id false x = true := by
    dsimp only [Stack.iotSocketClose] at h
    split at h <;> exact h
  by_cases heq : x = id
  · simp [heq] at hx
  · rw [Function.update_of_ne heq] at hx
    exact ⟨heq, hx⟩

/-! ## One call -/

structure Inv (s : State) : Prop where
  truthful : Truthful s
  stack : Consistent s.stack

theorem inv_init : Inv init :=
  ⟨⟨nofun, rfl, nofun⟩, nofun, nofun⟩

theorem Inv.create {s : State} (h : Inv s) {reply : ℤ} (hok : Orderly s (.create reply)) :
    Inv (s.create reply) := by
  have hstack := h.stack.create reply
  dsimp only [State.create, Stack.iotSocketCreate] at hstack ⊢
  split
  · next hid => exact h
  · next hid =>
      obtain ⟨hflag, hclosed⟩ := hok (Int.not_lt.mp hid)
      rw [if_neg hid] at hstack
      refine ⟨⟨fun hc => absurd hc (by simp [hflag]), h.truthful.returned, ?_⟩, hstack⟩
      intro id hun
      change id = s.stack.created reply
      by_contra heq
      have hold : s.stack.unclosed id = true := by
        rw [← hun]
        exact (Function.update_of_ne heq ..).symm
      rw [h.truthful.held id hold, hclosed] at hold
      exact absurd hold (by decide)

theorem Inv.connected {s : State} (h : Inv s) {reply : ℤ}
    (hreply : s.stack.answer s.id reply = 0) :
    Inv { s with stack := s.stack.iotSocketConnect s.id reply, isConnected := true } := by
  have hopen := Stack.isOpen_of_answer hreply
  have hstack : s.stack.iotSocketConnect s.id reply =
      { s.stack with connected := Function.update s.stack.connected s.id true } :=
    if_pos hreply
  refine ⟨⟨fun _ => ?_, h.truthful.returned, ?_⟩, h.stack.connect s.id reply⟩
  · simp [State.joined, hstack, hopen]
  · simp only [hstack]
    exact h.truthful.held

theorem Inv.connect {s : State} (h : Inv s) (handle : Bool) (host reply : ℤ) :
    Inv (s.connect handle host reply) := by
  dsimp only [State.connect]
  split
  · exact h
  · split
    · exact h
    · split
      · exact h
      · split
        · next hreply =>
            have hsame : s.stack.iotSocketConnect s.id reply = s.stack := if_neg hreply
            rw [hsame]
            exact h
        · next hreply => exact h.connected (not_not.mp hreply)

/-- `connect` returns 0 only on a connected socket. -/
theorem Inv.returned {s : State} (h : Inv s) {handle : Bool} {host reply : ℤ}
    (hreturn : s.connects handle host reply = true) :
    (s.connect handle host reply).joined = true := by
  have ht := h.connect handle host reply
  apply ht.truthful.connected
  simp only [State.connects, Bool.and_eq_true, Bool.or_eq_true, decide_eq_true_eq] at hreturn
  obtain ⟨rfl, hflag | ⟨hhost, hreply⟩⟩ := hreturn
  · simp [State.connect, hflag]
  · by_cases hflag : s.isConnected = true
    · simp [State.connect, hflag]
    · simp [State.connect, hflag, Int.not_lt.mpr hhost, hreply]

theorem Inv.check {s : State} (h : Inv s) {returned : Bool}
    (hreturn : returned = true → s.joined = true) : Inv (s.check returned) := by
  have hcount : (s.check returned).misreported = s.misreported := by
    dsimp only [State.check]
    rw [if_neg (fun hx => by simp [hreturn hx.1] at hx), Nat.add_zero]
  exact ⟨⟨h.truthful.connected, hcount.trans h.truthful.returned, h.truthful.held⟩, h.stack⟩

theorem Inv.notClosed {s : State} (h : Inv s) {reply : ℤ}
    (hreply : s.stack.answer s.id reply ≠ 0) :
    Inv { s with stack := s.stack.iotSocketClose s.id reply } := by
  have hstack : s.stack.iotSocketClose s.id reply =
      { s.stack with unclosed := Function.update s.stack.unclosed s.id false } := if_neg hreply
  refine ⟨⟨?_, h.truthful.returned, fun id hun => ?_⟩, h.stack.close s.id reply⟩
  · simp only [State.joined, hstack]
    exact h.truthful.connected
  · exact h.truthful.held id (unclosed_close hun).2

theorem Inv.closed {s : State} (h : Inv s) (reply : ℤ) :
    Inv { s with
      stack := s.stack.iotSocketClose s.id reply, isConnected := false, id := iotSocketEsock } := by
  refine ⟨⟨nofun, h.truthful.returned, fun id hun => ?_⟩, h.stack.close s.id reply⟩
  obtain ⟨hne, hold⟩ := unclosed_close hun
  exact absurd (h.truthful.held id hold) hne

theorem Inv.close {s : State} (h : Inv s) (handle : Bool) (reply : ℤ) :
    Inv (s.close handle reply) := by
  dsimp only [State.close]
  split
  · exact h
  · split
    · next hreply => exact h.notClosed hreply
    · exact h.closed reply

theorem Inv.destroy {s : State} (h : Inv s) {handle : Bool} {reply : ℤ}
    (hok : Orderly s (.destroy handle reply)) : Inv (s.destroy handle reply) := by
  dsimp only [State.destroy]
  split
  · exact h
  · next hhandle =>
      split
      · split
        · next hreply => exact h.notClosed hreply
        · next hreply =>
            rw [Bool.not_eq_false] at hhandle
            have hflag := hok hhandle (not_not.mp hreply)
            have hclosed := h.closed reply
            rw [← hflag] at hclosed
            exact hclosed
      · exact h

theorem Inv.step {s s' : State} {a : Action} (h : Inv s) (hok : Orderly s a)
    (hs : step s a = some s') : Inv s' := by
  cases a with
  | create reply => cases hs; exact h.create hok
  | connect handle host reply =>
      cases hs
      exact (h.connect handle host reply).check h.returned
  | close handle reply => cases hs; exact h.close handle reply
  | destroy handle reply => cases hs; exact h.destroy hok

/-- A forbidden call leaves a flag without a connection, or loses a socket. -/
theorem untruthful_of_not_orderly {s s' : State} {a : Action} (h : Inv s)
    (hs : step s a = some s') (hbad : ¬ Orderly s a) : ¬ Truthful s' := by
  intro ht
  cases a with
  | connect | close => exact hbad trivial
  | create reply =>
      cases hs
      apply hbad
      intro hid
      have hstate : s.create reply = { s with
          id := s.stack.created reply
          stack := ⟨Function.update s.stack.isOpen (s.stack.created reply) true,
            Function.update s.stack.connected (s.stack.created reply) false,
            Function.update s.stack.unclosed (s.stack.created reply) true⟩ } := by
        simp only [State.create, Stack.iotSocketCreate, if_neg (Int.not_lt.mpr hid)]
      rw [hstate] at ht
      constructor
      · by_contra hflag
        have hjoined := ht.connected (Bool.not_eq_false _ ▸ hflag)
        simp [State.joined] at hjoined
      · by_contra hun
        rw [Bool.not_eq_false] at hun
        have hne : s.id ≠ s.stack.created reply := by
          intro heq
          have hnew := Stack.isOpen_created hid
          rw [← heq, h.stack.unclosed s.id hun] at hnew
          exact absurd hnew (by decide)
        exact hne (ht.held s.id ((Function.update_of_ne hne ..).trans hun))
  | destroy handle reply =>
      cases hs
      apply hbad
      intro hhandle hreply
      have hopen := Stack.isOpen_of_answer hreply
      have hid : s.id ≠ iotSocketEsock := by
        intro heq
        have hesock := h.stack.esock
        rw [← heq, hopen] at hesock
        exact absurd hesock (by decide)
      have hstate : s.destroy handle reply = { s with
          stack := s.stack.iotSocketClose s.id reply, id := iotSocketEsock } := by
        simp [State.destroy, hhandle, hid, hreply]
      rw [hstate] at ht
      by_contra hflag
      have hjoined := ht.connected (Bool.not_eq_false _ ▸ hflag)
      simp [State.joined, Stack.iotSocketClose, hreply, Function.update_of_ne hid.symm,
        h.stack.esock] at hjoined

/-- Over any calls with any results of the stack, the record is truthful after each of them
exactly when every call is orderly. -/
theorem truthful_iff_orderly (acts : List Action) :
    Always step Truthful init acts ↔ Meets step Orderly init acts :=
  always_iff_meets Inv (fun _ _ _ h hok hs => h.step hok hs) (fun _ h => h.truthful)
    (fun _ _ _ h hs hbad => untruthful_of_not_orderly h hs hbad) inv_init acts

/-- A socket is connected and destroyed without a close, and `connect` on the next socket
returns 0 at once. -/
def staleFlag : List Action :=
  [.create 0, .connect true 0 0, .destroy true 0, .create 1, .connect true 0 0]

theorem staleFlag_not_truthful :
    ¬ ∀ acts s, run step init acts = some s → Truthful s := by
  intro h
  exact absurd (h staleFlag _ rfl).returned (by decide)

end OpenIotSdk.TcpSocketConnection
