import OpenIotSdk.Library.History
import OpenIotSdk.Verification.SocketIo.Semantics
import OpenIotSdk.Verification.SocketIo.Integrity
import Mathlib.Data.List.Count

/-! # Completion of sends

`socketio_send` calls `on_send_complete` when it has queued the buffer, and `send_queued_data`
calls it once more. What is never sent is never reported. -/

namespace OpenIotSdk.SocketIo.Completion

open Transition History

variable {api : SinglyLinkedList ℕ} {β : Type}

/-- The call of `socketio_send` with a callback that an item is about. -/
def owner : Item β → Option ℕ
  | .called call | .callback (.sendComplete call _) => some call
  | .queued call _ | .sent _ call _ _ => call
  | _ => none

def isCall (call : ℕ) : Item β → Bool
  | .called c => decide (c = call)
  | _ => false

def isCompletion (call : ℕ) : Item β → Bool
  | .callback (.sendComplete c _) => decide (c = call)
  | _ => false

/-- What the socket took of the buffer of a call. -/
def taken (call : ℕ) : Item β → List β
  | .sent _ (some c) bytes result => if c = call then bytes.take result.toNat else []
  | _ => []

def acceptedBytes (call : ℕ) (history : List (Item β)) : List β :=
  history.reverse.flatMap (taken call)

def completions (call : ℕ) (history : List (Item β)) : ℕ := history.countP (isCompletion call)

/-- The call may still be completed: its entry is queued on an open instance, or the instance
is in the middle of `socketio_dowork`. -/
def Outstanding (x : Instance api β) (call : ℕ) : Prop :=
  ∃ s, x.handle = some s ∧
    (s.pc ≠ .idle ∨ s.ioState = .open ∧
      ∃ p ∈ api.items s.pendingIoList, ∃ e, s.heap p = some e ∧ e.onSendComplete = some call)

/-- Every call is completed exactly once, unless it is outstanding, and with `IO_SEND_OK` only
after the socket accepted the whole buffer. -/
structure Disciplined (x : Instance api β) : Prop where
  once : ∀ call, completions call x.history ≤ 1
  called : ∀ call, completions call x.history = 1 → .called call ∈ x.history
  completed : ∀ call, .called call ∈ x.history →
    completions call x.history = 1 ∨ Outstanding x call
  whole : Along (fun a before => ∀ call, a = .callback (.sendComplete call true) →
    ∃ bytes, .queued (some call) bytes ∈ before ∧
      bytes.Sublist (acceptedBytes call before)) x.history

def Rejected (_ : Tcp) (x : Instance api β) : Op β → Prop
  | .send buffer true entry => ∀ s, x.handle = some s → s.queues buffer entry = none
  | _ => True

/-! ## The invariant -/

structure Inv (x : Instance api β) : Prop where
  entries : ∀ s, x.handle = some s → ∀ p e, s.heap p = some e → e.onSendComplete = none
  items : ∀ a ∈ x.history, owner a = none ∨
    ∃ call, a = .called call ∨ a = .callback (.sendComplete call false)
  counts : ∀ call, completions call x.history = x.history.countP (isCall call)
  once : ∀ call, completions call x.history ≤ 1
  new : ∀ call, x.calls ≤ call → completions call x.history = 0

theorem inv_init : Inv (Instance.init api β) :=
  ⟨nofun, nofun, fun _ => rfl, fun _ => Nat.zero_le 1, fun _ _ => rfl⟩

theorem called_mem_iff {call : ℕ} {history : List (Item β)} :
    .called call ∈ history ↔ 0 < history.countP (isCall call) := by
  rw [List.countP_pos_iff]
  constructor
  · intro h
    exact ⟨_, h, decide_eq_true rfl⟩
  · rintro ⟨a, ha, hcall⟩
    cases a with
    | called c => exact of_decide_eq_true hcall ▸ ha
    | queued | sent | received | callback | opened | dropped => cases hcall

theorem Inv.disciplined {x : Instance api β} (h : Inv x) : Disciplined x := by
  refine ⟨h.once, ?_, ?_, ?_⟩
  · intro call hone
    rw [h.counts] at hone
    exact called_mem_iff.mpr (by omega)
  · intro call hcall
    have hpos := called_mem_iff.mp hcall
    rw [← h.counts] at hpos
    have := h.once call
    exact .inl (by omega)
  · -- No item reports `IO_SEND_OK`.
    have hitems := h.items
    generalize x.history = history at hitems ⊢
    induction history with
    | nil => trivial
    | cons a before ih =>
        refine ⟨?_, ih fun b hb => hitems b (List.mem_cons_of_mem a hb)⟩
        rintro call rfl
        rcases hitems _ List.mem_cons_self with hnone | ⟨c, hc | hc⟩
        · cases hnone
        · cases hc
        · cases hc

/-! ## Items -/

theorem counts_of_owner {a : Item β} (h : owner a = none) (call : ℕ) :
    isCompletion call a = false ∧ isCall call a = false := by
  cases a with
  | called | queued | sent | received | opened | dropped => first | exact ⟨rfl, rfl⟩ | cases h
  | callback event =>
      cases event with
      | sendComplete => cases h
      | bytesReceived | ioError => exact ⟨rfl, rfl⟩

theorem Inv.next {x : Instance api β} (h : Inv x) {handle : Option (State api β)} {test : Bool}
    {calls : ℕ} (hcalls : x.calls ≤ calls) {items : List (Item β)}
    (hitems : ∀ a ∈ items, owner a = none)
    (hheap : ∀ s, handle = some s → ∀ p e, s.heap p = some e → e.onSendComplete = none) :
    Inv ⟨handle, test, calls, items ++ x.history⟩ := by
  have hcompletions : ∀ call, completions call (items ++ x.history) =
      completions call x.history := by
    intro call
    have hzero : items.countP (isCompletion call) = 0 := by
      apply List.countP_eq_zero.mpr
      exact fun a ha => by simp [(counts_of_owner (hitems a ha) call).1]
    rw [completions, List.countP_append, hzero, Nat.zero_add, completions]
  refine ⟨hheap, ?_, fun call => ?_, fun call => ?_, fun call hnew => ?_⟩
  · intro a ha
    rcases List.mem_append.mp ha with ha | ha
    · exact .inl (hitems a ha)
    · exact h.items a ha
  · have hzero : items.countP (isCall call) = 0 := by
      apply List.countP_eq_zero.mpr
      exact fun a ha => by simp [(counts_of_owner (hitems a ha) call).2]
    rw [hcompletions, List.countP_append, hzero, Nat.zero_add]
    exact h.counts call
  · rw [hcompletions]
    exact h.once call
  · rw [hcompletions]
    exact h.new call (hcalls.trans hnew)

theorem Inv.reject {x : Instance api β} (h : Inv x) {s : State api β}
    (hheap : ∀ p e, s.heap p = some e → e.onSendComplete = none) :
    Inv ⟨some s, x.test, x.calls + 1,
      .callback (.sendComplete x.calls false) :: .called x.calls :: x.history⟩ := by
  have hcompletions : ∀ call, completions call
      (.callback (.sendComplete x.calls false) :: .called x.calls :: x.history) =
      completions call x.history + if x.calls = call then 1 else 0 := by
    intro call
    simp [completions, isCompletion, List.countP_cons]
  refine ⟨?_, ?_, fun call => ?_, fun call => ?_, fun call hnew => ?_⟩
  · intro t ht
    cases ht
    exact hheap
  · intro a ha
    rcases List.mem_cons.mp ha with rfl | ha
    · exact .inr ⟨x.calls, .inr rfl⟩
    · rcases List.mem_cons.mp ha with rfl | ha
      · exact .inr ⟨x.calls, .inl rfl⟩
      · exact h.items a ha
  · have hcounts := h.counts call
    rw [hcompletions, hcounts]
    simp [isCall, List.countP_cons]
  · rw [hcompletions]
    have honce := h.once call
    split
    · next heq => rw [h.new call (Nat.le_of_eq heq)]
    · exact honce
  · rw [hcompletions, h.new call (Nat.le_of_succ_le hnew), if_neg (Nat.ne_of_lt hnew)]

/-! ## One step -/

theorem Inv.owner_sends {x : Instance api β} (h : Inv x) {s : State api β} {tcp : Tcp}
    (hx : x.handle = some s) {socket reply : ℤ} {a : Item β}
    (ha : a ∈ (s.load tcp).sends socket reply) : owner a = none := by
  obtain ⟨p, e, -, he, -, -, rfl⟩ := mem_sends ha
  exact h.entries s hx p e he

theorem entries_update {heap : ℕ → Option (PendingSocketIo β)} {p : ℕ}
    (h : ∀ q e, heap q = some e → e.onSendComplete = none) {entry : Option (PendingSocketIo β)}
    (hentry : ∀ e, entry = some e → e.onSendComplete = none) (q : ℕ) (e : PendingSocketIo β)
    (hq : Function.update heap p entry q = some e) : e.onSendComplete = none := by
  by_cases hqp : q = p
  · rw [hqp, Function.update_self] at hq
    exact hentry e hq
  · rw [Function.update_of_ne hqp] at hq
    exact h q e hq

theorem Inv.effect {tcp tcp' : Tcp} {x x' : Instance api β} {s : State api β} {a : Op β}
    (h : Inv x) (hx : x.handle = some s) (hok : Rejected tcp x a)
    (heffect : Effect tcp x (s.load tcp) a tcp' x') : Inv x' := by
  have hheap := h.entries s hx
  -- Most steps leave the heap alone.
  have hsame : ∀ {t t' : State api β}, t.heap = s.heap → some t = some t' →
      ∀ p e, t'.heap p = some e → e.onSendComplete = none := by
    intro t t' ht hs p e he
    cases hs
    exact hheap p e (ht ▸ he)
  cases heffect with
  | opened =>
      rw [← List.singleton_append]
      exact h.next (Nat.le_refl _) (List.forall_mem_singleton.mpr rfl) fun _ => hsame rfl
  | openFailed =>
      exact h.next (Nat.le_refl _) (forall_ite rfl) fun _ => hsame rfl
  | close =>
      apply h.next (Nat.le_refl _) (forall_drops rfl)
      intro _
      apply hsame
      dsimp only [State.closeTcpConnection]
      split <;> rfl
  | destroy =>
      apply h.next (Nat.le_refl _) (forall_drops rfl)
      intro t ht
      cases ht
  | @rejected buffer callback entry hpc hq =>
      cases callback with
      | true => exact h.reject hheap
      | false => exact h.next (Nat.le_succ _) (List.forall_mem_nil _) fun _ => hsame rfl
  | @queued buffer callback p hpc hp hlen hopen =>
      cases callback with
      | true =>
          have hq : s.queues (some buffer) (some p) = some buffer :=
            if_neg (not_or.mpr ⟨hlen, not_not.mpr hopen⟩)
          rw [hok s hx] at hq
          cases hq
      | false =>
          have hitems : ∀ a ∈ [Item.queued none buffer], owner a = none := by
            simp [owner]
          refine h.next (Nat.le_succ _) hitems fun t ht => ?_
          cases ht
          apply entries_update hheap
          intro e he
          cases he
          rfl
  | dowork | drained | removed | loopEnd =>
      exact h.next (Nat.le_refl _) (List.forall_mem_nil _) fun _ => hsame rfl
  | completed hpc hhead he =>
      have hnone := hheap _ _ he
      simp only [hnone, completes, Option.toList_none, List.map_nil, List.nil_append]
      apply h.next (Nat.le_refl _) fun a ha => h.owner_sends hx ha
      intro t ht
      cases ht
      exact entries_update hheap (by simp)
  | sendFailed =>
      rw [← List.append_assoc]
      apply h.next (Nat.le_refl _) (List.forall_mem_append.mpr ⟨forall_fails rfl, ?_⟩)
      · exact fun _ => hsame rfl
      · exact fun a ha => h.owner_sends hx ha
  | @sentPart reply p e hpc hhead he =>
      apply h.next (Nat.le_refl _) fun a ha => h.owner_sends hx ha
      intro t ht
      cases ht
      apply entries_update hheap
      intro e' he'
      cases he'
      exact hheap p e he
  | removeFailed =>
      exact h.next (Nat.le_refl _) (forall_fails rfl) fun _ => hsame rfl
  | data =>
      rw [List.append_cons]
      apply h.next (Nat.le_refl _) (List.forall_mem_append.mpr ⟨forall_ite rfl, ?_⟩)
      · exact fun _ => hsame rfl
      · exact List.forall_mem_singleton.mpr rfl
  | receiveFailed =>
      rw [← List.append_assoc]
      apply h.next (Nat.le_refl _) (List.forall_mem_append.mpr ⟨forall_fails rfl, ?_⟩)
      · exact fun _ => hsame rfl
      · exact forall_receives rfl
  | noData =>
      rw [← List.singleton_append]
      exact h.next (Nat.le_refl _) (List.forall_mem_singleton.mpr rfl) fun _ => hsame rfl

theorem Inv.step {tcp tcp' : Tcp} {x x' : Instance api β} {a : Op β} (h : Inv x)
    (hok : Rejected tcp x a) (hs : x.step tcp a = some (tcp', x')) : Inv x' := by
  rcases step_effect hs with ⟨hx, -, -, rfl⟩ | ⟨s, hx, heffect⟩
  · refine h.next (Nat.le_refl _) (List.forall_mem_nil _) fun t ht => ?_
    cases ht
    nofun
  · exact h.effect hx hok heffect

theorem Inv.acceptedBytes {x : Instance api β} (h : Inv x) (call : ℕ) :
    acceptedBytes call x.history = [] := by
  apply List.flatMap_eq_nil_iff.mpr
  intro a ha
  rcases h.items a (List.mem_reverse.mp ha) with hnone | ⟨c, rfl | rfl⟩
  · cases a with
    | sent socket c bytes result =>
        cases hnone
        rfl
    | called | queued | received | callback | opened | dropped => rfl
  · rfl
  · rfl

/-- A call that is not rejected reports success before anything was sent. -/
theorem undisciplined_of_not_rejected {tcp tcp' : Tcp} {x x' : Instance api β} {a : Op β}
    (h : Inv x) (hs : x.step tcp a = some (tcp', x')) (hbad : ¬ Rejected tcp x a) :
    ¬ Disciplined x' := by
  intro hx'
  cases a with
  | create | «open» | close | destroy | dowork | sendNext | remove | receive => exact hbad trivial
  | send buffer callback entry =>
      cases callback with
      | false => exact hbad trivial
      | true =>
          rcases step_effect hs with ⟨-, ha, -⟩ | ⟨s, hx, heffect⟩
          · cases ha
          cases heffect with
          | rejected hpc hq =>
              apply hbad
              intro s' hs'
              rw [hx, Option.some.injEq] at hs'
              exact hs' ▸ hq
          | @queued bytes _ p hpc hp hlen hopen =>
              obtain ⟨found, hfound, hsub⟩ := hx'.whole.1 x.calls rfl
              have hnone : Completion.acceptedBytes x.calls
                  (.queued (some x.calls) bytes :: .called x.calls :: x.history) = [] := by
                have hbefore := h.acceptedBytes x.calls
                dsimp only [Completion.acceptedBytes] at hbefore ⊢
                simp [hbefore, taken]
              have hempty : found = [] := List.sublist_nil.mp (hnone ▸ hsub)
              rcases List.mem_cons.mp hfound with heq | hfound
              · cases heq
                exact hlen (congrArg List.length hempty)
              · rcases List.mem_cons.mp hfound with heq | hfound
                · cases heq
                · rcases h.items _ hfound with hc | ⟨c, hc | hc⟩ <;> cases hc

/-- For any instances, in any interleaving of calls on them, sends are completed as they
should be exactly when every send with a callback is rejected. -/
theorem disciplined_iff_rejected (ι : Type) [DecidableEq ι] (acts : List (ι × Op β)) :
    Always System.step (fun s => ∀ i, Disciplined (s.2 i)) (System.init ι api β) acts ↔
      Meets System.step (Family.At Rejected) (System.init ι api β) acts := by
  apply Family.always_iff_meets
  · exact fun _ _ _ _ _ h hok hs => Inv.step h hok hs
  · exact fun _ h => h.disciplined
  · exact fun _ _ _ _ _ h hs hbad => undisciplined_of_not_rejected h hs hbad
  · exact fun _ => inv_init

/-- A byte is queued, reported as sent, then sent and reported once more. -/
def completedTwice : List (Unit × Op Bool) :=
  [.create, .open ⟨0, 0, 0, 0⟩ true true, .send (some [true]) true (some 0), .dowork,
    .sendNext 1].map ((), ·)

theorem completedTwice_not_disciplined :
    ¬ ∀ acts s, run System.step (System.init Unit lists Bool) acts = some s →
      ∀ i, Disciplined (s.2 i) := by
  intro h
  exact absurd ((h completedTwice _ rfl ()).once 0) (by decide)

end OpenIotSdk.SocketIo.Completion
