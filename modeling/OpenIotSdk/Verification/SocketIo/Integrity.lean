import OpenIotSdk.Library.Transition
import OpenIotSdk.Model.Azure.SocketIo
import Mathlib.Data.List.Forall2
import Mathlib.Data.List.Nodup

/-! # Integrity of the byte stream

After a partial send the rest of an entry moves to the front of its block, but the size
stays, so that the next send offers stale bytes after it. The stream is right as long as
the socket takes no more of an entry than it has. -/

namespace OpenIotSdk.SocketIo

open Transition

variable {api : SinglyLinkedList ℕ} {β : Type}

/-- The socket accepted a front part of what was queued, no byte of an entry twice, and no
entry was freed too early. -/
structure Sound (s : State api β) : Prop where
  inOrder : s.accepted <+: s.queued
  once : ∀ p e, s.heap p = some e → e.taken ≤ e.queued.length
  whole : s.short = 0

/-- The socket takes no more of the head entry than it has, and all that it has when the
result is `(int)size`. -/
def Fits (s : State api β) : Action β → Prop
  | .sendNext reply => ∀ p e, api.headItem s.pendingIoList = some p → s.heap p = some e →
      if s.tcpsocketconnectionSend reply (toInt32 e.size) = toInt32 e.size then
        e.taken + (s.tcpsocketconnectionSend reply (toInt32 e.size)).toNat = e.size
      else e.taken + (s.tcpsocketconnectionSend reply (toInt32 e.size)).toNat ≤ e.size
  | _ => True

/-! ## Entries -/

namespace PendingSocketIo

/-- What the socket has still to accept. -/
def rest (e : PendingSocketIo β) : List β := e.queued.drop e.taken

/-- The block of the entry starts with the rest. -/
structure Valid (e : PendingSocketIo β) : Prop where
  size : e.size = e.queued.length
  taken : e.taken ≤ e.size
  bytes : e.bytes.take (e.size - e.taken) = e.rest

def take (e : PendingSocketIo β) (n : ℕ) : PendingSocketIo β := { e with taken := e.taken + n }

theorem Valid.length_rest {e : PendingSocketIo β} (h : e.Valid) :
    e.rest.length = e.size - e.taken := by
  rw [rest, List.length_drop, h.size]

theorem Valid.take_bytes {e : PendingSocketIo β} (h : e.Valid) {n : ℕ}
    (hn : e.taken + n ≤ e.size) : e.bytes.take n ++ (e.take n).rest = e.rest := by
  have hfront : e.bytes.take n = e.rest.take n := by
    rw [← h.bytes, List.take_take, Nat.min_eq_left (by omega)]
  have hback : (e.take n).rest = e.rest.drop n := by
    rw [rest, rest, List.drop_drop]
    rfl
  rw [hfront, hback, List.take_append_drop]

theorem Valid.moved {e : PendingSocketIo β} (h : e.Valid) {n : ℕ} (hn : e.taken + n ≤ e.size) :
    (State.moved (e.take n) n).Valid := by
  have hlen : e.size - e.taken ≤ e.bytes.length := by
    have := congrArg List.length h.bytes
    rw [List.length_take, h.length_rest] at this
    omega
  refine ⟨h.size, hn, ?_⟩
  change (e.bytes.drop n ++ e.bytes.drop (e.size - n)).take (e.size - (e.taken + n)) =
    e.queued.drop (e.taken + n)
  rw [List.take_append_of_le_length (by rw [List.length_drop]; omega), ← List.drop_drop]
  change _ = e.rest.drop n
  rw [← h.bytes, List.drop_take]
  exact congrArg (fun k => (e.bytes.drop n).take k) (by omega)

end PendingSocketIo

/-! ## The invariant -/

def State.live (s : State api β) : List ℕ :=
  if s.pc = .remove then (api.items s.pendingIoList).tail else api.items s.pendingIoList

/-- The live items hold the bytes that were queued and not yet accepted. -/
structure Chain (s : State api β) (queue : List (PendingSocketIo β)) : Prop where
  nodup : s.live.Nodup
  entries : List.Forall₂ (fun p e => s.heap p = some e) s.live queue
  stream : s.accepted ++ (queue.map PendingSocketIo.rest).flatten = s.queued

structure Inv (s : State api β) : Prop where
  inOrder : s.accepted <+: s.queued
  whole : s.short = 0
  valid : ∀ p e, s.heap p = some e → e.Valid
  working : s.pc = .loop ∨ s.pc = .remove → s.ioState = .open
  removing : s.pc = .remove → api.items s.pendingIoList ≠ []
  chain : s.ioState = .open → ∃ queue, Chain s queue

theorem inv_init (api : SinglyLinkedList ℕ) (onBytesReceived onIoError : Bool) :
    Inv (init api β onBytesReceived onIoError) := by
  refine ⟨List.nil_prefix, rfl, nofun, nofun, nofun, fun _ => ⟨[], ?_, ?_, rfl⟩⟩
  · change (api.items api.create).Nodup
    rw [api.items_create]
    exact List.nodup_nil
  · change List.Forall₂ _ (api.items api.create) []
    rw [api.items_create]
    exact .nil

theorem Inv.sound {s : State api β} (h : Inv s) : Sound s := by
  refine ⟨h.inOrder, ?_, h.whole⟩
  intro p e he
  have hvalid := h.valid p e he
  exact hvalid.size ▸ hvalid.taken

theorem forall₂_update {heap : ℕ → Option (PendingSocketIo β)} {ptrs : List ℕ}
    {queue : List (PendingSocketIo β)} {p : ℕ} (hp : p ∉ ptrs)
    (h : List.Forall₂ (fun q e => heap q = some e) ptrs queue)
    (entry : Option (PendingSocketIo β)) :
    List.Forall₂ (fun q e => Function.update heap p entry q = some e) ptrs queue := by
  induction h with
  | nil => exact .nil
  | cons hq _ ih =>
      rw [List.mem_cons, not_or] at hp
      exact .cons (by rw [Function.update_of_ne (Ne.symm hp.1)]; exact hq) (ih hp.2)

theorem valid_update {heap : ℕ → Option (PendingSocketIo β)} {p : ℕ}
    (h : ∀ q e, heap q = some e → e.Valid) {entry : Option (PendingSocketIo β)}
    (hentry : ∀ e, entry = some e → e.Valid) (q : ℕ) (e : PendingSocketIo β)
    (hq : Function.update heap p entry q = some e) : e.Valid := by
  by_cases hqp : q = p
  · rw [hqp, Function.update_self] at hq
    exact hentry e hq
  · rw [Function.update_of_ne hqp] at hq
    exact h q e hq

/-! ## Queueing -/

theorem Inv.sendComplete {s : State api β} (h : Inv s) (callback : Option ℕ) (ok : Bool) :
    Inv (s.sendComplete callback ok) := by
  cases callback with
  | none => exact h
  | some context =>
      refine ⟨h.inOrder, h.whole, h.valid, h.working, h.removing, fun hopen => ?_⟩
      obtain ⟨queue, hchain⟩ := h.chain hopen
      exact ⟨queue, hchain.nodup, hchain.entries, hchain.stream⟩

theorem Inv.addPendingIo {s : State api β} (h : Inv s) {p : ℕ} (hp : s.fresh (some p) = true)
    (buffer : List β) (callback : Option ℕ) : Inv (s.addPendingIo buffer callback p) := by
  simp only [State.fresh, Bool.and_eq_true, decide_eq_true_eq] at hp
  have hitems : api.items (api.add s.pendingIoList p) = api.items s.pendingIoList ++ [p] :=
    api.items_add _ _
  have hlive : (s.addPendingIo buffer callback p).live = s.live ++ [p] := by
    simp only [State.live, State.addPendingIo, State.setEntry, hitems]
    split
    · next hpc => exact List.tail_append_of_ne_nil (h.removing hpc)
    · rfl
  have hnotLive : p ∉ s.live := by
    dsimp only [State.live]
    split
    · exact fun hx => hp.2 (List.mem_of_mem_tail hx)
    · exact hp.2
  let e : PendingSocketIo β := ⟨buffer, buffer.length, callback, buffer, 0⟩
  have he : e.Valid := ⟨rfl, Nat.zero_le _, List.take_length⟩
  refine ⟨h.inOrder.trans (List.prefix_append _ _), h.whole, ?_, h.working, ?_, fun hopen => ?_⟩
  · exact valid_update h.valid fun e' he' => Option.some.inj he' ▸ he
  · intro _ hx
    exact absurd (hitems.symm.trans hx) (by simp)
  · obtain ⟨queue, hchain⟩ := h.chain hopen
    refine ⟨queue ++ [e], ?_, ?_, ?_⟩
    · rw [hlive, List.nodup_append]
      exact ⟨hchain.nodup, List.nodup_singleton p, by
        intro q hq r hr
        rw [List.mem_singleton.mp hr]
        exact fun hqp => hnotLive (hqp ▸ hq)⟩
    · rw [hlive]
      apply List.rel_append (forall₂_update hnotLive hchain.entries _)
      exact .cons (Function.update_self ..) .nil
    · change s.accepted ++ ((queue ++ [e]).map PendingSocketIo.rest).flatten = s.queued ++ buffer
      rw [List.map_append, List.flatten_append, ← List.append_assoc, hchain.stream]
      exact congrArg (s.queued ++ ·) (List.append_nil buffer)

theorem Inv.socketioSend {s : State api β} (h : Inv s) {entry : Option ℕ}
    (hentry : s.fresh entry = true) (buffer : Option (List β)) (callback : Option ℕ) :
    Inv (s.socketioSend buffer callback entry) := by
  dsimp only [State.socketioSend]
  split
  · split
    · exact h.sendComplete _ _
    · exact (h.addPendingIo hentry _ _).sendComplete _ _
  · exact h.sendComplete _ _

/-! ## Sending -/

theorem Inv.leave {s : State api β} (h : Inv s) {ioState : IoState} {pc : Pc}
    (events : List (Event β)) (hpc : pc ≠ .loop ∧ pc ≠ .remove)
    (hs : ioState = .open → s.ioState = .open ∧ s.pc ≠ .remove) :
    Inv { s with ioState := ioState, events := events, pc := pc } := by
  refine ⟨h.inOrder, h.whole, h.valid, fun hx => ?_, fun hx => absurd hx hpc.2, fun hopen => ?_⟩
  · exact absurd hx (by simp [hpc])
  · obtain ⟨queue, hchain⟩ := h.chain (hs hopen).1
    have hlive : State.live { s with ioState := ioState, events := events, pc := pc } =
        s.live := by
      rw [State.live, State.live, if_neg hpc.2, if_neg (hs hopen).2]
    exact ⟨queue, hlive ▸ hchain.nodup, hlive ▸ hchain.entries, hchain.stream⟩

theorem indicateError_eq (s : State api β) : ∃ ioState events, ioState ≠ .open ∧
    s.indicateError = { s with ioState := ioState, events := events } := by
  dsimp only [State.indicateError]
  split
  · next hs =>
      refine ⟨s.ioState, s.events, ?_, rfl⟩
      rcases hs with hs | hs <;> simp [hs]
  · split
    · exact ⟨.error, s.events ++ [.ioError], nofun, rfl⟩
    · exact ⟨.error, s.events, nofun, rfl⟩

theorem Inv.indicateError {s : State api β} (h : Inv s) {pc : Pc}
    (hpc : pc ≠ .loop ∧ pc ≠ .remove) : Inv (s.indicateError.goto pc) := by
  obtain ⟨ioState, events, hopen, heq⟩ := indicateError_eq s
  rw [heq]
  exact h.leave events hpc fun hx => absurd hx hopen

theorem Inv.head {s : State api β} (h : Inv s) (hpc : s.pc = .loop) {p : ℕ}
    (hp : api.headItem s.pendingIoList = some p) {e : PendingSocketIo β}
    (he : s.heap p = some e) :
    ∃ ptrs queue, api.items s.pendingIoList = p :: ptrs ∧ p ∉ ptrs ∧ ptrs.Nodup ∧
      List.Forall₂ (fun p e => s.heap p = some e) ptrs queue ∧
      s.accepted ++ (e.rest ++ (queue.map PendingSocketIo.rest).flatten) = s.queued := by
  obtain ⟨queue, hchain⟩ := h.chain (h.working (.inl hpc))
  have hlive : s.live = api.items s.pendingIoList := by rw [State.live, if_neg (by simp [hpc])]
  rw [api.headItem_eq] at hp
  obtain ⟨ptrs, hitems⟩ : ∃ ptrs, api.items s.pendingIoList = p :: ptrs :=
    List.head?_eq_some_iff.mp hp
  have hnodup := hchain.nodup
  have hentries := hchain.entries
  rw [hlive, hitems] at hnodup hentries
  cases hentries with
  | cons hfirst hrest =>
      obtain rfl := Option.some.inj (he.symm.trans hfirst)
      rw [List.nodup_cons] at hnodup
      refine ⟨ptrs, _, hitems, hnodup.1, hnodup.2, hrest, ?_⟩
      simpa using hchain.stream

/-- What the socket takes of the head entry comes next in the stream. -/
theorem accept {s : State api β} {e : PendingSocketIo β} (he : e.Valid) {n : ℕ}
    (hn : e.taken + n ≤ e.size) {later : List β}
    (h : s.accepted ++ (e.rest ++ later) = s.queued) :
    s.accepted ++ e.bytes.take n ++ ((e.take n).rest ++ later) = s.queued := by
  rw [← h, ← he.take_bytes hn]
  simp only [List.append_assoc]

theorem Inv.complete {s : State api β} (h : Inv s) (hpc : s.pc = .loop) {p : ℕ}
    (hp : api.headItem s.pendingIoList = some p) {e : PendingSocketIo β}
    (he : s.heap p = some e) {n : ℕ} (hn : e.taken + n = e.size) :
    Inv (State.complete { s with accepted := s.accepted ++ e.bytes.take n } p (e.take n)) := by
  obtain ⟨ptrs, queue, hitems, hnot, hnodup, hentries, hstream⟩ := h.head hpc hp he
  have hvalid := h.valid p e he
  have hstream := accept hvalid (Nat.le_of_eq hn) hstream
  have hdone : (e.take n).rest = [] := by
    apply List.drop_eq_nil_of_le
    exact Nat.le_of_eq (hn.trans hvalid.size).symm
  rw [hdone, List.nil_append] at hstream
  have hshort : (e.take n).taken = (e.take n).queued.length := hn.trans hvalid.size
  -- The callback only adds an event.
  obtain ⟨events, hevents⟩ : ∃ events,
      State.complete { s with accepted := s.accepted ++ e.bytes.take n } p (e.take n) =
        { s with
          accepted := s.accepted ++ e.bytes.take n
          heap := Function.update s.heap p none
          events := events
          short := s.short
          pc := .remove } := by
    dsimp only [State.complete]
    rw [if_pos hshort]
    cases hcallback : (e.take n).onSendComplete with
    | none => exact ⟨s.events, rfl⟩
    | some context => exact ⟨s.events ++ [.sendComplete context true], rfl⟩
  rw [hevents]
  refine ⟨⟨_, hstream⟩, h.whole, valid_update h.valid nofun, fun _ => h.working (.inl hpc),
    fun _ => ?_, fun _ => ⟨queue, ?_, ?_, hstream⟩⟩
  · change api.items s.pendingIoList ≠ []
    rw [hitems]
    exact List.cons_ne_nil _ _
  · change (api.items s.pendingIoList).tail.Nodup
    rw [hitems]
    exact hnodup
  · change List.Forall₂ _ (api.items s.pendingIoList).tail queue
    rw [hitems]
    exact forall₂_update hnot hentries none

theorem Inv.takesPart {s : State api β} (h : Inv s) (hpc : s.pc = .loop) {p : ℕ}
    (hp : api.headItem s.pendingIoList = some p) {e : PendingSocketIo β}
    (he : s.heap p = some e) {n : ℕ} (hn : e.taken + n ≤ e.size) :
    Inv ((State.setEntry { s with accepted := s.accepted ++ e.bytes.take n } p
      (some (State.moved (e.take n) n))).goto .loop) := by
  obtain ⟨ptrs, queue, hitems, hnot, hnodup, hentries, hstream⟩ := h.head hpc hp he
  have hvalid := h.valid p e he
  have hstream := accept hvalid hn hstream
  have hmoved := hvalid.moved hn
  refine ⟨⟨_, hstream⟩, h.whole, ?_, fun _ => h.working (.inl hpc), nofun, fun _ =>
    ⟨State.moved (e.take n) n :: queue, ?_, ?_, hstream⟩⟩
  · exact valid_update h.valid fun e' he' => Option.some.inj he' ▸ hmoved
  · change (api.items s.pendingIoList).Nodup
    rw [hitems]
    exact List.nodup_cons.mpr ⟨hnot, hnodup⟩
  · change List.Forall₂ _ (api.items s.pendingIoList) _
    rw [hitems]
    exact .cons (Function.update_self ..) (forall₂_update hnot hentries _)

/-! ## One step -/

theorem Inv.sendNext {s s' : State api β} (h : Inv s) (hpc : s.pc = .loop) {reply : ℤ}
    (hok : Fits s (.sendNext reply)) (hs : s.sendNext reply = some s') : Inv s' := by
  unfold State.sendNext at hs
  split at hs
  · cases hs
    exact h.leave s.events ⟨nofun, nofun⟩ fun hopen => ⟨hopen, by simp [hpc]⟩
  · next p hp =>
      obtain ⟨e, he, rfl⟩ := Option.map_eq_some_iff.mp hs
      have hfits := hok p e hp he
      dsimp only
      generalize s.tcpsocketconnectionSend reply (toInt32 e.size) = r at hfits ⊢
      split
      · next hall =>
          rw [if_pos hall] at hfits
          exact h.complete hpc hp he hfits
      · next hsome =>
          rw [if_neg hsome] at hfits
          split
          · next hneg =>
              rw [Int.toNat_of_nonpos (Int.le_of_lt hneg), List.take_zero, List.append_nil]
              exact h.indicateError ⟨nofun, nofun⟩
          · exact h.takesPart hpc hp he hfits

theorem Inv.remove {s : State api β} (h : Inv s) (hpc : s.pc = .remove) (removed : Bool) :
    Inv (s.remove removed) := by
  dsimp only [State.remove]
  split
  · have hlive : api.items (api.removeHead s.pendingIoList) = s.live := by
      rw [State.live, if_pos hpc]
      exact api.items_removeHead _
    refine ⟨h.inOrder, h.whole, h.valid, fun _ => h.working (.inr hpc), nofun, fun hopen => ?_⟩
    obtain ⟨queue, hchain⟩ := h.chain hopen
    refine ⟨queue, ?_, ?_, hchain.stream⟩
    · change (api.items (api.removeHead s.pendingIoList)).Nodup
      rw [hlive]
      exact hchain.nodup
    · change List.Forall₂ _ (api.items (api.removeHead s.pendingIoList)) queue
      rw [hlive]
      exact hchain.entries
  · exact h.indicateError ⟨nofun, nofun⟩

theorem Inv.receive {s : State api β} (h : Inv s) (hpc : s.pc = .receive)
    (reply : Except ℤ (List β)) : Inv (s.receive reply) := by
  have hstay : s.ioState = .open → s.ioState = .open ∧ s.pc ≠ .remove :=
    fun hopen => ⟨hopen, by simp [hpc]⟩
  dsimp only [State.receive]
  split
  · exact h.indicateError ⟨nofun, nofun⟩
  · split
    · exact h.leave _ ⟨nofun, nofun⟩ hstay
    · exact h.leave _ ⟨nofun, nofun⟩ hstay
  · split
    · exact h.leave s.events ⟨nofun, nofun⟩ hstay
    · exact h.indicateError ⟨nofun, nofun⟩

theorem Inv.dowork {s : State api β} (h : Inv s) (hpc : s.pc = .idle) :
    Inv (s.goto (if s.ioState = .open then .loop else .idle)) := by
  split
  · next hopen =>
      refine ⟨h.inOrder, h.whole, h.valid, fun _ => hopen, nofun, fun _ => ?_⟩
      obtain ⟨queue, hchain⟩ := h.chain hopen
      have hlive : (s.goto .loop).live = s.live := by
        rw [State.live, State.live, if_neg (by simp [State.goto]), if_neg (by simp [hpc])]
        rfl
      exact ⟨queue, hlive ▸ hchain.nodup, hlive ▸ hchain.entries, hchain.stream⟩
  · exact h.leave s.events ⟨nofun, nofun⟩ fun hopen => ⟨hopen, by simp [hpc]⟩

theorem Inv.step {s s' : State api β} {a : Action β} (h : Inv s) (hok : Fits s a)
    (hs : step s a = some s') : Inv s' := by
  dsimp only [SocketIo.step] at hs
  cases a with
  | send buffer onSendComplete entry =>
      obtain ⟨hpc, hs⟩ := Option.ite_none_right_eq_some.mp hs
      cases hs
      exact h.socketioSend hpc.2 _ _
  | dowork =>
      obtain ⟨hpc, hs⟩ := Option.ite_none_right_eq_some.mp hs
      cases hs
      exact h.dowork hpc
  | sendNext reply =>
      obtain ⟨hpc, hs⟩ := Option.ite_none_right_eq_some.mp hs
      exact h.sendNext hpc hok hs
  | remove removed =>
      obtain ⟨hpc, hs⟩ := Option.ite_none_right_eq_some.mp hs
      cases hs
      exact h.remove hpc removed
  | receive reply =>
      obtain ⟨hpc, hs⟩ := Option.ite_none_right_eq_some.mp hs
      cases hs
      exact h.receive hpc reply

/-- A byte is sent twice, or an entry is freed that was not sent as a whole. -/
theorem unsound_of_not_fits {s s' : State api β} {a : Action β} (h : Inv s)
    (hs : step s a = some s') (hbad : ¬ Fits s a) : ¬ Sound s' := by
  dsimp only [SocketIo.step] at hs
  cases a with
  | send | dowork | remove | receive => exact absurd trivial hbad
  | sendNext reply =>
      simp only [Fits, not_forall] at hbad
      obtain ⟨p, e, hp, he, hbad⟩ := hbad
      have hvalid := h.valid p e he
      have hsize := hvalid.size
      have htaken := hvalid.taken
      obtain ⟨-, hs⟩ := Option.ite_none_right_eq_some.mp hs
      rw [State.sendNext, hp] at hs
      simp only [he, Option.map_some, Option.some.injEq] at hs
      subst hs
      generalize s.tcpsocketconnectionSend reply (toInt32 e.size) = r at hbad ⊢
      intro hx
      split at hbad
      · next hall =>
          rw [if_pos hall] at hx
          have hshort := hx.whole
          change s.short + (if e.taken + r.toNat = e.queued.length then 0 else 1) = 0 at hshort
          rw [if_neg (by omega)] at hshort
          omega
      · next hsome =>
          rw [if_neg hsome, if_neg (by omega)] at hx
          have honce := hx.once p _ (Function.update_self ..)
          change e.taken + r.toNat ≤ e.queued.length at honce
          omega

/-- For one open instance, any buffers, callbacks and failures and any answers of the socket,
the byte stream is sound in every state of a run exactly when every answer fits. -/
theorem sound_iff_fits (api : SinglyLinkedList ℕ) (onBytesReceived onIoError : Bool)
    (acts : List (Action β)) :
    Always step Sound (init api β onBytesReceived onIoError) acts ↔
      Meets step Fits (init api β onBytesReceived onIoError) acts :=
  always_iff_meets Inv (fun _ _ _ h hok hs => h.step hok hs) (fun _ h => h.sound)
    (fun _ _ _ h hs hbad => unsound_of_not_fits h hs hbad)
    (inv_init api onBytesReceived onIoError) acts

/-- Lists as `singlylinkedlist`. -/
def lists : SinglyLinkedList ℕ where
  Handle := List ℕ
  items := id
  create := []
  add := fun list a => list ++ [a]
  headItem := List.head?
  removeHead := List.tail
  items_create := rfl
  items_add := fun _ _ => rfl
  headItem_eq := fun _ => rfl
  items_removeHead := fun _ => rfl

/-- Of two bytes the socket accepts one, and in the next round it accepts two. -/
def resent : List (Action Bool) :=
  [.send (some [true, false]) none (some 0), .dowork, .sendNext 1, .sendNext 2]

theorem resent_not_sound :
    ¬ ∀ acts s, run step (init lists Bool false false) acts = some s → Sound s := by
  intro h
  exact absurd (h resent _ rfl).inOrder (by decide)

end OpenIotSdk.SocketIo
