import OpenIotSdk.Library.History
import OpenIotSdk.Verification.SocketIo.Semantics
import OpenIotSdk.Verification.SocketIo.Integrity

/-! # Silence after an I/O error

`socketio_dowork` calls `retrieve_data` whatever `send_queued_data` returned, so that an
error while sending is followed by a receive. -/

namespace OpenIotSdk.SocketIo.Silence

open Transition History

variable {api : SinglyLinkedList ℕ} {β : Type}

/-- Whether an item reports an I/O error (`true`) or a new connection (`false`). -/
def mark : Item β → Option Bool
  | .callback .ioError => some true
  | .opened _ => some false
  | _ => none

/-- `on_io_error` was called, and no `socketio_open` was successful since. -/
def failed (history : List (Item β)) : Bool := (latest mark history).getD false

/-- Uses of the socket, and callbacks other than `on_send_complete`. -/
def loud : Item β → Bool
  | .sent _ _ _ _ | .received _ _ | .callback (.bytesReceived _) | .callback .ioError => true
  | _ => false

/-- Nothing loud happens after an I/O error until the instance is opened again. -/
def Silent (x : Instance api β) : Prop :=
  Along (fun a before => loud a = true → failed before = false) x.history

/-- `retrieve_data` does not use a socket after an I/O error. -/
def Heeds (tcp : Tcp) (x : Instance api β) : Op β → Prop
  | .receive _ => failed x.history = true → ∀ s, x.handle = some s →
      s.connection = true → tcp.isConnected = false
  | _ => True

/-! ## The invariant -/

/-- The instance uses its socket only while there was no error. -/
structure Fine (s : State api β) (history : List (Item β)) : Prop where
  states : s.ioState = .closed ∨ s.ioState = .open ∨ s.ioState = .error
  working : s.ioState = .open ∨ s.pc = .loop ∨ s.pc = .remove → failed history = false

structure Inv (x : Instance api β) : Prop where
  silent : Silent x
  fine : ∀ s, x.handle = some s → Fine s x.history
  test : x.test = true → failed x.history = false ∧ ∃ s, x.handle = some s ∧ s.pc = .receive

theorem inv_init : Inv (Instance.init api β) :=
  ⟨trivial, nofun, nofun⟩

theorem failed_append {items history : List (Item β)} (h : ∀ a ∈ items, mark a = none) :
    failed (items ++ history) = failed history := by
  rw [failed, latest_append h, failed]

theorem silent_append {items history : List (Item β)} (h : ∀ a ∈ items, mark a = none)
    (hloud : (∃ a ∈ items, loud a = true) → failed history = false)
    (hs : Along (fun a before => loud a = true → failed before = false) history) :
    Along (fun a before => loud a = true → failed before = false) (items ++ history) := by
  apply Along.append _ hs
  intro a back hsuffix ha
  rw [failed_append fun b hb => h b (hsuffix.mem (List.mem_cons_of_mem a hb))]
  exact hloud ⟨a, hsuffix.mem List.mem_cons_self, ha⟩

theorem Inv.next {x : Instance api β} (h : Inv x) {handle : Option (State api β)} {test : Bool}
    {calls : ℕ} {items : List (Item β)} (hitems : ∀ a ∈ items, mark a = none)
    (hloud : (∃ a ∈ items, loud a = true) → failed x.history = false)
    (hfine : ∀ s, handle = some s → Fine s x.history)
    (htest : test = true → failed x.history = false ∧ ∃ s, handle = some s ∧ s.pc = .receive) :
    Inv ⟨handle, test, calls, items ++ x.history⟩ := by
  refine ⟨silent_append hitems hloud h.silent, ?_, ?_⟩
  · intro s hs
    have hf := hfine s hs
    exact ⟨hf.states, fun hw => (failed_append hitems).trans (hf.working hw)⟩
  · intro ht
    exact ⟨(failed_append hitems).trans (htest ht).1, (htest ht).2⟩

theorem Inv.work {x : Instance api β} (h : Inv x) (hok : failed x.history = false)
    {t : State api β} {test : Bool} {calls : ℕ} {items : List (Item β)}
    (hitems : ∀ a ∈ items, mark a = none)
    (hstates : t.ioState = .closed ∨ t.ioState = .open ∨ t.ioState = .error)
    (htest : test = true → t.pc = .receive) :
    Inv ⟨some t, test, calls, items ++ x.history⟩ := by
  apply h.next hitems fun _ => hok
  · intro t' ht'
    cases ht'
    exact ⟨hstates, fun _ => hok⟩
  · exact fun ht => ⟨hok, t, rfl, htest ht⟩

theorem Inv.stay {x : Instance api β} (h : Inv x) {t : State api β} {test : Bool}
    (hfine : Fine t x.history)
    (htest : test = true → failed x.history = false ∧ t.pc = .receive) :
    Inv { x with handle := some t, test := test } := by
  refine ⟨h.silent, ?_, fun ht => ⟨(htest ht).1, t, rfl, (htest ht).2⟩⟩
  intro t' ht'
  cases ht'
  exact hfine

theorem Inv.quiet {x : Instance api β} (h : Inv x) {s t : State api β} (hx : x.handle = some s)
    {calls : ℕ} {items : List (Item β)}
    (hitems : ∀ a ∈ items, mark a = none ∧ loud a = false) (hpc : t.pc = s.pc)
    (hstate : t.ioState = s.ioState ∨ t.ioState = .closed) :
    Inv ⟨some t, x.test, calls, items ++ x.history⟩ := by
  have hf := h.fine s hx
  apply h.next fun a ha => (hitems a ha).1
  · rintro ⟨a, ha, hloud⟩
    exact absurd hloud (by simp [(hitems a ha).2])
  · intro t' ht'
    cases ht'
    constructor
    · rcases hstate with heq | heq
      · exact heq ▸ hf.states
      · exact .inl heq
    · intro hw
      apply hf.working
      rw [hpc] at hw
      rcases hw with hopen | hw
      · rcases hstate with heq | heq
        · exact .inl (heq ▸ hopen)
        · exact absurd (heq.symm.trans hopen) nofun
      · exact .inr hw
  · intro ht
    obtain ⟨hok, s', hs', hpc'⟩ := h.test ht
    rw [hx, Option.some.injEq] at hs'
    subst hs'
    exact ⟨hok, t, rfl, hpc.trans hpc'⟩

/-- A step that may raise an error, after uses of the socket. -/
theorem Inv.fail {x : Instance api β} (h : Inv x) {s : State api β} {tcp : Tcp}
    (hx : x.handle = some s) {test : Bool} (htest : test = false) {items : List (Item β)}
    (hitems : ∀ a ∈ items, mark a = none)
    (hloud : (∃ a ∈ items, loud a = true) → failed x.history = false) {t : State api β}
    (ht : t.ioState = (s.load tcp).failedState) (hpc : t.pc = .receive ∨ t.pc = .idle) :
    Inv ⟨some t, test, x.calls, (s.load tcp).fails ++ (items ++ x.history)⟩ := by
  have hf := h.fine s hx
  have hnext := silent_append hitems hloud h.silent
  have hstate : t.ioState = .closed ∨ t.ioState = .error := by
    rw [ht, State.failedState]
    split
    · exact .inl rfl
    · exact .inr rfl
  refine ⟨?_, ?_, fun hx => absurd hx (by simp [htest])⟩
  · rcases fails_cases (s.load tcp) with hnone | ⟨hone, hclosed, herror⟩
    · simp only [Silent, hnone]
      exact hnext
    · simp only [Silent, hone]
      refine ⟨fun _ => ?_, hnext⟩
      change failed (items ++ x.history) = false
      rw [failed_append hitems]
      apply hf.working
      rcases hf.states with hs | hs | hs
      · exact absurd hs hclosed
      · exact .inl hs
      · exact absurd hs herror
  · intro t' ht'
    cases ht'
    constructor
    · rcases hstate with hs | hs <;> simp [hs]
    · intro hw
      rcases hw with hs | hs
      · rcases hstate with hs' | hs' <;> simp [hs'] at hs
      · rcases hpc with hpc | hpc <;> simp [hpc] at hs

/-! ## One step -/

theorem Inv.effect {tcp tcp' : Tcp} {x x' : Instance api β} {s : State api β} {a : Op β}
    (h : Inv x) (hx : x.handle = some s) (hok : Heeds tcp x a)
    (heffect : Effect tcp x (s.load tcp) a tcp' x') : Inv x' := by
  have hf := h.fine s hx
  -- Only `retrieve_data` asks for the condition.
  have hheeds : ∀ reply, a = .receive reply → s.connection = true → tcp.isConnected = true →
      failed x.history = false := by
    intro reply ha hconn hflag
    subst ha
    by_contra hfailed
    exact absurd (hok (Bool.not_eq_false _ ▸ hfailed) s hx hconn) (by simp [hflag])
  -- The test of the loop is a statement of `retrieve_data`.
  have hidle : s.pc ≠ .receive → x.test = true → False := by
    intro hpc htest
    obtain ⟨-, s', hs', hpc'⟩ := h.test htest
    rw [hx, Option.some.injEq] at hs'
    exact hpc (hs' ▸ hpc')
  have hnotest : s.pc ≠ .receive → x.test = false :=
    fun hpc => Bool.eq_false_iff.mpr (hidle hpc)
  cases heffect with
  | opened hpc hclosed hconnects =>
      have hpc : s.pc = .idle := hpc
      refine ⟨⟨by simp [loud], h.silent⟩, ?_, fun htest => (hidle (by simp [hpc]) htest).elim⟩
      intro t ht
      cases ht
      exact ⟨.inr (.inl rfl), fun _ => rfl⟩
  | openFailed =>
      exact h.quiet hx (forall_ite ⟨rfl, rfl⟩) rfl (.inl rfl)
  | close hpc =>
      apply h.quiet hx (forall_drops ⟨rfl, rfl⟩)
      · dsimp only [State.closeTcpConnection]
        split <;> rfl
      · dsimp only [State.closeTcpConnection]
        split
        · exact .inr rfl
        · exact .inl rfl
  | destroy hpc =>
      have hpc : s.pc = .idle := hpc
      have hquiet : ∀ a ∈ (s.load tcp).drops, mark a = none ∧ loud a = false :=
        forall_drops ⟨rfl, rfl⟩
      apply h.next fun a ha => (hquiet a ha).1
      · rintro ⟨a, ha, hloud⟩
        simp [(hquiet a ha).2] at hloud
      · intro t ht
        cases ht
      · exact fun htest => (hidle (by simp [hpc]) htest).elim
  | rejected hpc hq =>
      rw [← List.append_assoc]
      refine h.quiet hx (List.forall_mem_append.mpr ⟨?_, ?_⟩) rfl (.inl rfl)
      · exact forall_completes fun _ => ⟨rfl, rfl⟩
      · exact forall_called fun _ => ⟨rfl, rfl⟩
  | queued hpc hp hlen hopen =>
      rw [← List.cons_append, ← List.append_assoc]
      refine h.quiet hx (List.forall_mem_append.mpr ⟨?_, List.forall_mem_cons.mpr ⟨?_, ?_⟩⟩) rfl
        (.inl rfl)
      · exact forall_completes fun _ => ⟨rfl, rfl⟩
      · exact ⟨rfl, rfl⟩
      · exact forall_called fun _ => ⟨rfl, rfl⟩
  | dowork hpc =>
      refine h.stay ⟨hf.states, fun hw => hf.working (.inl ?_)⟩ (by simp)
      by_contra hopen
      change s.ioState ≠ .open at hopen
      simp [State.goto, State.load, hopen] at hw
  | drained hpc hhead =>
      have hok' := hf.working (.inr (.inl hpc))
      exact h.stay ⟨hf.states, fun _ => hok'⟩ fun _ => ⟨hok', rfl⟩
  | completed hpc hhead he hall short =>
      have hpc : s.pc = .loop := hpc
      have hok' := hf.working (.inr (.inl hpc))
      rw [← List.append_assoc]
      refine h.work hok' (List.forall_mem_append.mpr ⟨?_, ?_⟩) hf.states fun htest => ?_
      · exact forall_completes fun _ => rfl
      · exact forall_sends fun _ _ _ => rfl
      · exact (hidle (by simp [hpc]) htest).elim
  | sendFailed hpc hhead he hsome hneg =>
      have hpc : s.pc = .loop := hpc
      have hok' := hf.working (.inr (.inl hpc))
      exact h.fail hx (hnotest (by simp [hpc])) (forall_sends fun _ _ _ => rfl) (fun _ => hok')
        rfl (.inl rfl)
  | sentPart hpc hhead he hsome hpos =>
      have hpc : s.pc = .loop := hpc
      have hok' := hf.working (.inr (.inl hpc))
      exact h.work hok' (forall_sends fun _ _ _ => rfl) hf.states fun htest =>
        (hidle (by simp [hpc]) htest).elim
  | removed hpc =>
      have hpc : s.pc = .remove := hpc
      have hok' := hf.working (.inr (.inr hpc))
      exact h.stay ⟨hf.states, fun _ => hok'⟩ fun htest => (hidle (by simp [hpc]) htest).elim
  | removeFailed hpc =>
      have hpc : s.pc = .remove := hpc
      exact h.fail hx (hnotest (by simp [hpc])) (List.forall_mem_nil _) (by simp) rfl (.inl rfl)
  | loopEnd hpc htest hclosed =>
      exact h.stay ⟨hf.states, fun _ => (h.test htest).1⟩ (by simp)
  | data hpc hreply hdata hconn hflag =>
      have hok' := hheeds _ rfl hconn hflag
      rw [List.append_cons]
      refine h.work hok' (List.forall_mem_append.mpr ⟨?_, ?_⟩) hf.states fun htest => ?_
      · exact forall_ite rfl
      · exact List.forall_mem_singleton.mpr rfl
      · exact if_pos (of_decide_eq_true htest)
  | receiveFailed hpc hreply =>
      apply h.fail hx rfl (forall_receives rfl) _ rfl (.inr rfl)
      rintro ⟨a, ha, -⟩
      obtain ⟨hconn, hflag, -⟩ := mem_receives ha
      exact hheeds _ rfl hconn hflag
  | noData hpc hreply hconn hflag =>
      have hok' := hheeds _ rfl hconn hflag
      refine ⟨⟨fun _ => hok', h.silent⟩, ?_, by simp⟩
      intro t ht
      cases ht
      exact ⟨hf.states, fun _ => hok'⟩

theorem Inv.step {tcp tcp' : Tcp} {x x' : Instance api β} {a : Op β} (h : Inv x)
    (hok : Heeds tcp x a) (hs : x.step tcp a = some (tcp', x')) : Inv x' := by
  rcases step_effect hs with ⟨hx, -, -, rfl⟩ | ⟨s, hx, heffect⟩
  · refine h.stay ⟨.inl rfl, ?_⟩ fun htest => ?_
    · rintro (hs | hs | hs) <;> cases hs
    · obtain ⟨-, s, hs, -⟩ := h.test htest
      rw [hx] at hs
      cases hs
  · exact h.effect hx hok heffect

/-- A receive after an error uses the socket. -/
theorem loud_of_not_heeds {tcp tcp' : Tcp} {x x' : Instance api β} {a : Op β} (h : Inv x)
    (hs : x.step tcp a = some (tcp', x')) (hbad : ¬ Heeds tcp x a) : ¬ Silent x' := by
  intro hsilent
  cases a with
  | create | «open» | close | destroy | send | dowork | sendNext | remove => exact hbad trivial
  | receive reply =>
      simp only [Heeds, not_forall, Bool.not_eq_false] at hbad
      obtain ⟨hfailed, s, hx, hconn, hflag⟩ := hbad
      have hreceives : (s.load tcp).receives tcp.id reply = [.received tcp.id reply] :=
        if_pos ⟨hconn, hflag⟩
      have hnot : failed x.history = false → False := by
        simp [hfailed]
      rcases step_effect hs with ⟨-, ha, -⟩ | ⟨s', hx', heffect⟩
      · cases ha
      · rw [hx, Option.some.injEq] at hx'
        subst hx'
        cases heffect with
        | loopEnd hpc htest => exact hnot (h.test htest).1
        | data =>
            simp only [Silent] at hsilent
            split at hsilent
            · exact hnot (hsilent.2.1 rfl)
            · exact hnot (hsilent.1 rfl)
        | receiveFailed =>
            simp only [Silent, hreceives] at hsilent
            rcases fails_cases (s.load tcp) with hnone | ⟨hone, -⟩
            · rw [hnone] at hsilent
              exact hnot (hsilent.1 rfl)
            · rw [hone] at hsilent
              exact hnot (hsilent.2.1 rfl)
        | noData => exact hnot (hsilent.1 rfl)

/-- For any instances, in any interleaving of calls on them, every instance is silent after
its errors exactly when no receive after an error uses a socket. -/
theorem silent_iff_heeds (ι : Type) [DecidableEq ι] (acts : List (ι × Op β)) :
    Always System.step (fun s => ∀ i, Silent (s.2 i)) (System.init ι api β) acts ↔
      Meets System.step (Family.At Heeds) (System.init ι api β) acts := by
  apply Family.always_iff_meets
  · exact fun _ _ _ _ _ h hok hs => Inv.step h hok hs
  · exact fun _ h => h.silent
  · exact fun _ _ _ _ _ h hs hbad => loud_of_not_heeds h hs hbad
  · exact fun _ => inv_init

/-- A send fails with `IOT_SOCKET_ERROR`, and the receive after it returns a byte. -/
def loudRun : List (Unit × Op Bool) :=
  [.create, .open ⟨0, 0, 0, 0⟩ true true, .send (some [true]) false (some 0), .dowork,
    .sendNext iotSocketError, .receive (.ok [false])].map ((), ·)

theorem loudRun_not_silent :
    ¬ ∀ acts s, run System.step (System.init Unit lists Bool) acts = some s →
      ∀ i, Silent (s.2 i) := by
  intro h
  exact absurd (h loudRun _ rfl ()).1 (by decide)

end OpenIotSdk.SocketIo.Silence
