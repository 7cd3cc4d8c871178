import OpenIotSdk.Library.Transition
import OpenIotSdk.Model.Lwip.Output

/-! # Balance of references and copies

`ethernetif_sent` gives back the reference or the copy of each accepted transmission.
`ethernetif_output` keeps it when `mdh_emac_transmit` refuses the buffer. -/

namespace OpenIotSdk.Lwip.Output

open Transition

/-- What the call under way will pass to the EMAC. -/
def Pc.held : Pc → List Buffer
  | .idle | .alloc => []
  | .transmit buf => [buf]

def State.held (s : State) : List Buffer := s.inFlight ++ s.pc.held

/-- Each reference that is not lwIP's own, and each copy, is one of the buffers held. -/
structure Counted (ref own : ℕ → ℕ) (copies : Ledger) (held : List Buffer) : Prop where
  ref : ∀ p, ref p = own p + held.count (.pbuf p)
  copies : copies.Balanced (held.filterMap Buffer.id?)

/-- The call under way and the callbacks to come hold what `ethernetif_output` took. -/
def Balanced (s : State) : Prop := Counted s.ref s.own s.copies s.held

def Accepted (s : State) : Action → Prop
  | .advance ok => s.pc.held ≠ [] → ok = true
  | .retain _ | .drop _ | .output _ _ | .sent _ _ => True

instance (s : State) (a : Action) : Decidable (Accepted s a) :=
  match a with
  | .advance _ => inferInstanceAs (Decidable (_ → _))
  | .retain _ | .drop _ | .output _ _ | .sent _ _ => isTrue trivial

/-! ## The count -/

section Counted

variable {ref own : ℕ → ℕ} {copies : Ledger} {held held' : List Buffer}

theorem Counted.perm (h : Counted ref own copies held) (hp : held'.Perm held) :
    Counted ref own copies held' := by
  constructor
  · intro p
    rw [hp.count_eq]
    exact h.ref p
  · exact h.copies.perm (hp.filterMap _)

theorem Counted.of_nil (h : Counted ref own copies []) :
    ref = own ∧ ∀ id < copies.issued, copies.settled id = 1 :=
  ⟨funext h.ref, fun _ hid => h.copies.settled_eq_one hid List.not_mem_nil⟩

theorem Counted.shift (h : Counted ref own copies held) {ref' own' : ℕ → ℕ}
    (heq : ∀ p, ref' p + own p = ref p + own' p) : Counted ref' own' copies held := by
  refine ⟨fun p => ?_, h.copies⟩
  have hp := heq p
  have href := h.ref p
  omega

theorem Counted.pbufRef (h : Counted ref own copies held) (p : ℕ) :
    Counted (Function.update ref p (ref p + 1)) own copies (held ++ [.pbuf p]) := by
  constructor
  · intro q
    have href := h.ref q
    rw [List.count_append, List.count_singleton, Function.update_apply]
    by_cases heq : q = p
    · subst heq
      simp
      omega
    · simp [heq, Ne.symm heq]
      exact href
  · rw [List.filterMap_append]
    change copies.Balanced (held.filterMap Buffer.id? ++ [])
    rw [List.append_nil]
    exact h.copies

theorem Counted.alloc (h : Counted ref own copies held) :
    Counted ref own copies.issue (held ++ [.copy copies.issued]) := by
  constructor
  · intro p
    simpa [List.count_append] using h.ref p
  · rw [List.filterMap_append]
    exact h.copies.issue (List.perm_append_singleton _ _)

theorem Counted.free {s : State} {buf : Buffer} (h : Counted s.ref own s.copies held)
    (hp : held.Perm (buf :: held')) :
    Counted (s.free buf).ref own (s.free buf).copies held' := by
  have hcons := h.perm hp.symm
  cases buf with
  | pbuf p =>
      refine ⟨fun q => ?_, hcons.copies⟩
      have href := hcons.ref q
      rw [List.count_cons] at href
      simp only [State.free, Function.update_apply]
      by_cases heq : q = p
      · subst heq
        simp at href ⊢
        omega
      · simp [heq, Ne.symm heq] at href ⊢
        exact href
  | copy id =>
      refine ⟨fun q => ?_, hcons.copies.settle (List.Perm.refl _)⟩
      change s.ref q = own q + held'.count (.pbuf q)
      simpa using hcons.ref q

/-- Whoever forgets a buffer leaks a reference or a copy. -/
theorem Counted.not_forget {buf : Buffer} (h : Counted ref own copies held)
    (hp : held.Perm (buf :: held')) : ¬ Counted ref own copies held' := by
  intro h'
  have hcons := h.perm hp.symm
  cases buf with
  | pbuf p =>
      have href := (hcons.ref p).symm.trans (h'.ref p)
      rw [List.count_cons_self] at href
      omega
  | copy id => exact hcons.copies.not_forget (List.Perm.refl _) h'.copies

end Counted

/-! ## One step -/

variable {s t : State}

theorem balanced_init (own : ℕ → ℕ) : Balanced (init own) :=
  ⟨fun _ => rfl, Ledger.balanced_empty⟩

theorem Balanced.retain (h : Balanced s) (p : ℕ) :
    Balanced { s.pbufRef p with own := Function.update s.own p (s.own p + 1) } := by
  apply Counted.shift h
  intro q
  by_cases heq : q = p <;> simp [State.pbufRef, heq]
  omega

theorem Balanced.drop (h : Balanced s) {p : ℕ} (hp : 0 < s.own p) :
    Balanced { s.free (.pbuf p) with own := Function.update s.own p (s.own p - 1) } := by
  apply Counted.shift h
  intro q
  have href := h.ref p
  by_cases heq : q = p <;> simp [State.free, heq]
  omega

theorem Balanced.output (h : Balanced s) (hpc : s.pc = .idle) (p : ℕ) (next : List ℕ) :
    Balanced (s.ethernetifOutput p next) := by
  dsimp only [Balanced, State.held] at h
  rw [hpc] at h
  dsimp only [State.ethernetifOutput]
  by_cases hnext : next ≠ []
  · rw [if_pos hnext]
    exact h
  · rw [if_neg hnext]
    rw [Pc.held, List.append_nil] at h
    exact h.pbufRef p

theorem Balanced.sent (h : Balanced s) {buf : Buffer} (hbuf : buf ∈ s.inFlight) :
    Balanced (s.ethernetifSent buf) := by
  have hp : s.held.Perm (buf :: (s.inFlight.erase buf ++ s.pc.held)) :=
    (List.perm_cons_erase hbuf).append_right s.pc.held
  have hfree := h.free hp
  cases buf with
  | pbuf p => exact hfree
  | copy id => exact hfree

theorem Balanced.advance_iff {ok : Bool} (h : Balanced s) (hs : s.advance ok = some t) :
    Balanced t ↔ Accepted s (.advance ok) := by
  dsimp only [State.advance] at hs
  dsimp only [Balanced, State.held] at h
  cases hpc : s.pc with
  | idle =>
      rw [hpc] at hs
      cases hs
  | alloc =>
      rw [hpc] at hs h
      have haccepted : Accepted s (.advance ok) := by simp [Accepted, hpc, Pc.held]
      refine iff_of_true ?_ haccepted
      rw [Pc.held, List.append_nil] at h
      cases hs
      cases ok with
      | true => exact h.alloc
      | false =>
          change Counted _ _ _ (s.inFlight ++ [])
          rw [List.append_nil]
          exact h
  | transmit buf =>
      rw [hpc] at hs h
      cases hs
      cases ok with
      | true =>
          refine iff_of_true ?_ fun _ => rfl
          change Counted _ _ _ (s.inFlight ++ [buf] ++ [])
          rw [List.append_nil]
          exact h
      | false =>
          refine iff_of_false ?_ fun hn => ?_
          · change ¬ Counted _ _ _ (s.inFlight ++ [])
            rw [List.append_nil]
            exact h.not_forget (List.perm_append_singleton buf s.inFlight)
          · have hheld : s.pc.held ≠ [] := by simp [hpc, Pc.held]
            exact Bool.false_ne_true (hn hheld)

theorem Balanced.step_iff {a : Action} (h : Balanced s) (hs : step s a = some t) :
    Balanced t ↔ Accepted s a := by
  cases a with
  | retain p =>
      cases hs
      exact iff_of_true (h.retain p) trivial
  | drop p =>
      obtain ⟨hp, hs⟩ := Option.ite_none_right_eq_some.mp hs
      cases hs
      exact iff_of_true (h.drop hp) trivial
  | output p next =>
      obtain ⟨⟨hpc, -⟩, hs⟩ := Option.ite_none_right_eq_some.mp hs
      cases hs
      exact iff_of_true (h.output hpc p next) trivial
  | advance ok => exact h.advance_iff hs
  | sent buf status =>
      obtain ⟨hbuf, hs⟩ := Option.ite_none_right_eq_some.mp hs
      cases hs
      exact iff_of_true (h.sent hbuf) trivial

/-! ## Runs -/

/-- Nothing runs and no callback is outstanding. -/
structure Settled (s : State) : Prop where
  idle : s.pc = .idle
  inFlight : s.inFlight = []

/-- After all callbacks every pbuf has the references that are lwIP's own, and each copy was
freed once. -/
theorem Balanced.of_settled (h : Balanced s) (hs : Settled s) :
    s.ref = s.own ∧ ∀ id < s.copies.issued, s.copies.settled id = 1 := by
  dsimp only [Balanced, State.held] at h
  rw [hs.idle, hs.inFlight] at h
  exact h.of_nil

/-- Over every run of calls with single and chained pbufs and of callbacks, whatever the heap
and the EMAC answer: references and copies balance if and only if the EMAC refuses nothing,
and then none is left once all callbacks have run. -/
theorem references_balanced_iff_accepted (own : ℕ → ℕ) (acts : List Action) :
    (Always step Balanced (init own) acts ↔ Meets step Accepted (init own) acts) ∧
      (Meets step Accepted (init own) acts → ∀ t, run step (init own) acts = some t →
        Settled t → t.ref = t.own ∧ ∀ id < t.copies.issued, t.copies.settled id = 1) := by
  have hiff : Always step Balanced (init own) acts ↔ Meets step Accepted (init own) acts := by
    apply always_iff_meets Balanced
    · exact fun s a t h hok hs => (h.step_iff hs).mpr hok
    · exact fun s h => h
    · exact fun s a t h hs hn ht => hn ((h.step_iff hs).mp ht)
    · exact balanced_init own
  refine ⟨hiff, fun hm t ht hsettled => ?_⟩
  exact ((hiff.mpr hm).reached ht).of_settled hsettled

/-- A pbuf whose transmission the EMAC refuses. -/
def refusal : List Action := [.output 0 [], .advance false]

theorem refusal_keeps_reference :
    ¬ ∀ own acts s, run step (init own) acts = some s → Settled s → s.ref = s.own := by
  intro h
  have href : 2 = 1 := congrFun (h (fun _ => 1) refusal _ rfl ⟨rfl, rfl⟩) 0
  cases href

end OpenIotSdk.Lwip.Output
