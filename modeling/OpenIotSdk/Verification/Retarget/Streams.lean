import OpenIotSdk.Model.Retarget

/-! # The bytes of each thread

Whatever way the statements of the threads interleave, each thread's texts go to the port in its
own order, and what arrives there is handed out once. -/

namespace OpenIotSdk.Retarget

open Transition

variable {ι : Type} [DecidableEq ι]

def Pc.toPut : Pc → List Byte
  | .put _ _ str => str
  | _ => []

def Pc.got : Pc → List Byte
  | .get _ _ str => str
  | _ => []

/-- The texts are on the wire but for the rest of the last one, and no byte that has arrived is
lost, changed or handed out twice. -/
structure Streams (s : State ι) : Prop where
  sent : ∀ i, Tagged.of i s.sent ++ (s.pc i).toPut = (s.texts i).flatten
  taken : ∀ i, Tagged.of i s.taken = (s.reads i).flatten ++ (s.pc i).got
  input : s.taken.map Prod.snd ++ s.input = s.arrived

variable {s t : State ι} {i : ι} {pc : Pc}

theorem pc_goto : (s.goto i pc).pc i = pc := Function.update_self ..

theorem pc_goto_of_ne {j : ι} (hne : j ≠ i) : (s.goto i pc).pc j = s.pc j :=
  Function.update_of_ne hne ..

theorem streams_init : Streams (init : State ι) :=
  ⟨fun _ => rfl, fun _ => rfl, rfl⟩

theorem Streams.goto (h : Streams s) (hput : pc.toPut = (s.pc i).toPut)
    (hgot : pc.got = (s.pc i).got) : Streams (s.goto i pc) := by
  refine ⟨fun j => ?_, fun j => ?_, h.input⟩
  · rcases eq_or_ne j i with rfl | hne
    · simpa [State.goto, hput] using h.sent j
    · simpa [State.goto, Function.update_of_ne hne] using h.sent j
  · rcases eq_or_ne j i with rfl | hne
    · simpa [State.goto, hgot] using h.taken j
    · simpa [State.goto, Function.update_of_ne hne] using h.taken j

theorem Streams.goto_quiet (h : Streams s) (hput : (s.pc i).toPut = []) (hgot : (s.pc i).got = [])
    (hput' : pc.toPut = []) (hgot' : pc.got = []) : Streams (s.goto i pc) :=
  h.goto (hput'.trans hput.symm) (hgot'.trans hgot.symm)

theorem Next.toPut_pc (next : Next) : next.pc.toPut = [] := by cases next <;> rfl

theorem Next.got_pc (next : Next) : next.pc.got = [] := by cases next <;> rfl

theorem Call.toPut_start (call : Call) : call.start.toPut = [] := by
  cases call <;> simp only [Call.start] <;> split_ifs <;> rfl

theorem Call.got_start (call : Call) : call.start.got = [] := by
  cases call <;> simp only [Call.start] <;> split_ifs <;> rfl

theorem Streams.accept (h : Streams s) (hput : (s.pc i).toPut = []) (hgot : (s.pc i).got = [])
    (lib : Toolchain) (len : ℕ) (str : List Byte) :
    Streams ({ s with texts := Function.update s.texts i (s.texts i ++ [str]) }.goto i
      (.put lib len str)) := by
  refine ⟨fun j => ?_, fun j => ?_, h.input⟩
  · rcases eq_or_ne j i with rfl | hne
    · have hsent := h.sent j
      rw [hput, List.append_nil] at hsent
      simp [State.goto, Pc.toPut, hsent]
    · simpa [State.goto, Function.update_of_ne hne] using h.sent j
  · rcases eq_or_ne j i with rfl | hne
    · have htaken := h.taken j
      rw [hgot] at htaken
      simpa [State.goto, Pc.got] using htaken
    · simpa [State.goto, Function.update_of_ne hne] using h.taken j

theorem Streams.put (h : Streams s) {lib : Toolchain} {len : ℕ} {b : Byte} {str : List Byte}
    (hpc : s.pc i = .put lib len (b :: str)) :
    Streams ({ s with sent := s.sent ++ [(i, b)] }.goto i (.put lib len str)) := by
  refine ⟨fun j => ?_, fun j => ?_, h.input⟩
  · rcases eq_or_ne j i with rfl | hne
    · have hsent := h.sent j
      simp only [hpc, Pc.toPut] at hsent
      simpa [State.goto, Pc.toPut, Tagged.of_snoc_self] using hsent
    · simpa [State.goto, Function.update_of_ne hne, Tagged.of_snoc_of_ne hne] using h.sent j
  · rcases eq_or_ne j i with rfl | hne
    · simpa [State.goto, hpc, Pc.got] using h.taken j
    · simpa [State.goto, Function.update_of_ne hne] using h.taken j

theorem Streams.get (h : Streams s) {lib : Toolchain} {len : ℕ} {b : Byte}
    {str input : List Byte} (hpc : s.pc i = .get lib len str) (hinput : s.input = b :: input) :
    Streams ({ s with input := input, taken := s.taken ++ [(i, b)] }.goto i
      (.get lib len (str ++ [b]))) := by
  refine ⟨fun j => ?_, fun j => ?_, ?_⟩
  · rcases eq_or_ne j i with rfl | hne
    · simpa [State.goto, hpc, Pc.toPut] using h.sent j
    · simpa [State.goto, Function.update_of_ne hne] using h.sent j
  · rcases eq_or_ne j i with rfl | hne
    · have htaken := h.taken j
      simp only [hpc, Pc.got] at htaken
      simp [State.goto, Pc.got, Tagged.of_snoc_self, htaken]
    · simpa [State.goto, Function.update_of_ne hne, Tagged.of_snoc_of_ne hne] using h.taken j
  · have harrived := h.input
    rw [hinput] at harrived
    simpa [State.goto] using harrived

theorem Streams.finish (h : Streams s) {lib : Toolchain} {len : ℕ} {str : List Byte} {res : ℤ}
    (hpc : s.pc i = .get lib len str) :
    Streams ({ s with reads := Function.update s.reads i (s.reads i ++ [str]) }.goto i
      (.idle res)) := by
  refine ⟨fun j => ?_, fun j => ?_, h.input⟩
  · rcases eq_or_ne j i with rfl | hne
    · simpa [State.goto, hpc, Pc.toPut] using h.sent j
    · simpa [State.goto, Function.update_of_ne hne] using h.sent j
  · rcases eq_or_ne j i with rfl | hne
    · have htaken := h.taken j
      simp only [hpc, Pc.got] at htaken
      simp [State.goto, Pc.got, htaken]
    · simpa [State.goto, Function.update_of_ne hne] using h.taken j

theorem Streams.request (h : Streams s) (hput : (s.pc i).toPut = []) (hgot : (s.pc i).got = [])
    (lib : Toolchain) (request : Request) : Streams (s.request i lib request) := by
  cases request with
  | out str =>
      match str with
      | none => exact h.goto_quiet hput hgot rfl rfl
      | some [] => exact h.goto_quiet hput hgot rfl rfl
      | some (b :: str) => exact h.accept hput hgot lib _ (b :: str)
  | inp str len =>
      simp only [State.request]
      split
      · exact h.goto_quiet hput hgot rfl rfl
      · exact h.goto_quiet hput hgot rfl rfl

theorem Streams.advance (h : Streams s) (ht : s.advance i = some t) : Streams t := by
  simp only [State.advance] at ht
  split at ht
  · cases ht
  · cases ht
  · next hpc =>
      cases ht
      split <;> exact h.goto_quiet (by rw [hpc]; rfl) (by rw [hpc]; rfl) rfl rfl
  · next next hpc =>
      cases ht
      split
      · exact h.goto_quiet (by rw [hpc]; rfl) (by rw [hpc]; rfl) next.toPut_pc next.got_pc
      · exact h.goto_quiet (by rw [hpc]; rfl) (by rw [hpc]; rfl) rfl rfl
  · next hpc =>
      cases ht
      split <;> exact h.goto_quiet (by rw [hpc]; rfl) (by rw [hpc]; rfl) rfl rfl
  · next next hpc =>
      obtain ⟨-, ht⟩ := Option.ite_none_right_eq_some.mp ht
      cases ht
      exact h.goto_quiet (by rw [hpc]; rfl) (by rw [hpc]; rfl) next.toPut_pc next.got_pc
  · next hpc =>
      cases ht
      have hup : Streams { s with serialUp := true } := ⟨h.sent, h.taken, h.input⟩
      exact hup.goto_quiet (congrArg Pc.toPut hpc) (congrArg Pc.got hpc) rfl rfl
  · next lib request hpc =>
      cases ht
      split
      · exact h.request (by rw [hpc]; rfl) (by rw [hpc]; rfl) lib request
      · exact h.goto_quiet (by rw [hpc]; rfl) (by rw [hpc]; rfl) rfl rfl
  · next hpc =>
      cases ht
      exact h.goto_quiet (by rw [hpc]; rfl) (by rw [hpc]; rfl) rfl rfl
  · next hpc =>
      obtain ⟨-, ht⟩ := Option.ite_none_right_eq_some.mp ht
      cases ht
      exact h.put hpc
  · next hpc =>
      obtain ⟨-, ht⟩ := Option.ite_none_right_eq_some.mp ht
      cases ht
      split <;> exact h.goto_quiet (by rw [hpc]; rfl) (by rw [hpc]; rfl) rfl rfl
  · next hpc =>
      split at ht
      · split at ht
        · next hinput =>
            cases ht
            exact h.get hpc hinput
        · cases ht
      · cases ht
        exact h.finish hpc

theorem Streams.step (h : Streams s) {a : Action ι} (ht : step s a = some t) : Streams t := by
  cases a with
  | call i call =>
      simp only [Retarget.step] at ht
      split at ht
      · next hpc =>
          cases ht
          exact h.goto_quiet (by rw [hpc]; rfl) (by rw [hpc]; rfl) call.toPut_start call.got_start
      · cases ht
  | advance i => exact h.advance ht
  | serial i found =>
      simp only [Retarget.step] at ht
      split at ht
      · next hpc =>
          cases ht
          have hfound : Streams { s with serialObj := found } := ⟨h.sent, h.taken, h.input⟩
          exact hfound.goto_quiet (congrArg Pc.toPut hpc) (congrArg Pc.got hpc) rfl rfl
      · cases ht
  | receive b =>
      cases ht
      refine ⟨h.sent, h.taken, ?_⟩
      rw [← List.append_assoc, h.input]

theorem streams_always (acts : List (Action ι)) : Always step Streams init acts :=
  Always.of_inductive Streams (fun _ _ _ h ht => h.step ht) (fun _ h => h) streams_init acts

/-! ## The port -/

/-- The thread is going to call the port, or to say that it is up, without a further test. -/
def Pc.relies : Pc → Bool
  | .setupBaud _ | .up _ | .readable _ _ => true
  | .put _ _ str => !str.isEmpty
  | .get _ len str => decide (str.length < len)
  | _ => false

/-- The port is there for those who rely on it, and for good once it is said to be up. -/
structure Ported (s : State ι) : Prop where
  relies : ∀ i, (s.pc i).relies = true → s.serialObj = true
  up : s.serialUp = true → s.serialObj = true

/-- `get_example_serial` does not take the port away from those who rely on it. -/
def Keeps (s : State ι) : Action ι → Prop
  | .serial _ false => (∀ j, (s.pc j).relies = false) ∧ s.serialUp = false
  | _ => True

omit [DecidableEq ι] in
theorem ported_init : Ported (init : State ι) := ⟨nofun, nofun⟩

theorem Ported.goto (h : Ported s) (hpc : pc.relies = true → s.serialObj = true) :
    Ported (s.goto i pc) := by
  refine ⟨fun j hj => ?_, h.up⟩
  rcases eq_or_ne j i with rfl | hne
  · rw [pc_goto] at hj
    exact hpc hj
  · rw [pc_goto_of_ne hne] at hj
    exact h.relies j hj

theorem Call.relies_start (call : Call) : call.start.relies = false := by
  cases call <;> simp only [Call.start] <;> split_ifs <;> rfl

theorem Ported.request (h : Ported s) (hport : s.serialObj = true) (lib : Toolchain)
    (request : Request) : Ported (s.request i lib request) := by
  cases request with
  | out str =>
      match str with
      | none => exact h.goto nofun
      | some [] => exact h.goto nofun
      | some (b :: str) =>
          exact Ported.goto (s := { s with texts := _ }) ⟨h.relies, h.up⟩ fun _ => hport
  | inp str len =>
      simp only [State.request]
      split
      · exact h.goto nofun
      · exact h.goto fun _ => hport

theorem Ported.advance (h : Ported s) (ht : s.advance i = some t) : Ported t := by
  simp only [State.advance] at ht
  split at ht
  · cases ht
  · cases ht
  · cases ht
    refine h.goto ?_
    split <;> nofun
  · cases ht
    refine h.goto ?_
    split
    · next hport => exact fun _ => hport
    · nofun
  · cases ht
    refine h.goto ?_
    split
    · next hport => exact fun _ => hport
    · nofun
  · obtain ⟨hport, ht⟩ := Option.ite_none_right_eq_some.mp ht
    cases ht
    exact h.goto fun _ => hport
  · next hpc =>
      cases ht
      have hport : s.serialObj = true := h.relies i (by rw [hpc]; rfl)
      exact Ported.goto (s := { s with serialUp := true }) ⟨h.relies, fun _ => hport⟩ nofun
  · cases ht
    split
    · next hport => exact h.request hport ..
    · exact h.goto nofun
  · cases ht
    exact h.goto nofun
  · obtain ⟨hport, ht⟩ := Option.ite_none_right_eq_some.mp ht
    cases ht
    exact Ported.goto (s := { s with sent := _ }) ⟨h.relies, h.up⟩ fun _ => hport
  · obtain ⟨hport, ht⟩ := Option.ite_none_right_eq_some.mp ht
    cases ht
    exact h.goto fun _ => hport
  · split at ht
    · split at ht
      · next hport _ =>
          cases ht
          exact Ported.goto (s := { s with input := _, taken := _ }) ⟨h.relies, h.up⟩
            fun _ => hport
      · cases ht
    · cases ht
      exact Ported.goto (s := { s with reads := _ }) ⟨h.relies, h.up⟩ nofun

theorem Ported.step {a : Action ι} (h : Ported s) (hok : Keeps s a) (ht : step s a = some t) :
    Ported t := by
  cases a with
  | call i call =>
      simp only [Retarget.step] at ht
      split at ht
      · cases ht
        exact h.goto fun hrel => absurd hrel (by simp [call.relies_start])
      · cases ht
  | advance i => exact h.advance ht
  | serial i found =>
      simp only [Retarget.step] at ht
      split at ht
      · cases ht
        cases found with
        | true => exact Ported.goto ⟨fun _ _ => rfl, fun _ => rfl⟩ nofun
        | false =>
            refine Ported.goto ⟨fun j hj => ?_, fun hup => ?_⟩ nofun
            · exact absurd hj (by simp [hok.1 j])
            · exact absurd hup (by simp [hok.2])
      · cases ht
  | receive b =>
      cases ht
      exact ⟨h.relies, h.up⟩

/-- An answer NULL for a port that somebody relies on. -/
theorem not_ported_of_not_keeps {a : Action ι} (ht : step s a = some t) (hbad : ¬ Keeps s a) :
    ¬ Ported t := by
  intro hported
  cases a with
  | serial i found =>
      cases found with
      | true => exact hbad trivial
      | false =>
          simp only [Retarget.step] at ht
          split at ht
          · next hpc =>
              cases ht
              refine hbad ⟨fun j => ?_, Bool.eq_false_iff.mpr fun hup => nomatch hported.up hup⟩
              refine Bool.eq_false_iff.mpr fun hj => ?_
              have hne : j ≠ i := by
                rintro rfl
                rw [hpc] at hj
                exact nomatch hj
              refine nomatch hported.relies j ?_
              rw [pc_goto_of_ne hne]
              exact hj
          · cases ht
  | _ => exact hbad trivial

/-- Nobody calls a port that is not there, and nobody is refused one that is said to be up, exactly
as long as `get_example_serial` does not answer a late caller with NULL. -/
theorem ported_always_iff (acts : List (Action ι)) :
    Always step Ported init acts ↔ Meets step Keeps init acts :=
  always_iff_meets Ported (fun _ _ _ h hok ht => h.step hok ht) (fun _ h => h)
    (fun _ _ _ _ ht hbad => not_ported_of_not_keeps ht hbad) ported_init acts

end OpenIotSdk.Retarget
