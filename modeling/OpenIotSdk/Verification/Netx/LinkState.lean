import OpenIotSdk.Library.Transition
import OpenIotSdk.Model.Netx.Link

/-! # Truth of the link state

`on_event` flips the flag of interface 0 whatever the driver state is and whichever interface
is attached, and a second initialization leaves the flag as it is. -/

namespace OpenIotSdk.Netx.Link

open Transition

variable {I : Type*}

/-- Between two commands, the flag of the attached interface is set only while the link is
enabled, and then it is the physical link state. -/
structure Truthful (s : State I) : Prop where
  enabled : s.pc = .idle → ∀ interface, s.interface = some interface →
    s.linkUp interface = true → s.state = .linkEnabled
  physical : s.pc = .idle → ∀ interface, s.interface = some interface →
    s.state = .linkEnabled → s.linkUp interface = s.physical

def State.link (s : State I) : Bool := decide (s.state = .linkEnabled) && s.physical

/-- When the flag of the attached interface keeps its meaning:
* an interface is attached whose flag says what it should;
* an initialization finds the flag clear;
* an event between two commands is about an enabled link of interface 0, or about another
  interface than the attached one while the link is not enabled;
* the attached interface is the one enabled, with its link up to the end, and disabled. -/
def Orderly (s : State I) : Action I → Prop
  | .linkInterfaceAttach interface _ => s.linkUp interface = s.link
  | .linkInitialize _ _ => ∀ interface, s.interface = some interface → s.linkUp interface = false
  | .linkEnable _ _ | .linkDisable _ _ => True
  | .resume => ∀ attached, s.interface = some attached → match s.pc with
    | .idle => True
    | .linkUp interface => (attached = interface ∨ s.linkUp attached = true) ↔ s.physical = true
    | .linkDown interface => attached = interface ∨ s.linkUp attached = false
  | .event => s.pc = .idle → ∀ attached, s.interface = some attached → ∀ ip, s.ip = some ip →
    (attached = (ip, 0) ↔ s.state = .linkEnabled)

theorem truthful_iff (s : State I) :
    Truthful s ↔ (s.pc = .idle → ∀ interface, s.interface = some interface →
      s.linkUp interface = s.link) := by
  constructor
  · intro h hpc interface hi
    dsimp only [State.link]
    by_cases hstate : s.state = .linkEnabled
    · rw [h.physical hpc interface hi hstate, decide_eq_true hstate, Bool.true_and]
    · rw [decide_eq_false hstate, Bool.false_and]
      by_contra hn
      exact hstate (h.enabled hpc interface hi (Bool.not_eq_false _ ▸ hn))
  · intro h
    constructor
    · intro hpc interface hi hup
      have hlink : s.link = true := (h hpc interface hi).symm.trans hup
      exact of_decide_eq_true (Bool.and_eq_true_iff.mp hlink).1
    · intro hpc interface hi hstate
      rw [h hpc interface hi, State.link, decide_eq_true hstate, Bool.true_and]

/-! ## One step -/

theorem truthful_init : Truthful (init I) := by
  constructor
  · intro _ interface hi
    cases hi
  · intro _ interface hi
    cases hi

theorem truthful_of_eq {s t : State I} (h : Truthful s) (hpc : s.pc = .idle)
    (hinterface : t.interface = s.interface) (hup : t.linkUp = s.linkUp)
    (hstate : t.state = s.state) (hphysical : t.physical = s.physical) : Truthful t := by
  constructor
  · intro _ interface hi
    rw [hup, hstate]
    exact h.enabled hpc interface (hinterface.symm.trans hi)
  · intro _ interface hi
    rw [hup, hstate, hphysical]
    exact h.physical hpc interface (hinterface.symm.trans hi)

theorem truthful_of_busy {s : State I} (h : s.pc ≠ .idle) : Truthful s :=
  ⟨fun hpc => absurd hpc h, fun hpc => absurd hpc h⟩

theorem nxLinkInterfaceAttach_truthful_iff {s : State I} (hpc : s.pc = .idle)
    (interface : Interface I) (ip : I) :
    Truthful (s.nxLinkInterfaceAttach interface ip) ↔
      Orderly s (.linkInterfaceAttach interface ip) := by
  rw [truthful_iff]
  constructor
  · intro h
    exact h hpc interface rfl
  · intro h _ attached hi
    cases hi
    exact h

/-- Neither way out of an initialization enables the link. -/
theorem nxLinkInitialize_link (s : State I) (powerUp macAddr : Bool) :
    (s.nxLinkInitialize powerUp macAddr).link = false := by
  cases powerUp <;> cases macAddr <;> rfl

theorem nxLinkInitialize_frame (s : State I) (powerUp macAddr : Bool) :
    (s.nxLinkInitialize powerUp macAddr).interface = s.interface ∧
      (s.nxLinkInitialize powerUp macAddr).linkUp = s.linkUp ∧
      (s.nxLinkInitialize powerUp macAddr).pc = s.pc := by
  cases powerUp <;> cases macAddr <;> exact ⟨rfl, rfl, rfl⟩

theorem nxLinkInitialize_truthful_iff {s : State I} (hpc : s.pc = .idle) (powerUp macAddr : Bool) :
    Truthful (s.nxLinkInitialize powerUp macAddr) ↔
      Orderly s (.linkInitialize powerUp macAddr) := by
  obtain ⟨hinterface, hup, hidle⟩ := nxLinkInitialize_frame s powerUp macAddr
  rw [truthful_iff, hinterface, hup, nxLinkInitialize_link]
  exact ⟨fun h => h (hidle.trans hpc), fun h _ => h⟩

theorem truthful_nxLinkEnable {s : State I} (h : Truthful s) (hpc : s.pc = .idle)
    (interface : Interface I) (powerUp : Bool) : Truthful (s.nxLinkEnable interface powerUp) := by
  dsimp only [State.nxLinkEnable]
  split
  · exact truthful_of_eq h hpc rfl rfl rfl rfl
  · split
    · exact truthful_of_eq h hpc rfl rfl rfl rfl
    · split
      · exact truthful_of_busy (by simp)
      · exact truthful_of_eq h hpc rfl rfl rfl rfl

theorem truthful_nxLinkDisable {s : State I} (h : Truthful s) (hpc : s.pc = .idle)
    (interface : Interface I) (powerDown : Bool) :
    Truthful (s.nxLinkDisable interface powerDown) := by
  dsimp only [State.nxLinkDisable]
  split
  · exact truthful_of_eq h hpc rfl rfl rfl rfl
  · split
    · exact truthful_of_busy (by simp)
    · exact truthful_of_eq h hpc rfl rfl rfl rfl

variable [DecidableEq I]

theorem resume_truthful_iff {s t : State I} (hs : s.resume = some t) :
    Truthful t ↔ Orderly s .resume := by
  dsimp only [State.resume] at hs
  rw [truthful_iff, Orderly]
  cases hpc : s.pc with
  | idle =>
      rw [hpc] at hs
      cases hs
  | linkUp interface =>
      rw [hpc] at hs
      cases hs
      simp only [State.link, decide_true, Bool.true_and, true_imp_iff, Function.update_apply]
      refine forall₂_congr fun attached hi => ?_
      by_cases heq : attached = interface
      · rw [if_pos heq, eq_comm]
        simp [heq]
      · rw [if_neg heq, Bool.eq_iff_iff]
        simp only [heq, false_or]
  | linkDown interface =>
      rw [hpc] at hs
      cases hs
      simp only [State.link, true_imp_iff, Function.update_apply]
      refine forall₂_congr fun attached hi => ?_
      by_cases heq : attached = interface
      · simp [heq]
      · simp [heq]

theorem onEvent_truthful_iff {s t : State I} (h : Truthful s) (hs : s.onEvent = some t) :
    Truthful t ↔ Orderly s .event := by
  obtain ⟨ip, hip, rfl⟩ := Option.map_eq_some_iff.mp hs
  have hlink := (truthful_iff s).mp h
  rw [truthful_iff]
  refine forall_congr' fun hpc => forall₂_congr fun attached hi => ?_
  have hup := hlink hpc attached hi
  simp only [hip, Option.some.injEq, forall_eq']
  dsimp only [State.link] at hup ⊢
  rw [Function.update_apply]
  by_cases heq : attached = (ip, 0)
  · rw [if_pos heq, ← heq, hup]
    by_cases hstate : s.state = .linkEnabled <;> simp [heq, hstate]
  · rw [if_neg heq, hup]
    by_cases hstate : s.state = .linkEnabled <;> simp [heq, hstate]

theorem step_truthful_iff {s t : State I} {a : Action I} (h : Truthful s)
    (hs : step s a = some t) : Truthful t ↔ Orderly s a := by
  dsimp only [step] at hs
  cases a with
  | linkInterfaceAttach interface ip =>
      obtain ⟨hpc, hs⟩ := Option.ite_none_right_eq_some.mp hs
      cases hs
      exact nxLinkInterfaceAttach_truthful_iff hpc interface ip
  | linkInitialize powerUp macAddr =>
      obtain ⟨hpc, hs⟩ := Option.ite_none_right_eq_some.mp hs
      cases hs
      exact nxLinkInitialize_truthful_iff hpc powerUp macAddr
  | linkEnable interface powerUp =>
      obtain ⟨hpc, hs⟩ := Option.ite_none_right_eq_some.mp hs
      cases hs
      exact iff_of_true (truthful_nxLinkEnable h hpc interface powerUp) trivial
  | linkDisable interface powerDown =>
      obtain ⟨hpc, hs⟩ := Option.ite_none_right_eq_some.mp hs
      cases hs
      exact iff_of_true (truthful_nxLinkDisable h hpc interface powerDown) trivial
  | resume => exact resume_truthful_iff hs
  | event => exact onEvent_truthful_iff h hs

/-! ## Runs -/

/-- In any order of commands, answers of the EMAC and events, the flag of the attached
interface tells the truth if and only if every step is orderly. -/
theorem linkUp_truthful_iff_orderly (acts : List (Action I)) :
    Always step Truthful (init I) acts ↔ Meets step Orderly (init I) acts := by
  apply always_iff_meets Truthful
  · intro s a t h hok hs
    exact (step_truthful_iff h hs).mpr hok
  · intro s h
    exact h
  · intro s a t h hs hn ht
    exact hn ((step_truthful_iff h hs).mp ht)
  · exact truthful_init

/-- The link comes up before NetX enables it. -/
def early : List (Action Unit) :=
  [.linkInterfaceAttach ((), 0) (), .linkInitialize true true, .event]

theorem early_not_truthful :
    ¬ ∀ (I : Type) [DecidableEq I] (acts : List (Action I)) s,
      run step (init I) acts = some s → Truthful s := by
  intro h
  have henabled := (h Unit early _ rfl).enabled rfl ((), 0) rfl rfl
  cases henabled

end OpenIotSdk.Netx.Link
