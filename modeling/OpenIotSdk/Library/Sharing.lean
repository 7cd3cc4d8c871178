import Mathlib.Logic.Function.Basic
import OpenIotSdk.Library.Transition

/-! # Components that share a memory

The components take their steps one at a time. Each relies on what the others leave alone in the
memory, and guarantees what it leaves alone itself. -/

namespace Sharing

open Transition

/-- A component, whose step works on the memory and on the state of its own. -/
structure Component (ω σ α : Type*) where
  step : ω → σ → α → Option (ω × σ)
  stops : σ → Bool -- the component has stopped the whole system

variable {ι ω : Type*} [DecidableEq ι] {σ α : ι → Type*}

structure State (ω : Type*) (σ : ι → Type*) where
  memory : ω
  parts : ∀ i, σ i
  stopped : Bool

def init (memory : ω) (parts : ∀ i, σ i) : State ω σ := ⟨memory, parts, false⟩

/-- One component takes a step. -/
def step (c : ∀ i, Component ω (σ i) (α i)) (s : State ω σ) (a : Σ i, α i) :
    Option (State ω σ) :=
  if s.stopped then none
  else ((c a.1).step s.memory (s.parts a.1) a.2).map fun next =>
    ⟨next.1, Function.update s.parts a.1 next.2, (c a.1).stops next.2⟩

/-! ## The rule -/

/-- What has to be shown of a component: it keeps its invariant by the steps that are `ok`, any
other step breaks `p` at once, and memory that changes as it relies on does no harm. -/
structure Rule {σ α : Type*} (c : Component ω σ α) (inv p : ω → σ → Prop)
    (ok : ω → σ → α → Prop) (rely guar : ω → ω → Prop) : Prop where
  step : ∀ w s a w' s', inv w s → ok w s a → c.step w s a = some (w', s') → inv w' s'
  safe : ∀ w s, inv w s → p w s
  breaks : ∀ w s a w' s', inv w s → c.step w s a = some (w', s') → ¬ ok w s a → ¬ p w' s'
  stable : ∀ w w' s, inv w s → rely w w' → inv w' s
  guarantee : ∀ w s a w' s', inv w s → c.step w s a = some (w', s') → guar w w'

variable {c : ∀ i, Component ω (σ i) (α i)}

theorem step_cases {s t : State ω σ} {a : Σ i, α i} (h : step c s a = some t) :
    ∃ next, (c a.1).step s.memory (s.parts a.1) a.2 = some next ∧ t.memory = next.1 ∧
      t.parts = Function.update s.parts a.1 next.2 := by
  rw [step] at h
  obtain ⟨-, h⟩ := Option.ite_none_left_eq_some.mp h
  obtain ⟨next, hnext, rfl⟩ := Option.map_eq_some_iff.mp h
  exact ⟨next, hnext, rfl, rfl⟩

/-- In any interleaving, all components are safe exactly if each of their steps is `ok` for the
component that takes it. -/
theorem always_iff_meets {inv p : ∀ i, ω → σ i → Prop} {ok : ∀ i, ω → σ i → α i → Prop}
    {rely guar : ι → ω → ω → Prop}
    (hrule : ∀ i, Rule (c i) (inv i) (p i) (ok i) (rely i) (guar i))
    (hrely : ∀ i j, i ≠ j → ∀ w w', guar i w w' → rely j w w')
    {memory : ω} {parts : ∀ i, σ i} (hinit : ∀ i, inv i memory (parts i))
    (acts : List (Σ i, α i)) :
    Always (step c) (fun s : State ω σ => ∀ i, p i s.memory (s.parts i)) (init memory parts)
        acts ↔
      Meets (step c) (fun s a => ok a.1 s.memory (s.parts a.1) a.2) (init memory parts) acts := by
  refine Transition.always_iff_meets (fun s : State ω σ => ∀ i, inv i s.memory (s.parts i)) ?_
    (fun s h i => (hrule i).safe _ _ (h i)) ?_ hinit acts
  · intro s a t h hok ht j
    obtain ⟨⟨w, next⟩, hnext, hmemory, hparts⟩ := step_cases ht
    rw [hmemory, hparts]
    by_cases hj : j = a.1
    · subst hj
      rw [Function.update_self]
      exact (hrule a.1).step _ _ _ _ _ (h a.1) hok hnext
    · rw [Function.update_of_ne hj]
      refine (hrule j).stable _ _ _ (h j) (hrely a.1 j (Ne.symm hj) _ _ ?_)
      exact (hrule a.1).guarantee _ _ _ _ _ (h a.1) hnext
  · intro s a t h ht hbad hall
    obtain ⟨⟨w, next⟩, hnext, hmemory, hparts⟩ := step_cases ht
    refine (hrule a.1).breaks _ _ _ _ _ (h a.1) hnext hbad ?_
    have hsafe := hall a.1
    rwa [hmemory, hparts, Function.update_self] at hsafe

end Sharing
