import Mathlib.Logic.Function.Basic
import OpenIotSdk.Library.Transition

/-! # Subscriptions behind an address filter

Subjects are subscribed to and given up one at a time. A filter lets the address of a subject pass,
and several subjects may have the same address. -/

namespace Subscription

open Transition

variable {γ μ : Type*}

structure State (γ μ : Type*) where
  joined : γ → Bool
  passes : μ → Bool

inductive Action (γ : Type*) where
  | join (g : γ) (ok : Bool) -- the filter is changed if `ok`
  | leave (g : γ) (ok : Bool)

def init : State γ μ := ⟨fun _ => false, fun _ => false⟩

/-! ## The specification -/

/-- What passes is what is subscribed to. -/
def Exact (addr : γ → μ) (s : State γ μ) : Prop :=
  ∀ m, s.passes m = true ↔ ∃ g, s.joined g = true ∧ addr g = m

/-- Another subject is subscribed to that has the address of `g`. -/
def Shared (addr : γ → μ) (s : State γ μ) (g : γ) : Prop :=
  ∃ g', g' ≠ g ∧ s.joined g' = true ∧ addr g' = addr g

/-- The filter is changed where it has to be, and only there. -/
def Fits (addr : γ → μ) (s : State γ μ) : Action γ → Prop
  | .join g ok => ok = true ∨ Shared addr s g
  | .leave g ok => ok = true ↔ ¬ Shared addr s g

/-! ## Steps -/

variable {addr : γ → μ} {s t : State γ μ} {g : γ}

theorem exact_init : Exact addr init := fun _ => ⟨nofun, nofun⟩

variable [DecidableEq γ] [DecidableEq μ]

/-- The filter with the address `m` set or not, if it can be changed. -/
def setFilter (passes : μ → Bool) (m : μ) (pass ok : Bool) : μ → Bool :=
  if ok then Function.update passes m pass else passes

/-- Nothing is subscribed to twice, and only what was subscribed to is given up. -/
def step (addr : γ → μ) (s : State γ μ) : Action γ → Option (State γ μ)
  | .join g ok =>
      if s.joined g then none
      else some ⟨Function.update s.joined g true, setFilter s.passes (addr g) true ok⟩
  | .leave g ok =>
      if s.joined g then
        some ⟨Function.update s.joined g false, setFilter s.passes (addr g) false ok⟩
      else none

/-- After a step for `g` the filter has to be right for the address of `g` only. -/
theorem exact_iff (h : Exact addr s) {joined : Bool} (pass ok : Bool) :
    Exact addr ⟨Function.update s.joined g joined, setFilter s.passes (addr g) pass ok⟩ ↔
      ((if ok then pass else s.passes (addr g)) = true ↔ joined = true ∨ Shared addr s g) := by
  have hself : (∃ g', Function.update s.joined g joined g' = true ∧ addr g' = addr g) ↔
      joined = true ∨ Shared addr s g := by
    constructor
    · rintro ⟨g', hg', haddr⟩
      by_cases heq : g' = g
      · subst heq
        rw [Function.update_self] at hg'
        exact .inl hg'
      · rw [Function.update_of_ne heq] at hg'
        exact .inr ⟨g', heq, hg', haddr⟩
    · rintro (hjoined | ⟨g', hne, hg', haddr⟩)
      · exact ⟨g, by rw [Function.update_self]; exact hjoined, rfl⟩
      · exact ⟨g', by rw [Function.update_of_ne hne]; exact hg', haddr⟩
  have hfilter : setFilter s.passes (addr g) pass ok (addr g) =
      if ok then pass else s.passes (addr g) := by
    cases ok
    · rfl
    · exact Function.update_self ..
  constructor
  · intro hexact
    rw [← hself, ← hfilter]
    exact hexact (addr g)
  · intro hiff m
    by_cases hm : m = addr g
    · subst hm
      change setFilter s.passes (addr g) pass ok (addr g) = true ↔ _
      rw [hfilter]
      exact hiff.trans hself.symm
    · have hpasses : setFilter s.passes (addr g) pass ok m = s.passes m := by
        cases ok
        · rfl
        · exact Function.update_of_ne hm ..
      change setFilter s.passes (addr g) pass ok m = true ↔ _
      rw [hpasses, h m]
      refine exists_congr fun g' => and_congr_left fun haddr => ?_
      have hne : g' ≠ g := fun heq => hm (by rw [← haddr, heq])
      change _ ↔ Function.update s.joined g joined g' = true
      rw [Function.update_of_ne hne]

theorem exact_step (h : Exact addr s) {a : Action γ} (ht : step addr s a = some t) :
    Exact addr t ↔ Fits addr s a := by
  cases a with
  | join g ok =>
      obtain ⟨hjoined, ht⟩ := Option.ite_none_left_eq_some.mp ht
      cases ht
      have hshared : s.passes (addr g) = true ↔ Shared addr s g := by
        rw [h]
        refine exists_congr fun g' => ⟨fun hg' => ⟨?_, hg'⟩, fun hg' => hg'.2⟩
        rintro rfl
        exact hjoined hg'.1
      rw [exact_iff h]
      cases ok <;> simp [Fits, hshared]
  | leave g ok =>
      obtain ⟨hjoined, ht⟩ := Option.ite_none_right_eq_some.mp ht
      cases ht
      have hpasses : s.passes (addr g) = true := (h _).mpr ⟨g, hjoined, rfl⟩
      rw [exact_iff h]
      cases ok <;> simp [Fits, hpasses]

/-- The filter is exact throughout a run exactly if it is changed as it has to be. -/
theorem always_exact_iff (acts : List (Action γ)) :
    Always (step addr) (Exact addr) init acts ↔ Meets (step addr) (Fits addr) init acts :=
  always_iff_meets (Exact addr) (fun _ _ _ h hok ht => (exact_step h ht).mpr hok)
    (fun _ h => h) (fun _ _ _ h ht hn hexact => hn ((exact_step h ht).mp hexact)) exact_init acts

end Subscription
