import Mathlib.Data.List.Basic

/-! # Histories

A history lists what has happened, the newest item first. -/

namespace History

variable {α : Type*}

/-- Every item satisfies `p` together with what happened before it. -/
def Along (p : α → List α → Prop) : List α → Prop
  | [] => True
  | a :: before => p a before ∧ Along p before

variable {p : α → List α → Prop}

/-- New items, each of which satisfies `p` after the ones before it. -/
theorem Along.append {items before : List α}
    (h : ∀ a back, a :: back <:+ items → p a (back ++ before)) (hb : Along p before) :
    Along p (items ++ before) := by
  induction items with
  | nil => exact hb
  | cons a items ih =>
      refine ⟨h a items List.suffix_rfl, ih fun b back hsuffix => ?_⟩
      exact h b back (hsuffix.trans (List.suffix_cons a items))

/-- What the latest item says that `f` reads. -/
def latest {γ : Type*} (f : α → Option γ) (history : List α) : Option γ := history.findSome? f

variable {γ : Type*} {f : α → Option γ}

/-- Items that say nothing leave the latest one as it is. -/
theorem latest_append {items before : List α} (h : ∀ a ∈ items, f a = none) :
    latest f (items ++ before) = latest f before := by
  rw [latest, List.findSome?_append, List.findSome?_eq_none_iff.mpr h]
  rfl

/-- The items since the latest one at which `stop` holds. -/
def since (stop : α → Bool) (history : List α) : List α := history.takeWhile fun a => !stop a

variable {stop : α → Bool}

theorem since_append {items : List α} (h : ∀ a ∈ items, stop a = false) (before : List α) :
    since stop (items ++ before) = items ++ since stop before :=
  List.takeWhile_append_of_pos fun a ha => by simp [h a ha]

end History
