import Mathlib.Data.List.Basic

/-! # Tagged sequences

Several parties put items into one sequence, each item tagged with its party. -/

namespace Tagged

variable {ι α : Type*} [DecidableEq ι]

/-- The items of `i`, in order. -/
def of (i : ι) (items : List (ι × α)) : List α :=
  (items.filter fun item => item.1 = i).map Prod.snd

@[simp] theorem of_nil (i : ι) : of i ([] : List (ι × α)) = [] := rfl

theorem of_snoc_self (i : ι) (items : List (ι × α)) (a : α) :
    of i (items ++ [(i, a)]) = of i items ++ [a] := by
  simp [of]

theorem of_snoc_of_ne {i j : ι} (hne : j ≠ i) (items : List (ι × α)) (a : α) :
    of j (items ++ [(i, a)]) = of j items := by
  simp [of, Ne.symm hne]

end Tagged
