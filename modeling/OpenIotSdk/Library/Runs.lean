import Mathlib.Data.List.Basic
import Mathlib.Data.Nat.Basic

/-! # Runs in a list

A run is a stretch of a list whose elements all satisfy a predicate. Of the longest runs there is a
first one, and a scan from left to right can find it. -/

namespace Runs

variable {α : Type*} (p : α → Prop)

/-- The `m` elements from `i` on satisfy `p`. -/
def Run (l : List α) (i m : ℕ) : Prop := ∀ x, i ≤ x → x < i + m → ∃ a ∈ l[x]?, p a

/-- The first of the longest runs. -/
structure Longest (l : List α) (i m : ℕ) : Prop where
  run : Run p l i m
  longest : ∀ j k, Run p l j k → k ≤ m
  first : ∀ j, Run p l j m → i ≤ j

variable {p} {l : List α} {i j k m n s : ℕ} {a : α}

theorem Run.le_length (h : Run p l i m) (hm : 0 < m) : i + m ≤ l.length := by
  obtain ⟨a, ha, -⟩ := h (i + m - 1) (by omega) (by omega)
  obtain ⟨hlt, -⟩ := List.getElem?_eq_some_iff.mp ha
  omega

/-- An element that does not satisfy `p` is in no run. -/
theorem Run.outside (h : Run p l i m) (ha : l[n]? = some a) (hp : ¬ p a) : n < i ∨ i + m ≤ n := by
  by_contra hin
  obtain ⟨b, hb, hpb⟩ := h n (by omega) (by omega)
  cases ha.symm.trans hb
  exact hp hpb

theorem run_replicate (head tail : List α) (hp : p a) :
    Run p (head ++ List.replicate m a ++ tail) head.length m := by
  intro x hlow hhigh
  refine ⟨a, ?_, hp⟩
  rw [List.append_assoc, List.getElem?_append_right hlow,
    List.getElem?_append_left (by rw [List.length_replicate]; omega), List.getElem?_replicate,
    if_pos (by omega)]
  rfl

/-! ## Scans -/

/-- The run at `i` of length `m` goes before every run of `l`, of at least `least` elements, that
ends at `n` or before. -/
def Best (p : α → Prop) (l : List α) (least n : ℕ) (i m : ℕ) : Prop :=
  ∀ j k, least ≤ k → Run p l j k → j + k ≤ n → k ≤ m ∧ (k = m → i ≤ j)

/-- No run begins before `s` and ends behind it. -/
def Cut (p : α → Prop) (l : List α) (s : ℕ) : Prop := ∀ j k, Run p l j k → j < s → j + k ≤ s

theorem cut_zero : Cut p l 0 := fun _ _ _ h => absurd h (Nat.not_lt_zero _)

/-- Behind an element that does not satisfy `p`. -/
theorem cut_succ (ha : l[n]? = some a) (hp : ¬ p a) : Cut p l (n + 1) := by
  intro j k h hj
  rcases h.outside ha hp with hout | hout <;> omega

variable {least : ℕ}

theorem best_zero (hleast : 0 < least) : Best p l least 0 i m := by
  intro j k hk _ hend
  omega

/-- The element at `n` does not satisfy `p`, so that no run ends there. -/
theorem Best.succ (h : Best p l least n i m) (hleast : 0 < least) (ha : l[n]? = some a)
    (hp : ¬ p a) : Best p l least (n + 1) i m := by
  intro j k hk hrun hend
  rcases hrun.outside ha hp with hout | hout
  · omega
  · exact h j k hk hrun hout

/-- The stretch from `s` to `n` is longer than the best run before it. -/
theorem Best.longer (h : Best p l least s i m) (hcut : Cut p l s) (hlonger : m < n - s) :
    Best p l least n s (n - s) := by
  intro j k hk hrun hend
  rcases lt_or_ge j s with hj | hj
  · obtain ⟨hle, -⟩ := h j k hk hrun (hcut j k hrun hj)
    exact ⟨by omega, by omega⟩
  · exact ⟨by omega, fun _ => hj⟩

/-- It is not, and the best run before it stays. -/
theorem Best.keep (h : Best p l least s i m) (hcut : Cut p l s) (hkeep : n - s ≤ m)
    (hfound : m < least ∨ i ≤ s) : Best p l least n i m := by
  intro j k hk hrun hend
  rcases lt_or_ge j s with hj | hj
  · exact h j k hk hrun (hcut j k hrun hj)
  · exact ⟨by omega, by omega⟩

/-- The best run of the whole list is the first of the longest ones. -/
theorem Best.longest (h : Best p l least n i m) (hn : l.length ≤ n) (hrun : Run p l i m)
    (hleast : 0 < least) (hm : least ≤ m) : Longest p l i m := by
  have hbest : ∀ j k, least ≤ k → Run p l j k → k ≤ m ∧ (k = m → i ≤ j) := fun j k hk hrun =>
    h j k hk hrun (Nat.le_trans (hrun.le_length (by omega)) hn)
  refine ⟨hrun, ?_, ?_⟩
  · intro j k hrun
    rcases lt_or_ge k least with hk | hk
    · omega
    · exact (hbest j k hk hrun).1
  · intro j hrun
    exact (hbest j m hm hrun).2 rfl

end Runs
