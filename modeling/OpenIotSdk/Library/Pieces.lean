import Mathlib.Algebra.BigOperators.Group.List.Basic
import Mathlib.Algebra.Ring.Nat

/-! # Cutting a length into pieces

A length is cut into pieces of one size, and only the last of them may be smaller. Where each piece
gives up some padding, the lengths without it add up to what was there before the padding. -/

namespace Pieces

/-- The pieces of a length: whole ones as long as more than one is left. -/
inductive Cut (whole : ℕ) : ℕ → List ℕ → Prop where
  | last {n} : n ≤ whole → Cut whole n [n]
  | next {n rest} : whole < n → Cut whole (n - whole) rest → Cut whole n (whole :: rest)

/-- How many pieces of size `d` hold `n`. -/
def count (n d : ℕ) : ℕ := if n % d = 0 then n / d else n / d + 1

variable {whole pad n d k : ℕ} {pieces : List ℕ}

theorem le_count_mul (hd : 0 < d) : n ≤ count n d * d := by
  have hdiv := Nat.div_add_mod' n d
  have hmod := Nat.mod_lt n hd
  rw [count]
  split
  · omega
  · rw [Nat.add_mul, Nat.one_mul]
    omega

/-- One piece less does not hold it. -/
theorem pred_count_mul_lt (hd : 0 < d) (hn : 0 < n) : (count n d - 1) * d < n := by
  have hdiv := Nat.div_add_mod' n d
  rw [count]
  split
  · next hmod =>
      have hq : 0 < n / d := by
        rcases Nat.eq_zero_or_pos (n / d) with hzero | hpos
        · rw [hzero, Nat.zero_mul] at hdiv
          omega
        · exact hpos
      have hpred : (n / d - 1) * d + d = n / d * d := by
        rw [← Nat.succ_mul, Nat.succ_eq_add_one, Nat.sub_add_cancel hq]
      omega
  · next hmod =>
      rw [Nat.add_sub_cancel]
      omega

theorem count_le (hd : 0 < d) (hn : 0 < n) : count n d ≤ n := by
  have hlt := pred_count_mul_lt hd hn
  have hmul : (count n d - 1) * 1 ≤ (count n d - 1) * d := Nat.mul_le_mul_left _ hd
  omega

/-- With padding for the number of pieces that `n` needs without it, the number stays, each piece
is longer than its padding, and what is left of the pieces adds up to `n`. -/
theorem Cut.padded (hpad : pad < whole) (hlow : (k - 1) * (whole - pad) < n)
    (hhigh : n ≤ k * (whole - pad)) (h : Cut whole (n + k * pad) pieces) :
    (∀ piece ∈ pieces, pad < piece) ∧ (pieces.map (· - pad)).sum = n := by
  obtain ⟨d, rfl⟩ : ∃ d, whole = d + pad :=
    ⟨whole - pad, (Nat.sub_add_cancel (Nat.le_of_lt hpad)).symm⟩
  rw [Nat.add_sub_cancel] at hlow hhigh
  induction k generalizing n pieces with
  | zero =>
      rw [Nat.zero_mul] at hhigh
      omega
  | succ k ih =>
      rw [Nat.add_sub_cancel] at hlow
      rw [Nat.succ_mul] at hhigh h
      cases h with
      | last hle =>
          -- There is only one piece.
          obtain rfl : k = 0 := by
            rcases Nat.eq_zero_or_pos k with hzero | hpos
            · exact hzero
            · have hd : 1 * d ≤ k * d := Nat.mul_le_mul_right d hpos
              have hp : 1 * pad ≤ k * pad := Nat.mul_le_mul_right pad hpos
              omega
          refine ⟨fun piece hmem => ?_, ?_⟩
          · rw [List.mem_singleton.mp hmem]
            omega
          · rw [List.map_singleton, List.sum_singleton]
            omega
      | next hlt hrest =>
          have hk : k = k - 1 + 1 := by
            rcases Nat.eq_zero_or_pos k with rfl | hpos
            · omega
            · omega
          have hd : k * d = (k - 1) * d + d := by
            rw [← Nat.succ_mul, Nat.succ_eq_add_one, ← hk]
          have hsplit : n + (k * pad + pad) - (d + pad) = n - d + k * pad := by omega
          rw [hsplit] at hrest
          obtain ⟨hall, hsum⟩ := ih (by omega) (by omega) hrest
          refine ⟨fun piece hmem => ?_, ?_⟩
          · rcases List.mem_cons.mp hmem with rfl | hmem
            · exact hpad
            · exact hall piece hmem
          · rw [List.map_cons, List.sum_cons, hsum]
            omega

end Pieces
