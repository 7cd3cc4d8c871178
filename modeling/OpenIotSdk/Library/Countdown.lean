import Mathlib.Algebra.Order.Group.Int
import Mathlib.Data.Option.Basic

/-! # Loops that spend a budget

A loop goes on while there is something left. Each round spends some of it or ends the loop, or it
never returns. -/

namespace Countdown

variable {σ : Type*}

/-- What a round leaves: how much it has spent, or nothing where it ends the loop. -/
structure Round (σ : Type*) where
  state : σ
  spent : Option ℤ

/-- No result where the fuel runs out or a round does not return. -/
def run (round : ℤ → σ → Option (Round σ)) : (fuel : ℕ) → ℤ → σ → Option σ
  | 0, _, _ => none
  | fuel + 1, left, s =>
      if 0 < left then
        (round left s).bind fun r =>
          match r.spent with
          | none => some r.state
          | some n => run round fuel (left - n) r.state
      else some s

variable {round : ℤ → σ → Option (Round σ)} {fuel : ℕ} {left n : ℤ} {s t : σ}

theorem run_of_nonpos (h : left ≤ 0) : run round (fuel + 1) left s = some s := by
  simp [run, h.not_gt]

theorem run_stop (h : 0 < left) (hround : round left s = some ⟨t, none⟩) :
    run round (fuel + 1) left s = some t := by
  simp [run, h, hround]

theorem run_spend (h : 0 < left) (hround : round left s = some ⟨t, some n⟩) :
    run round (fuel + 1) left s = run round fuel (left - n) t := by
  simp [run, h, hround]

theorem run_stuck (h : 0 < left) (hround : round left s = none) :
    run round (fuel + 1) left s = none := by
  simp [run, h, hround]

/-- What each round keeps, the end of the loop finds. -/
theorem run_invariant (Inv : ℤ → σ → Prop) (Post : σ → Prop)
    (hdone : ∀ left s, left ≤ 0 → Inv left s → Post s)
    (hstop : ∀ left s t, 0 < left → Inv left s → round left s = some ⟨t, none⟩ → Post t)
    (hspend : ∀ left s n t, 0 < left → Inv left s → round left s = some ⟨t, some n⟩ →
      Inv (left - n) t)
    (h : Inv left s) (hrun : run round fuel left s = some t) : Post t := by
  induction fuel generalizing left s with
  | zero => cases hrun
  | succ fuel ih =>
      rcases lt_or_ge 0 left with hpos | hnonpos
      · cases hround : round left s with
        | none =>
            rw [run_stuck hpos hround] at hrun
            cases hrun
        | some r =>
            obtain ⟨u, spent⟩ := r
            cases spent with
            | none =>
                rw [run_stop hpos hround] at hrun
                cases hrun
                exact hstop left s t hpos h hround
            | some n =>
                rw [run_spend hpos hround] at hrun
                exact ih (hspend left s n u hpos h hround) hrun
      · rw [run_of_nonpos hnonpos] at hrun
        cases hrun
        exact hdone left t hnonpos h

/-- Where each round returns and spends something, the loop ends. -/
theorem run_isSome (hround : ∀ left s, 0 < left → ∃ r, round left s = some r ∧
    ∀ n ∈ r.spent, 0 < n) (hfuel : left.toNat < fuel) : (run round fuel left s).isSome = true := by
  induction fuel generalizing left s with
  | zero => cases hfuel
  | succ fuel ih =>
      rcases lt_or_ge 0 left with hpos | hnonpos
      · obtain ⟨⟨t, spent⟩, hreturns, hspent⟩ := hround left s hpos
        cases spent with
        | none => simp [run_stop hpos hreturns]
        | some n =>
            have hn := hspent n rfl
            rw [run_spend hpos hreturns]
            apply ih
            omega
      · simp [run_of_nonpos hnonpos]

/-- More fuel makes no difference. -/
theorem run_mono (h : run round fuel left s = some t) (more : ℕ) :
    run round (fuel + more) left s = some t := by
  induction fuel generalizing left s with
  | zero => cases h
  | succ fuel ih =>
      rw [Nat.add_right_comm]
      rcases lt_or_ge 0 left with hpos | hnonpos
      · cases hround : round left s with
        | none =>
            rw [run_stuck hpos hround] at h
            cases h
        | some r =>
            obtain ⟨u, spent⟩ := r
            cases spent with
            | none =>
                rw [run_stop hpos hround] at h ⊢
                exact h
            | some n =>
                rw [run_spend hpos hround] at h ⊢
                exact ih h
      · rw [run_of_nonpos hnonpos] at h ⊢
        exact h

/-- Rounds that agree up to a part of the state make loops that agree so. -/
theorem run_map {τ : Type*} {round' : ℤ → τ → Option (Round τ)} (f : σ → τ)
    (h : ∀ left s, (round left s).map (fun r => ⟨f r.state, r.spent⟩) = round' left (f s)) :
    (run round fuel left s).map f = run round' fuel left (f s) := by
  induction fuel generalizing left s with
  | zero => rfl
  | succ fuel ih =>
      rw [run, run, ← h]
      split
      · cases round left s with
        | none => rfl
        | some r =>
            obtain ⟨u, spent⟩ := r
            cases spent with
            | none => rfl
            | some n => exact ih
      · rfl

end Countdown
