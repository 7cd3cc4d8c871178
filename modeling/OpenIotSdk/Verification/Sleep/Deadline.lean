import OpenIotSdk.Model.Pigweed.Sleep
import Mathlib.Algebra.Ring.Nat

/-! # Deadlines of thread sleep

`sleep_for` cuts any duration into delays. `sleep_until` asks it for one delay at most. -/

namespace OpenIotSdk.Sleep

open Countdown

/-- What `sleep_for` is to pass to `osDelay`. -/
structure Covers (sleepDuration : ℤ) (delays : List (BitVec 32)) : Prop where
  bounds : ∀ ticks ∈ delays, 1 ≤ ticks.toNat ∧ ticks.toNat ≤ 2 ^ 32 - 3
  sum : ((delays.map BitVec.toNat).sum : ℤ) = max sleepDuration 0

variable {osDelay : OsDelay} {fuel : ℕ} {ticks sleepDuration deadline now : ℤ}

theorem clamp_bounds (ticks : ℤ) : 1 ≤ clamp ticks 1 maxTicks ∧ clamp ticks 1 maxTicks ≤ maxTicks := by
  unfold clamp maxTicks
  omega

theorem clamp_le (h : 0 < ticks) : clamp ticks 1 maxTicks ≤ ticks := by
  unfold clamp
  omega

theorem toNat_ticks32 (ticks : ℤ) : ((ticks32 ticks).toNat : ℤ) = clamp ticks 1 maxTicks := by
  obtain ⟨hlow, hhigh⟩ := clamp_bounds ticks
  have hmax : maxTicks = 4294967293 := rfl
  rw [ticks32, BitVec.toNat_ofInt]
  omega

/-! ## `sleep_for` -/

theorem sleepFor_isSome (hfuel : sleepDuration.toNat < fuel) :
    (sleepFor osDelay fuel sleepDuration now).isSome = true := by
  apply run_isSome _ hfuel
  intro ticks s _
  refine ⟨_, rfl, ?_⟩
  intro n hn
  cases hn
  rw [toNat_ticks32]
  exact (clamp_bounds ticks).1

/-- The delays so far and what is left. -/
def Covered (sleepDuration left : ℤ) (s : Slept) : Prop :=
  (∀ ticks ∈ s.delays, 1 ≤ ticks.toNat ∧ ticks.toNat ≤ 2 ^ 32 - 3) ∧
    ((s.delays.map BitVec.toNat).sum : ℤ) + max left 0 = max sleepDuration 0

theorem Covered.delay {left : ℤ} {s : Slept} (h : Covered sleepDuration left s) (hleft : 0 < left) :
    Covered sleepDuration (left - (ticks32 left).toNat) (s.delay osDelay (ticks32 left)) := by
  obtain ⟨hbounds, hsum⟩ := h
  have hticks := toNat_ticks32 left
  obtain ⟨hlow, hhigh⟩ := clamp_bounds left
  have hle := clamp_le hleft
  have hmax : maxTicks = 4294967293 := rfl
  refine ⟨?_, ?_⟩
  · intro ticks hmem
    rcases List.mem_append.mp hmem with hmem | hmem
    · exact hbounds ticks hmem
    · rw [List.mem_singleton.mp hmem]
      omega
  · simp only [Slept.delay, List.map_append, List.map_cons, List.map_nil, List.sum_append,
      List.sum_cons, List.sum_nil, Nat.cast_add, Nat.add_zero]
    omega

theorem sleepFor_covers {s : Slept} (h : sleepFor osDelay fuel sleepDuration now = some s) :
    Covers sleepDuration s.delays := by
  refine run_invariant (Covered sleepDuration) (fun s => Covers sleepDuration s.delays)
    ?_ ?_ ?_ ?_ h
  · intro left s hleft hcovered
    refine ⟨hcovered.1, ?_⟩
    have hsum := hcovered.2
    omega
  · intro left s t _ _ hround
    cases hround
  · intro left s n t hleft hcovered hround
    cases hround
    exact hcovered.delay hleft
  · exact ⟨by simp, by simp⟩

/-! ## `sleep_until` -/

/-- It calls `osDelay` once. -/
theorem sleepUntil_eq (hfuel : 1 < fuel) :
    sleepUntil osDelay fuel deadline now =
      some ⟨osDelay.returns now (ticks32 (deadline - now)), [ticks32 (deadline - now)]⟩ := by
  obtain ⟨fuel, rfl⟩ := Nat.exists_eq_add_of_le' hfuel
  obtain ⟨hlow, hhigh⟩ := clamp_bounds (deadline - now)
  have hsame : ticks32 (clamp (deadline - now) 1 maxTicks) = ticks32 (deadline - now) := by
    rw [ticks32, ticks32]
    congr 1
    unfold clamp at *
    omega
  rw [sleepUntil, sleepFor, run_spend (by omega) rfl, run_of_nonpos]
  · rw [Slept.delay, hsame]
    rfl
  · rw [toNat_ticks32]
    unfold clamp at *
    omega

/-- A deadline is met if it is no more than one delay away, or the one delay takes that long. -/
theorem deadline_iff (osDelay : OsDelay) (deadline now : ℤ) :
    deadline ≤ osDelay.returns now (ticks32 (deadline - now)) ↔
      deadline - now ≤ maxTicks ∨ deadline ≤ osDelay.returns now (ticks32 maxTicks) := by
  have hticks := toNat_ticks32 (deadline - now)
  have hlate := osDelay.late now (ticks32 (deadline - now))
  rcases le_or_gt (deadline - now) maxTicks with hnear | hfar
  · refine iff_of_true ?_ (Or.inl hnear)
    unfold clamp at hticks
    omega
  · have hsame : ticks32 (deadline - now) = ticks32 maxTicks := by
      rw [ticks32, ticks32]
      congr 1
      unfold clamp
      omega
    rw [hsame, or_iff_right hfar.not_ge]

theorem sleeps_iff (osDelay : OsDelay) (deadline sleepDuration now : ℤ)
    (hfuel : sleepDuration.toNat + 1 < fuel) :
    ∃ u s, sleepUntil osDelay fuel deadline now = some u ∧
      sleepFor osDelay fuel sleepDuration now = some s ∧ Covers sleepDuration s.delays ∧
      (deadline ≤ u.now ↔
        deadline - now ≤ maxTicks ∨ deadline ≤ osDelay.returns now (ticks32 maxTicks)) := by
  have hreturns : (sleepFor osDelay fuel sleepDuration now).isSome = true :=
    sleepFor_isSome (by omega)
  obtain ⟨s, hs⟩ := Option.isSome_iff_exists.mp hreturns
  exact ⟨_, s, sleepUntil_eq (by omega), hs, sleepFor_covers hs, deadline_iff osDelay deadline now⟩

/-- Delays that are never late. -/
def punctual : OsDelay := ⟨fun now ticks => now + ticks.toNat, fun _ _ => le_refl _⟩

theorem sleeps_iff_punctual :
    ∃ u s, sleepUntil punctual 7 (2 ^ 32) 0 = some u ∧ sleepFor punctual 7 5 0 = some s ∧
      Covers 5 s.delays ∧
      ((2 ^ 32 : ℤ) ≤ u.now ↔
        (2 ^ 32 : ℤ) - 0 ≤ maxTicks ∨ 2 ^ 32 ≤ punctual.returns 0 (ticks32 maxTicks)) :=
  sleeps_iff punctual (2 ^ 32) 5 0 (by decide)

/-- The sleep ends three ticks before the deadline. -/
theorem punctual_early :
    ¬ ∀ (osDelay : OsDelay) (fuel : ℕ) (deadline now : ℤ) (s : Slept),
      sleepUntil osDelay fuel deadline now = some s → deadline ≤ s.now := by
  intro h
  have hearly := h punctual 2 (2 ^ 32) 0 _ (sleepUntil_eq (by decide))
  revert hearly
  decide

end OpenIotSdk.Sleep
