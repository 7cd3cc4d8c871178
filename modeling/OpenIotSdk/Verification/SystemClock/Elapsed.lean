import OpenIotSdk.Library.WrappingCounter
import OpenIotSdk.Model.Pigweed.SystemClock

/-! # The ticks that have elapsed

The two words are quotient and remainder of the ticks elapsed at the last call. -/

namespace OpenIotSdk.SystemClock

open WrappingCounter

variable {c : SystemClock} {t n : ℕ}

structure Shows (c : SystemClock) (t : ℕ) : Prop where
  high : c.tickCountHigh.toNat = t / 2 ^ 32
  low : c.tickCountLow.toNat = t % 2 ^ 32

theorem shows_init : init.Shows 0 := ⟨rfl, rfl⟩

/-- The signed comparison is that of the counts. -/
theorem slt_setWidth (x y : BitVec 32) :
    (x.setWidth 64).slt (y.setWidth 64) = true ↔ x.toNat < y.toNat := by
  rw [BitVec.slt_iff_toInt_lt, BitVec.toInt_eq_toNat_of_lt, BitVec.toInt_eq_toNat_of_lt]
  all_goals simp only [BitVec.toNat_setWidth]
  all_goals omega

/-- The two words, put together. -/
theorem toInt_words (high low : BitVec 32) (h : high.toNat < 2 ^ 31) :
    (high.setWidth 64 <<< 32 ||| low.setWidth 64).toInt = high.toNat * 2 ^ 32 + low.toNat := by
  have hlow := low.isLt
  have htoNat : (high.setWidth 64 <<< 32 ||| low.setWidth 64).toNat =
      high.toNat * 2 ^ 32 + low.toNat := by
    have hhigh : (high.setWidth 64 <<< 32).toNat = high.toNat <<< 32 := by
      rw [BitVec.toNat_shiftLeft, BitVec.toNat_setWidth, Nat.mod_eq_of_lt (by omega),
        Nat.mod_eq_of_lt (by omega)]
    rw [BitVec.toNat_or, hhigh, BitVec.toNat_setWidth, Nat.mod_eq_of_lt (by omega),
      ← Nat.shiftLeft_add_eq_or_of_lt hlow, Nat.shiftLeft_eq]
  rw [BitVec.toInt_eq_toNat_of_lt (by omega), htoNat]
  push_cast
  rfl

/-- A call less than 2^32 ticks after the last one returns the ticks elapsed. -/
theorem Shows.getSystemClockTickCount (h : c.Shows t) (hle : t ≤ n) (hgap : n < t + 2 ^ 32)
    (hlt : n < 2 ^ 63) :
    (c.getSystemClockTickCount (BitVec.ofNat 32 n)).1.Shows n ∧
      (c.getSystemClockTickCount (BitVec.ofNat 32 n)).2.toInt = n := by
  have hlow : ((BitVec.ofNat 32 n).setWidth 64).setWidth 32 = BitVec.ofNat 32 n := by
    apply BitVec.eq_of_toNat_eq
    simp only [BitVec.toNat_setWidth, BitVec.toNat_ofNat]
    omega
  have hhigh : (if ((BitVec.ofNat 32 n).setWidth 64).slt (c.tickCountLow.setWidth 64) then
      c.tickCountHigh + 1 else c.tickCountHigh).toNat = n / 2 ^ 32 := by
    rw [div_eq_ite hle hgap]
    have hwrap := slt_setWidth (BitVec.ofNat 32 n) c.tickCountLow
    rw [BitVec.toNat_ofNat, h.low] at hwrap
    by_cases hfell : n % 2 ^ 32 < t % 2 ^ 32
    · have hquotient : t / 2 ^ 32 + 1 < 2 ^ 32 := by omega
      rw [if_pos (hwrap.mpr hfell), if_pos hfell, BitVec.toNat_add, h.high]
      exact Nat.mod_eq_of_lt hquotient
    · rw [if_neg (mt hwrap.mp hfell), if_neg hfell, h.high]
  have hshows : (c.getSystemClockTickCount (BitVec.ofNat 32 n)).1.Shows n := by
    refine ⟨hhigh, ?_⟩
    dsimp only [SystemClock.getSystemClockTickCount]
    rw [hlow, BitVec.toNat_ofNat]
  refine ⟨hshows, ?_⟩
  have hret := toInt_words _ (c.getSystemClockTickCount (BitVec.ofNat 32 n)).1.tickCountLow
    (hshows.high.trans_lt (by omega))
  rw [hshows.high, hshows.low] at hret
  refine hret.trans ?_
  have hdiv := Nat.div_add_mod n (2 ^ 32)
  omega

theorem readings_instants (h : c.Shows t) (gaps : List ℕ) (hgaps : ∀ gap ∈ gaps, gap < 2 ^ 32)
    (htotal : t + gaps.sum < 2 ^ 63) :
    c.readings (instants t gaps) = (instants t gaps).map Nat.cast := by
  induction gaps generalizing c t with
  | nil => rfl
  | cons gap gaps ih =>
      have hgap := hgaps gap List.mem_cons_self
      rw [List.sum_cons, ← Nat.add_assoc] at htotal
      obtain ⟨hshows, hret⟩ := h.getSystemClockTickCount (Nat.le_add_right t gap)
        (Nat.add_lt_add_left hgap t) ((Nat.le_add_right _ _).trans_lt htotal)
      have hrest := ih hshows (fun g hg => hgaps g (List.mem_cons_of_mem gap hg)) htotal
      exact congrArg₂ List.cons hret hrest

/-- Whenever the clock is read, as long as it is read every 2^32 ticks, it returns the ticks elapsed
since the start, however often the kernel's counter has wrapped; and so it never goes back. -/
theorem readings_eq_elapsed (gaps : List ℕ) (hgaps : ∀ gap ∈ gaps, gap < 2 ^ 32)
    (htotal : gaps.sum < 2 ^ 63) :
    init.readings (instants 0 gaps) = (instants 0 gaps).map Nat.cast ∧
      (init.readings (instants 0 gaps)).Pairwise (· ≤ ·) := by
  have hreadings := readings_instants shows_init gaps hgaps (by rwa [Nat.zero_add])
  refine ⟨hreadings, ?_⟩
  rw [hreadings, List.pairwise_map]
  exact (pairwise_instants 0 gaps).imp Int.ofNat_le.mpr

/-- Two calls around a wrap. -/
theorem readings_around_wrap :
    init.readings (instants 0 [4294967295, 2]) = [4294967295, 4294967297] :=
  (readings_eq_elapsed [4294967295, 2] (by decide) (by decide)).1

end OpenIotSdk.SystemClock
