import OpenIotSdk.Library.Words
import OpenIotSdk.Library.WrappingCounter
import OpenIotSdk.Model.Lwip.SysArch

/-! # The time base of lwIP

Both conversions multiply in 32 bits before they divide. -/

namespace OpenIotSdk.Lwip.SysArch

open WrappingCounter

/-- The difference of two times is that of the ticks between them, up to a millisecond. -/
def KeepsTime (freq tickCount : BitVec 32) (ticks : ℕ) : Prop :=
  Near freq.toNat (1000 * ticks)
    (sysNow (sysInit freq) (tickCount + BitVec.ofNat 32 ticks) -
      sysNow (sysInit freq) tickCount).toNat

/-- A wait ends, and not before its time. -/
def WaitsLong (freq ms : BitVec 32) : Prop :=
  ms.toNat * freq.toNat ≤ 1000 * (sysMsleep (sysInit freq) ms).toNat ∧
    sysMsleep (sysInit freq) ms ≠ osWaitForever

/-- The product that `tick2ms` divides. -/
def product (ticks : ℕ) : ℕ := 1000 * ticks % 2 ^ 32

/-- How often the product wraps between two readings. -/
def wraps (tickCount : BitVec 32) (ticks : ℕ) : ℕ :=
  (product tickCount.toNat + 1000 * ticks) / 2 ^ 32

variable {freq tickCount ms : BitVec 32} {ticks : ℕ}

/-! ## The functions in natural numbers -/

theorem sysInit_of_ne (h : freq.toNat ≠ 1000) : sysInit freq = freq := by
  apply if_neg
  rintro rfl
  exact h rfl

theorem sysInit_thousand (h : freq.toNat = 1000) : sysInit freq = 0 := by
  apply if_pos
  exact BitVec.eq_of_toNat_eq h

theorem sysNow_toNat (h : 0 < freq.toNat) :
    (sysNow freq tickCount).toNat = product tickCount.toNat / freq.toNat := by
  rw [sysNow, tick2ms, if_pos (Word.ne_zero_of_pos h), BitVec.toNat_udiv, BitVec.toNat_mul, product,
    Nat.mul_comm]
  rfl

theorem product_add (tickCount : BitVec 32) (ticks : ℕ) :
    product (tickCount + BitVec.ofNat 32 ticks).toNat =
      (product tickCount.toNat + 1000 * ticks) % 2 ^ 32 := by
  rw [BitVec.toNat_add, BitVec.toNat_ofNat]
  unfold product
  omega

/-! ## Readings -/

theorem keepsTime_thousand (h : freq.toNat = 1000) (hticks : 1000 * ticks < 2 ^ 32 * freq.toNat) :
    KeepsTime freq tickCount ticks := by
  have hdiff : (sysNow 0 (tickCount + BitVec.ofNat 32 ticks) - sysNow 0 tickCount).toNat =
      ticks := by
    change (tickCount + BitVec.ofNat 32 ticks - tickCount).toNat = ticks
    rw [BitVec.add_comm, BitVec.add_sub_cancel, BitVec.toNat_ofNat, Nat.mod_eq_of_lt (by omega)]
  rw [KeepsTime, sysInit_thousand h, hdiff, Near, h]
  omega

theorem keepsTime_iff (h : freq.toNat ≠ 1000) (hticks : 1000 * ticks < 2 ^ 32 * freq.toNat) :
    KeepsTime freq tickCount ticks ↔
      Kept (2 ^ 32) freq.toNat (product tickCount.toNat)
        (product (tickCount + BitVec.ofNat 32 ticks).toNat) (wraps tickCount ticks) := by
  have hpos : 0 < freq.toNat := by omega
  have hproduct : product tickCount.toNat < 2 ^ 32 := Nat.mod_lt _ (by decide)
  have hreading : product tickCount.toNat / freq.toNat < 2 ^ 32 :=
    (Nat.div_le_self _ _).trans_lt hproduct
  have hdiff : (sysNow freq (tickCount + BitVec.ofNat 32 ticks) - sysNow freq tickCount).toNat =
      (2 ^ 32 + product (tickCount + BitVec.ofNat 32 ticks).toNat / freq.toNat -
        product tickCount.toNat / freq.toNat) % 2 ^ 32 := by
    rw [BitVec.toNat_sub, sysNow_toNat hpos, sysNow_toNat hpos, Nat.sub_add_comm hreading.le]
  rw [KeepsTime, sysInit_of_ne h, hdiff, product_add, wraps]
  exact near_iff_kept hpos freq.isLt hproduct hticks

/-! ## Waits -/

theorem waitsLong_thousand (h : freq.toNat = 1000) (hms : 0 < ms.toNat) :
    WaitsLong freq ms ↔ ms ≠ osWaitForever := by
  have hticks : sysMsleep 0 ms = ms := by
    rw [sysMsleep, ms2tick, if_neg (Word.ne_zero_of_pos hms), if_neg (not_not.mpr rfl)]
  rw [WaitsLong, sysInit_thousand h, hticks, h]
  constructor
  · exact fun hwaits => hwaits.2
  · exact fun hne => ⟨by omega, hne⟩

/-- The ticks are those of the product in 32 bits, rounded up. -/
theorem sysMsleep_bounds (hfreq : 0 < freq.toNat) (hms : 0 < ms.toNat) :
    ms.toNat * freq.toNat % 2 ^ 32 ≤ 1000 * (sysMsleep freq ms).toNat ∧
      1000 * (sysMsleep freq ms).toNat < ms.toNat * freq.toNat % 2 ^ 32 + 1000 := by
  have hproduct : (ms * freq).toNat = ms.toNat * freq.toNat % 2 ^ 32 := BitVec.toNat_mul ..
  have hlt : ms.toNat * freq.toNat % 2 ^ 32 < 2 ^ 32 := Nat.mod_lt _ (by decide)
  have hquotient : (ms * freq / 1000).toNat = ms.toNat * freq.toNat % 2 ^ 32 / 1000 := by
    rw [BitVec.toNat_udiv, hproduct]
    rfl
  have hremainder : (ms * freq % 1000).toNat = ms.toNat * freq.toNat % 2 ^ 32 % 1000 := by
    rw [BitVec.toNat_umod, hproduct]
    rfl
  rw [sysMsleep, ms2tick, if_neg (Word.ne_zero_of_pos hms), if_pos (Word.ne_zero_of_pos hfreq)]
  generalize ms.toNat * freq.toNat % 2 ^ 32 = p at *
  by_cases hexact : ms * freq % 1000 = 0
  · rw [hexact] at hremainder
    have hzero : p % 1000 = 0 := hremainder.symm
    have hdown : (ms * freq / 1000 + 0).toNat = p / 1000 := by
      rw [BitVec.toNat_add, hquotient]
      exact Nat.mod_eq_of_lt (by change p / 1000 + 0 < 2 ^ 32; omega)
    simp only [hexact, ne_eq, not_true, if_false, hdown]
    omega
  · have hrest : p % 1000 ≠ 0 := fun hzero => hexact (BitVec.eq_of_toNat_eq (hremainder.trans hzero))
    have hup : (ms * freq / 1000 + 1).toNat = p / 1000 + 1 := by
      rw [BitVec.toNat_add, hquotient]
      exact Nat.mod_eq_of_lt (by change p / 1000 + 1 < 2 ^ 32; omega)
    simp only [ne_eq, hexact, not_false_eq_true, if_true, hup]
    omega

theorem waitsLong_iff (h : freq.toNat ≠ 1000) (hfreq : 0 < freq.toNat) (hms : 0 < ms.toNat) :
    WaitsLong freq ms ↔ ms.toNat * freq.toNat < 2 ^ 32 := by
  obtain ⟨hlow, hhigh⟩ := sysMsleep_bounds hfreq hms
  rw [WaitsLong, sysInit_of_ne h]
  constructor
  · rintro ⟨hlong, -⟩
    by_contra hbig
    have hdrop := Nat.div_add_mod (ms.toNat * freq.toNat) (2 ^ 32)
    have hwrapped : 1 ≤ ms.toNat * freq.toNat / 2 ^ 32 := by omega
    omega
  · intro hfits
    rw [Nat.mod_eq_of_lt hfits] at hlow hhigh
    refine ⟨hlow, fun hforever => ?_⟩
    rw [hforever] at hhigh
    have hvalue : osWaitForever.toNat = 4294967295 := rfl
    omega

/-- When time is kept between two readings, and when a wait is long enough. -/
theorem time_base_iff (hticks : 1000 * ticks < 2 ^ 32 * freq.toNat) (hms : 0 < ms.toNat) :
    (KeepsTime freq tickCount ticks ↔
      freq.toNat = 1000 ∨ Kept (2 ^ 32) freq.toNat (product tickCount.toNat)
        (product (tickCount + BitVec.ofNat 32 ticks).toNat) (wraps tickCount ticks)) ∧
    (WaitsLong freq ms ↔
      if freq.toNat = 1000 then ms ≠ osWaitForever else ms.toNat * freq.toNat < 2 ^ 32) := by
  by_cases h : freq.toNat = 1000
  · refine ⟨iff_of_true (keepsTime_thousand h hticks) (Or.inl h), ?_⟩
    rw [if_pos h]
    exact waitsLong_thousand h hms
  · rw [or_iff_right h, if_neg h]
    exact ⟨keepsTime_iff h hticks, waitsLong_iff h (by omega) hms⟩

/-- A tick of 10 ms, half a day after the start: the product wraps. -/
theorem time_base_iff_hundred :
    (KeepsTime 100#32 4294960#32 10 ↔
      (100#32).toNat = 1000 ∨ Kept (2 ^ 32) (100#32).toNat (product (4294960#32).toNat)
        (product (4294960#32 + BitVec.ofNat 32 10).toNat) (wraps 4294960#32 10)) ∧
    (WaitsLong 100#32 50#32 ↔
      if (100#32).toNat = 1000 then 50#32 ≠ osWaitForever
      else (50#32).toNat * (100#32).toNat < 2 ^ 32) :=
  time_base_iff (by decide) (by decide)

/-- The 100 ms between these readings are told as 1181 hours. -/
theorem hundred_not_kept :
    ¬ ∀ (freq tickCount ms : BitVec 32) (ticks : ℕ), 1000 * ticks < 2 ^ 32 * freq.toNat →
      0 < ms.toNat → KeepsTime freq tickCount ticks ∧ WaitsLong freq ms := by
  intro h
  have hkeeps := (h 100#32 4294960#32 1#32 10 (by decide) (by decide)).1
  unfold KeepsTime Near at hkeeps
  revert hkeeps
  decide

end OpenIotSdk.Lwip.SysArch
