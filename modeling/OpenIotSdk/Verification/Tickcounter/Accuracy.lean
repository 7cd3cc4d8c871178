import OpenIotSdk.Library.WrappingCounter
import OpenIotSdk.Model.Azure.Tickcounter
import Mathlib.Algebra.Order.Ring.Nat
import Mathlib.Data.Nat.ModEq

/-! # What the tick counter loses

Each reading drops the part of a millisecond that has passed since the one before. -/

namespace OpenIotSdk.Azure.TickCounterInstance

open WrappingCounter

variable {c : TickCounterInstance} {freq : TickFreq} {start elapsed gap : ℕ}

/-- Each reading is the time since the creation, in full milliseconds. -/
def Accurate (freq : TickFreq) (start : ℕ) (gaps : List ℕ) : Prop :=
  (tickcounterCreate (BitVec.ofNat 32 start)).readings freq (instants start gaps) =
    (instants 0 gaps).map fun elapsed => elapsed * 1000 / freq.hz

/-- What the readings drop does not make a millisecond, and the milliseconds fit. -/
def Lossless (freq : TickFreq) (gaps : List ℕ) : Prop :=
  (gaps.map fun gap => gap * 1000 % freq.hz).sum < freq.hz ∧ gaps.sum * 1000 / freq.hz < 2 ^ 64

/-- The last reading was accurate. -/
structure Shows (c : TickCounterInstance) (freq : TickFreq) (start elapsed : ℕ) : Prop where
  previous : c.previousTickCount = BitVec.ofNat 32 (start + elapsed)
  current : c.currentMs.toNat = elapsed * 1000 / freq.hz

theorem shows_create (freq : TickFreq) (start : ℕ) :
    (tickcounterCreate (BitVec.ofNat 32 start)).Shows freq start 0 :=
  ⟨rfl, by simp [tickcounterCreate]⟩

theorem Shows.toNat_currentMs (h : c.Shows freq start elapsed) (hgap : gap < 2 ^ 32) :
    (c.tickcounterGetCurrentMs freq (BitVec.ofNat 32 (start + elapsed + gap))).2.toNat =
      (elapsed * 1000 / freq.hz + gap * 1000 / freq.hz) % 2 ^ 64 := by
  dsimp only [tickcounterGetCurrentMs]
  rw [h.previous, ofNat_sub_ofNat 32 (Nat.le_add_right _ gap), Nat.add_sub_cancel_left,
    BitVec.toNat_add, BitVec.toNat_ofNat, BitVec.toNat_ofNat, Nat.mod_eq_of_lt hgap, h.current,
    Nat.add_mod_mod]

theorem Shows.accurate_iff (h : c.Shows freq start elapsed) (hgap : gap < 2 ^ 32) :
    (c.tickcounterGetCurrentMs freq (BitVec.ofNat 32 (start + elapsed + gap))).2.toNat =
        (elapsed + gap) * 1000 / freq.hz ↔
      elapsed * 1000 % freq.hz + gap * 1000 % freq.hz < freq.hz ∧
        (elapsed + gap) * 1000 / freq.hz < 2 ^ 64 := by
  have hsum := Nat.add_div (a := elapsed * 1000) (b := gap * 1000) freq.pos
  rw [← Nat.add_mul] at hsum
  rw [h.toNat_currentMs hgap]
  constructor
  · intro heq
    have hfits : (elapsed + gap) * 1000 / freq.hz < 2 ^ 64 := by
      rw [← heq]
      exact Nat.mod_lt _ (by decide)
    refine ⟨?_, hfits⟩
    by_contra hcarry
    rw [if_pos (not_lt.mp hcarry)] at hsum
    rw [Nat.mod_eq_of_lt (by omega)] at heq
    omega
  · rintro ⟨hcarry, hfits⟩
    rw [if_neg hcarry.not_ge, Nat.add_zero] at hsum
    rw [← hsum]
    exact Nat.mod_eq_of_lt hfits

theorem Shows.readings_iff (h : c.Shows freq start elapsed)
    (hfits : elapsed * 1000 / freq.hz < 2 ^ 64) (gaps : List ℕ)
    (hgaps : ∀ gap ∈ gaps, gap < 2 ^ 32) :
    c.readings freq (instants (start + elapsed) gaps) =
        (instants elapsed gaps).map (fun elapsed => elapsed * 1000 / freq.hz) ↔
      elapsed * 1000 % freq.hz + (gaps.map fun gap => gap * 1000 % freq.hz).sum < freq.hz ∧
        (elapsed + gaps.sum) * 1000 / freq.hz < 2 ^ 64 := by
  induction gaps generalizing c elapsed with
  | nil => exact iff_of_true rfl ⟨Nat.mod_lt _ freq.pos, hfits⟩
  | cons gap gaps ih =>
      have hgap := hgaps gap List.mem_cons_self
      have hhead := h.accurate_iff hgap
      -- After an accurate reading, what has been dropped is the remainder of the whole.
      have htail : elapsed * 1000 % freq.hz + gap * 1000 % freq.hz < freq.hz ∧
          (elapsed + gap) * 1000 / freq.hz < 2 ^ 64 →
          ((c.tickcounterGetCurrentMs freq (BitVec.ofNat 32 (start + elapsed + gap))).1.readings
              freq (instants (start + elapsed + gap) gaps) =
            (instants (elapsed + gap) gaps).map (fun elapsed => elapsed * 1000 / freq.hz) ↔
          elapsed * 1000 % freq.hz + gap * 1000 % freq.hz +
              (gaps.map fun gap => gap * 1000 % freq.hz).sum < freq.hz ∧
            (elapsed + gap + gaps.sum) * 1000 / freq.hz < 2 ^ 64) := by
        rintro ⟨hcarry, hfits'⟩
        have hshows : (c.tickcounterGetCurrentMs freq
            (BitVec.ofNat 32 (start + elapsed + gap))).1.Shows freq start (elapsed + gap) :=
          ⟨congrArg (BitVec.ofNat 32) (Nat.add_assoc start elapsed gap),
            hhead.mpr ⟨hcarry, hfits'⟩⟩
        have hrest := ih hshows hfits' fun g hg => hgaps g (List.mem_cons_of_mem gap hg)
        rw [Nat.add_mul elapsed, Nat.add_mod_of_add_mod_lt hcarry] at hrest
        rw [← Nat.add_assoc start] at hrest
        exact hrest
      dsimp only [readings, instants]
      rw [List.map_cons, List.cons.injEq, List.map_cons, List.sum_cons, List.sum_cons,
        ← Nat.add_assoc, ← Nat.add_assoc, hhead]
      constructor
      · rintro ⟨hok, hrest⟩
        exact (htail hok).mp hrest
      · rintro ⟨hcarry, htotal⟩
        have hok : elapsed * 1000 % freq.hz + gap * 1000 % freq.hz < freq.hz ∧
            (elapsed + gap) * 1000 / freq.hz < 2 ^ 64 := by
          refine ⟨(Nat.le_add_right _ _).trans_lt hcarry, lt_of_le_of_lt ?_ htotal⟩
          exact Nat.div_le_div_right (Nat.mul_le_mul_right 1000 (Nat.le_add_right _ _))
        exact ⟨hok, (htail hok).mpr ⟨hcarry, htotal⟩⟩

/-- For every frequency and every schedule of readings: all readings are accurate exactly if what
they drop together does not make a millisecond, and the milliseconds fit. -/
theorem accurate_iff_lossless (freq : TickFreq) (start : ℕ) (gaps : List ℕ)
    (hgaps : ∀ gap ∈ gaps, gap < 2 ^ 32) : Accurate freq start gaps ↔ Lossless freq gaps := by
  have hreadings := (shows_create freq start).readings_iff (by simp) gaps hgaps
  simpa [Accurate, Lossless] using hreadings

/-- At a frequency of 1000, nothing is dropped. -/
theorem accurate_thousand : Accurate ⟨1000, by decide⟩ 4294967295 [1, 2] :=
  (accurate_iff_lossless _ _ _ (by decide)).mpr ⟨by decide, by decide⟩

/-- Three readings in a second of three ticks come to 999 milliseconds. -/
theorem threeTicks_not_accurate :
    ¬ ∀ (freq : TickFreq) (start : ℕ) (gaps : List ℕ), (∀ gap ∈ gaps, gap < 2 ^ 32) →
      Accurate freq start gaps := by
  intro h
  have hthree := h ⟨3, by decide⟩ 0 [1, 1, 1] (by decide)
  dsimp only [Accurate] at hthree
  exact absurd hthree (by decide)

end OpenIotSdk.Azure.TickCounterInstance
