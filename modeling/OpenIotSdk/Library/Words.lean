import Mathlib.Data.BitVec

/-! # The bytes of a word

Bytes are counted from the least significant one. -/

namespace Word

variable {n : ℕ}

def byte (w : BitVec n) (i : ℕ) : BitVec 8 := w.extractLsb' (8 * i) 8

/-- How a 32-bit word lies in the memory of a little-endian target. -/
def littleEndian (w : BitVec 32) : List (BitVec 8) := [byte w 0, byte w 1, byte w 2, byte w 3]

/-- The bytes of a 32-bit word in network order. -/
def bigEndian (w : BitVec 32) : List (BitVec 8) := [byte w 3, byte w 2, byte w 1, byte w 0]

theorem ne_zero_of_pos {w : BitVec n} (h : 0 < w.toNat) : w ≠ 0 := by
  rintro rfl
  simp at h

theorem getLsbD_byte (w : BitVec n) (i j : ℕ) :
    (byte w i).getLsbD j = (decide (j < 8) && w.getLsbD (8 * i + j)) :=
  BitVec.getLsbD_extractLsb' ..

@[simp] theorem byte_or (v w : BitVec n) (i : ℕ) : byte (v ||| w) i = byte v i ||| byte w i := by
  refine BitVec.eq_of_getLsbD_eq fun j hj => ?_
  simp only [getLsbD_byte, BitVec.getLsbD_or, hj, decide_true, Bool.true_and]

/-- A shift by whole bytes moves them up, and clears the lowest ones. -/
theorem byte_shiftLeft (w : BitVec n) {i : ℕ} (h : 8 * i + 8 ≤ n) (k : ℕ) :
    byte (w <<< (8 * k)) i = if i < k then 0#8 else byte w (i - k) := by
  refine BitVec.eq_of_getLsbD_eq fun j hj => ?_
  have hin : 8 * i + j < n := by omega
  rw [getLsbD_byte, BitVec.getLsbD_shiftLeft]
  split
  · have hlow : 8 * i + j < 8 * k := by omega
    simp [hlow]
  · have hhigh : ¬ 8 * i + j < 8 * k := by omega
    have hmoved : 8 * i + j - 8 * k = 8 * (i - k) + j := by omega
    simp [getLsbD_byte, hin, hhigh, hmoved]

theorem byte_ushiftRight (w : BitVec n) (i k : ℕ) : byte (w >>> (8 * k)) i = byte w (i + k) := by
  refine BitVec.eq_of_getLsbD_eq fun j _ => ?_
  have hmoved : 8 * k + (8 * i + j) = 8 * (i + k) + j := by omega
  rw [getLsbD_byte, getLsbD_byte, BitVec.getLsbD_ushiftRight, hmoved]

theorem byte_setWidth (w : BitVec n) {m i : ℕ} (h : 8 * i + 8 ≤ m) :
    byte (w.setWidth m) i = byte w i := by
  refine BitVec.eq_of_getLsbD_eq fun j hj => ?_
  have hin : 8 * i + j < m := by omega
  rw [getLsbD_byte, getLsbD_byte, BitVec.getLsbD_setWidth]
  simp [hin]

/-- A word has no bytes beyond its width. -/
theorem byte_eq_zero (w : BitVec n) {i : ℕ} (h : n ≤ 8 * i) : byte w i = 0#8 := by
  refine BitVec.eq_of_getLsbD_eq fun j _ => ?_
  rw [getLsbD_byte, BitVec.getLsbD_of_ge _ _ (by omega)]
  simp

/-- A 16-bit word is its two bytes. -/
theorem bytes_append (w : BitVec 16) :
    (byte w 1).setWidth 16 <<< 8 ||| (byte w 0).setWidth 16 = w := by
  refine BitVec.eq_of_getLsbD_eq fun j hj => ?_
  rw [BitVec.getLsbD_or, BitVec.getLsbD_shiftLeft, BitVec.getLsbD_setWidth, BitVec.getLsbD_setWidth,
    getLsbD_byte, getLsbD_byte]
  by_cases hlow : j < 8
  · simp [hlow, hj]
  · have hhigh : j - 8 < 8 := by omega
    have hword : j - 8 < 16 := by omega
    have hmoved : 8 * 1 + (j - 8) = j := by omega
    simp [hlow, hhigh, hword, hmoved, hj]

@[simp] theorem byte_zero (w : BitVec 8) : byte w 0 = w := by
  refine BitVec.eq_of_getLsbD_eq fun j hj => ?_
  rw [getLsbD_byte, Nat.mul_zero, Nat.zero_add, decide_eq_true hj, Bool.true_and]

@[simp] theorem byte_append_zero (v : BitVec n) (w : BitVec 8) : byte (v ++ w) 0 = w := by
  refine BitVec.eq_of_getLsbD_eq fun j hj => ?_
  rw [getLsbD_byte, Nat.mul_zero, Nat.zero_add, BitVec.getLsbD_append, if_pos hj, decide_eq_true hj,
    Bool.true_and]

@[simp] theorem byte_append_succ (v : BitVec n) (w : BitVec 8) (i : ℕ) :
    byte (v ++ w) (i + 1) = byte v i := by
  refine BitVec.eq_of_getLsbD_eq fun j _ => ?_
  have hhigh : ¬ 8 * (i + 1) + j < 8 := by omega
  have hmoved : 8 * (i + 1) + j - 8 = 8 * i + j := by omega
  rw [getLsbD_byte, getLsbD_byte, BitVec.getLsbD_append, if_neg hhigh, hmoved]

/-- A word with its bytes in the other order. -/
def swap (w : BitVec 32) : BitVec 32 := byte w 0 ++ byte w 1 ++ byte w 2 ++ byte w 3

theorem littleEndian_swap (w : BitVec 32) : littleEndian (swap w) = bigEndian w := by
  simp only [littleEndian, bigEndian, swap, byte_append_zero, byte_append_succ, byte_zero]

/-- The low half of one word and the high half of another one. -/
theorem bigEndian_halves (v w : BitVec 32) :
    bigEndian (v <<< 16 ||| w >>> 16) = [byte v 1, byte v 0, byte w 3, byte w 2] := by
  have hleft (i : ℕ) (hi : i < 4) : byte (v <<< 16) i = if i < 2 then 0#8 else byte v (i - 2) :=
    byte_shiftLeft v (by omega) 2
  have hright (i : ℕ) : byte (w >>> 16) i = byte w (i + 2) := byte_ushiftRight w i 2
  have hnone (i : ℕ) (hi : 4 ≤ i) : byte w i = 0#8 := byte_eq_zero w (by omega)
  simp only [bigEndian, byte_or, hright]
  rw [hleft 3 (by decide), hleft 2 (by decide), hleft 1 (by decide), hleft 0 (by decide),
    hnone 5 (by decide), hnone 4 (by decide)]
  simp

/-- The low half of a word, and 16 bits. -/
theorem bigEndian_low (v : BitVec 32) (w : BitVec 16) :
    bigEndian (v <<< 16 ||| w.setWidth 32) = [byte v 1, byte v 0, byte w 1, byte w 0] := by
  have hleft (i : ℕ) (hi : i < 4) : byte (v <<< 16) i = if i < 2 then 0#8 else byte v (i - 2) :=
    byte_shiftLeft v (by omega) 2
  have hright (i : ℕ) (hi : i < 4) : byte (w.setWidth 32) i = byte w i :=
    byte_setWidth w (by omega)
  have hnone (i : ℕ) (hi : 2 ≤ i) : byte w i = 0#8 := byte_eq_zero w (by omega)
  simp only [bigEndian, byte_or]
  rw [hleft 3 (by decide), hleft 2 (by decide), hleft 1 (by decide), hleft 0 (by decide),
    hright 3 (by decide), hright 2 (by decide), hright 1 (by decide), hright 0 (by decide),
    hnone 3 (by decide), hnone 2 (by decide)]
  simp

end Word
