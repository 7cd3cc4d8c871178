import OpenIotSdk.Library.Splice
import OpenIotSdk.Library.Transition
import OpenIotSdk.Model.Littlefs
import Mathlib.Algebra.BigOperators.Ring.List

/-! # The blocks of the littlefs example

Below the callbacks lie two blocks of their own: the callbacks on the flash do to them what they
would do to a pair of lists, and nothing to the rest of the flash. -/

namespace OpenIotSdk.Littlefs

open Transition

variable {flash : Flash} {config : Config}

/-! ## The specification -/

/-- Two blocks, and what the calls on them were answered. -/
structure Blocks where
  block : Bool → List Byte -- the second one of `true`
  answers : List Answer

def Config.base (config : Config) (second : Bool) : ℕ :=
  config.flashAddr.toNat + if second then config.blockSize.toNat else 0

def State.blocks (config : Config) (s : State) : Blocks where
  block := fun second => s.memory.load (config.base second) config.blockSize.toNat
  answers := s.answers

def Config.device (config : Config) : Region := ⟨config.base false, 2 * config.blockSize.toNat⟩

/-! ## The sectors -/

theorem sectorAt_append (front : List ℕ) {size off : ℕ} (rest : List ℕ) (h : off < size) :
    sectorAt (front ++ size :: rest) (front.sum + off) = some (front.sum, size) := by
  induction front with
  | nil => simp [sectorAt, h]
  | cons first front ih =>
      rw [List.cons_append, sectorAt, List.sum_cons, if_neg (by omega), Nat.add_assoc,
        Nat.add_sub_cancel_left, ih]
      rfl

structure Last (flash : Flash) (config : Config) (front : List ℕ) : Prop where
  sectors : flash.layout.sectors = front ++ [config.blockSize.toNat, config.blockSize.toNat]
  flashAddr : config.flashAddr.toNat = flash.layout.start + front.sum
  fits : flash.layout.start + front.sum + 2 * config.blockSize.toNat ≤ 2 ^ 32
  positive : 0 < config.blockSize.toNat
  page : config.progSize.toNat = flash.layout.page

theorem sector_of_sectors {layout : Layout} {front rest : List ℕ} {size off : ℕ}
    {addr : BitVec 32} (hsectors : layout.sectors = front ++ size :: rest) (hoff : off < size)
    (haddr : addr.toNat = layout.start + front.sum + off) :
    layout.sector addr = some ⟨layout.start + front.sum, size⟩ := by
  rw [Layout.sector, if_pos (by omega), haddr, Nat.add_assoc, Nat.add_sub_cancel_left, hsectors,
    sectorAt_append front rest hoff]
  rfl

section Callbacks

variable {front : List ℕ} {m : Memory Byte} {block off : BitVec 32}

theorem base_eq (hblock : block.toNat < 2) :
    config.base (block == 1) = config.flashAddr.toNat + block.toNat * config.blockSize.toNat := by
  obtain hzero | hone : block.toNat = 0 ∨ block.toNat = 1 := by omega
  · obtain rfl : block = 0 := BitVec.eq_of_toNat_eq hzero
    simp [Config.base]
  · obtain rfl : block = 1 := BitVec.eq_of_toNat_eq hone
    simp [Config.base]

theorem Last.toFlashAddr (h : Last flash config front) (hblock : block.toNat < 2)
    (hoff : off.toNat < config.blockSize.toNat) :
    (config.toFlashAddr block off).toNat = config.base (block == 1) + off.toNat := by
  have hfits := h.fits
  have haddr := h.flashAddr
  have hle : block.toNat * config.blockSize.toNat ≤ config.blockSize.toNat :=
    (Nat.mul_le_mul_right _ (by omega)).trans (Nat.one_mul _).le
  have hprod : (block * config.blockSize).toNat = block.toNat * config.blockSize.toNat :=
    BitVec.toNat_mul_of_lt (by omega)
  have hfirst : (config.flashAddr + block * config.blockSize).toNat =
      config.flashAddr.toNat + block.toNat * config.blockSize.toNat := by
    rw [BitVec.toNat_add_of_lt (by omega), hprod]
  rw [base_eq hblock, Config.toFlashAddr, BitVec.toNat_add_of_lt (by omega), hfirst]

theorem Last.sector (h : Last flash config front) (hblock : block.toNat < 2) :
    flash.layout.sector (config.toFlashAddr block 0) =
      some ⟨config.base (block == 1), config.blockSize.toNat⟩ := by
  have haddr : (config.toFlashAddr block 0).toNat = config.base (block == 1) :=
    h.toFlashAddr hblock h.positive
  have hbase := h.flashAddr
  rw [Config.base] at haddr ⊢
  cases hsecond : block == 1 with
  | false =>
      rw [hsecond] at haddr
      simp only [Bool.false_eq_true, if_false, Nat.add_zero] at haddr ⊢
      rw [sector_of_sectors h.sectors h.positive (by omega), hbase]
  | true =>
      rw [hsecond] at haddr
      simp only [if_true] at haddr ⊢
      have hsplit : flash.layout.sectors =
          (front ++ [config.blockSize.toNat]) ++ config.blockSize.toNat :: [] := by
        simp [h.sectors]
      have hsum : (front ++ [config.blockSize.toNat]).sum =
          front.sum + config.blockSize.toNat := by simp
      rw [sector_of_sectors hsplit h.positive (by omega), hbase, hsum, Nat.add_assoc]

end Callbacks

/-! ## Every call -/

variable {front : List ℕ} {s t : State} {call : Call}

end OpenIotSdk.Littlefs
