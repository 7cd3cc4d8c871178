import OpenIotSdk.Library.Words
import OpenIotSdk.Model.MemoryManager.Heap
import OpenIotSdk.Verification.MemoryManager.Integrity

/-! # The bounds of an allocation

The size that is asked for and the alignment are added in 32 bits. Where the sum fits, the words are
the numbers of the other model. -/

namespace OpenIotSdk.MemoryManager.Heap

variable {size align address : BitVec 32} {header memory : Malloc} {live : List Block}

def Block.region (b : Block) : Region := ⟨b.address.toNat, b.size.toNat⟩

/-- Where the data can be. -/
def PrivMemoryBuf.payload (b : PrivMemoryBuf) : Region := ⟨b.data.toNat, b.capacity.toNat⟩

/-- A buffer lies in the memory that was allocated for it; without one nothing is left. -/
inductive InBounds (size align : BitVec 32) (live : List Block) :
    Option PrivMemoryBuf × List Block → Prop where
  | null : InBounds size align live (none, live)
  | buffer {b : PrivMemoryBuf} {block header : Block} : b.capacity = size →
      (0 < align.toNat → align.toNat ∣ b.data.toNat) → block.address = b.allocatedMemory →
      b.payload.Within block.region → InBounds size align live (some b, block :: header :: live)

/-! ## Words and numbers -/

theorem dvd_alignedData {a : ℕ} (h : 0 < a) (memory : ℕ) :
    a ∣ MemoryManager.alignedData memory a := by
  have hmod := Nat.mod_lt memory h
  rw [MemoryManager.alignedData, if_neg h.ne']
  dsimp only
  split
  · next hzero => exact Nat.dvd_of_mod_eq_zero hzero
  · rw [if_neg (by omega)]
    exact Region.dvd_add_sub_mod h memory

theorem toNat_alignedData (h : address.toNat + align.toNat ≤ 2 ^ 32) :
    (alignedData address align).toNat =
      MemoryManager.alignedData address.toNat align.toNat := by
  rcases Nat.eq_zero_or_pos align.toNat with hzero | hpos
  · have halign : align = 0 := BitVec.eq_of_toNat_eq hzero
    simp [alignedData, MemoryManager.alignedData, halign]
  · have hmod := Nat.mod_lt address.toNat hpos
    have hremainder : (address % align).toNat = address.toNat % align.toNat := BitVec.toNat_umod
    rw [alignedData, MemoryManager.alignedData, if_neg (Word.ne_zero_of_pos hpos), if_neg hpos.ne']
    dsimp only
    by_cases hnone : address % align = 0
    · rw [hnone] at hremainder
      have hzero : address.toNat % align.toNat = 0 := hremainder.symm
      rw [if_pos hnone, if_pos hzero]
    · have hsome : address.toNat % align.toNat ≠ 0 :=
        fun heq => hnone (BitVec.eq_of_toNat_eq (hremainder.trans heq))
      have hoffset : (align - address % align).toNat =
          align.toNat - address.toNat % align.toNat := by
        bv_omega
      have hless : ¬ align ≤ align - address % align := by
        rw [BitVec.le_def, hoffset]
        omega
      rw [if_neg hnone, if_neg hsome, if_neg hless, if_neg (by omega), BitVec.toNat_add, hoffset,
        Nat.mod_eq_of_lt (by omega)]

/-- The values of a buffer, with the size of its block. -/
def PrivMemoryBuf.values (b : PrivMemoryBuf) (block : Block) : MemoryManager.PrivMemoryBuf where
  allocatedMemory := b.allocatedMemory.toNat
  allocatedSize := block.size.toNat
  data := b.data.toNat
  capacity := b.capacity.toNat
  length := b.length.toNat

/-! ## Both blocks are found -/

theorem allocFromHeap_eq {buf : BitVec 32} (hsize : 0 < size.toNat)
    (hbuf : header.answer sizeofPrivMemoryBuf = some buf)
    (hmemory : memory.answer (size + align) = some address) :
    allocFromHeap header memory size align live =
      (some ⟨address, alignedData address align, size, size⟩,
        ⟨address, size + align⟩ :: ⟨buf, sizeofPrivMemoryBuf⟩ :: live) := by
  have hne : size ≠ 0 := Word.ne_zero_of_pos hsize
  simp only [allocFromHeap, hne, if_false, hbuf, hmemory]

/-- With a sum that fits, the buffer is the one of the other model. -/
theorem values_allocFromHeap (hsize : 0 < size.toNat) (hsum : size.toNat + align.toNat < 2 ^ 32)
    (hfits : address.toNat + (size + align).toNat ≤ 2 ^ 32) :
    MemoryManager.allocFromHeap address.toNat size.toNat align.toNat =
      some (PrivMemoryBuf.values ⟨address, alignedData address align, size, size⟩
        ⟨address, size + align⟩) := by
  have hblock : (size + align).toNat = size.toNat + align.toNat := by
    rw [BitVec.toNat_add, Nat.mod_eq_of_lt hsum]
  rw [hblock] at hfits
  rw [MemoryManager.allocFromHeap, if_neg hsize.ne', PrivMemoryBuf.values,
    toNat_alignedData (by omega), hblock, Nat.mod_eq_of_lt hsum, Nat.mod_eq_of_lt (by omega)]

theorem not_within {data : ℕ} (hsum : ¬ size.toNat + align.toNat < 2 ^ 32) :
    ¬ Region.Within ⟨data, size.toNat⟩ ⟨address.toNat, (size + align).toNat⟩ := by
  have hblock : (size + align).toNat < size.toNat := by bv_omega
  rintro ⟨hlow, hhigh⟩
  dsimp only at hlow hhigh
  omega

/-! ## Allocation -/

/-- The bounds hold where an allocation fails, or where the sum fits. -/
theorem allocFromHeap_inBounds_iff (header memory : Malloc) (align : BitVec 32) (live : List Block)
    (hsize : 0 < size.toNat) :
    InBounds size align live (allocFromHeap header memory size align live) ↔
      header.answer sizeofPrivMemoryBuf = none ∨ memory.answer (size + align) = none ∨
        size.toNat + align.toNat < 2 ^ 32 := by
  have hne : size ≠ 0 := Word.ne_zero_of_pos hsize
  cases hbuf : header.answer sizeofPrivMemoryBuf with
  | none =>
      refine iff_of_true ?_ (Or.inl rfl)
      simp only [allocFromHeap, hne, if_false, hbuf]
      exact .null
  | some buf =>
      cases hmemory : memory.answer (size + align) with
      | none =>
          refine iff_of_true ?_ (Or.inr (Or.inl rfl))
          simp only [allocFromHeap, hne, if_false, hbuf, hmemory, List.erase_cons_head]
          exact .null
      | some address =>
          rw [allocFromHeap_eq hsize hbuf hmemory]
          simp only [reduceCtorEq, false_or]
          constructor
          · intro h
            by_contra hsum
            cases h with
            | buffer _ _ _ hwithin => exact not_within hsum hwithin
          · intro hsum
            have hfits := memory.fits _ _ hmemory
            have hblock : (size + align).toNat = size.toNat + align.toNat := by
              rw [BitVec.toNat_add, Nat.mod_eq_of_lt hsum]
            refine .buffer rfl (fun hpos => ?_) rfl ?_
            · change align.toNat ∣ (alignedData address align).toNat
              rw [toNat_alignedData (by omega)]
              exact dvd_alignedData hpos _
            · have hsound := (allocFromHeap_sound (values_allocFromHeap hsize hsum hfits) hsum).1
              exact hsound.payload

/-- A heap that finds a block at this address as long as it fits. -/
def mallocAt (address : BitVec 32) : Malloc where
  answer size := if address.toNat + size.toNat ≤ 2 ^ 32 then some address else none
  fits := by
    intro size address h
    obtain ⟨hfits, heq⟩ := Option.ite_none_right_eq_some.mp h
    cases heq
    exact hfits

theorem allocFromHeap_inBounds_iff_wrapped :
    InBounds 0xFFFFFFF9#32 8#32 []
        (allocFromHeap (mallocAt 4096#32) (mallocAt 8192#32) 0xFFFFFFF9#32 8#32 []) ↔
      (mallocAt 4096#32).answer sizeofPrivMemoryBuf = none ∨
        (mallocAt 8192#32).answer (0xFFFFFFF9#32 + 8#32) = none ∨
        (0xFFFFFFF9#32).toNat + (8#32).toNat < 2 ^ 32 :=
  allocFromHeap_inBounds_iff (mallocAt 4096#32) (mallocAt 8192#32) 8#32 [] (by decide)

/-- One byte is allocated, for a buffer that claims nearly all the memory. -/
theorem wrapped_not_inBounds :
    ¬ ∀ (header memory : Malloc) (size align : BitVec 32) (live : List Block), 0 < size.toNat →
      InBounds size align live (allocFromHeap header memory size align live) := by
  intro h
  have hbounds := h (mallocAt 4096#32) (mallocAt 8192#32) 0xFFFFFFF9#32 8#32 [] (by decide)
  have heq : allocFromHeap (mallocAt 4096#32) (mallocAt 8192#32) 0xFFFFFFF9#32 8#32 [] =
      (some ⟨8192#32, 8192#32, 0xFFFFFFF9#32, 0xFFFFFFF9#32⟩,
        [⟨8192#32, 1#32⟩, ⟨4096#32, 16#32⟩]) := by
    decide
  rw [heq] at hbounds
  cases hbounds with
  | buffer _ _ _ hwithin => exact absurd hwithin.2 (by decide)

end OpenIotSdk.MemoryManager.Heap
