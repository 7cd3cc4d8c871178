import OpenIotSdk.Verification.Lwip.PoolAllocation

/-! # The payload length of a chain

`lwip_mm_set_payload_len` stores the whole length in the first pbuf. What is in the pbufs behind it
is counted on top. -/

namespace OpenIotSdk.Lwip.MemoryManager

inductive Returned (bufSize : BitVec 32) (chain : List Pbuf) : Prop where
  | heap (heap : PbufHeap) (size align : BitVec 32) :
      allocFromHeap heap size align = some chain → Returned bufSize chain
  | pool (pool : PbufPool bufSize) (size align : BitVec 32) :
      allocFromStaticPool pool size align = some chain → Returned bufSize chain

structure PayloadSet (before after : List Pbuf) (size : BitVec 32) : Prop where
  consistent : Consistent after
  shorter : List.Forall₂ (fun p q => q.len.toNat ≤ p.len.toNat) before after
  length : getPayloadLen after = size

variable {bufSize size : BitVec 32} {chain next : List Pbuf} {p : Pbuf}

/-! ## Empty pbufs -/

theorem lengths_sum_eq_zero_iff : (lengths chain).sum = 0 ↔ ∀ p ∈ chain, p.len = 0 := by
  induction chain with
  | nil => simp [lengths]
  | cons p chain ih =>
      have hsum : (lengths (p :: chain)).sum = p.len.toNat + (lengths chain).sum := rfl
      have hzero : p.len.toNat = 0 ↔ p.len = 0 := by
        rw [← BitVec.toNat_inj]
        rfl
      rw [hsum, Nat.add_eq_zero_iff, ih, hzero, List.forall_mem_cons]

def HeadTotal : List Pbuf → Prop
  | [] => False
  | p :: next => (lengths next).sum = 0 → p.totLen = p.len

theorem setTotalLen_headTotal (h : chain ≠ []) : HeadTotal (setTotalLen chain) := by
  obtain ⟨p, next, rfl⟩ := List.exists_cons_of_ne_nil h
  cases next with
  | nil => exact fun _ => rfl
  | cons q next =>
      intro hsum
      have hempty : (lengths (q :: next)).sum = 0 := by
        have hlengths : lengths (setTotalLens (q :: next)) = lengths (q :: next) :=
          setTotalLens_map _ (fun _ _ => rfl) _
        rw [← hlengths]
        exact hsum
      have hword : (p.len.setWidth 32).toNat = p.len.toNat := by bv_omega
      have htail : (addTailing (p.len.setWidth 32) (q :: next)).toNat = p.len.toNat := by
        rw [addTailing_toNat (by rw [hempty]; omega), hempty, hword, Nat.add_zero]
      change (addTailing (p.len.setWidth 32) (q :: next)).setWidth 16 = p.len
      apply BitVec.eq_of_toNat_eq
      rw [BitVec.toNat_setWidth, htail, Nat.mod_eq_of_lt p.len.isLt]

theorem alignMemory_headTotal (align : BitVec 32) (h : HeadTotal chain) :
    HeadTotal (alignMemory chain align) := by
  unfold alignMemory
  split
  · exact h
  · apply setTotalLen_headTotal
    cases chain with
    | nil => exact h.elim
    | cons p next => exact List.cons_ne_nil _ _

theorem Filled.headTotal {whole n : ℕ} (h : Filled whole n chain) : HeadTotal chain := by
  have hconsistent := h.consistent
  cases chain with
  | nil => exact absurd rfl h.ne_nil
  | cons p next =>
      intro hsum
      have htotal : p.totLen.toNat = p.len.toNat + (lengths next).sum := hconsistent.1
      apply BitVec.eq_of_toNat_eq
      omega

theorem Returned.headTotal (h : Returned bufSize chain) : HeadTotal chain := by
  cases h with
  | heap heap size align halloc =>
      obtain ⟨p, hp, rfl⟩ := Option.map_eq_some_iff.mp halloc
      obtain ⟨hlen, htotal⟩ := heap.filled _ _ hp
      exact alignMemory_headTotal align fun _ => htotal.trans hlen.symm
  | pool pool size align halloc =>
      obtain ⟨before, hbefore, rfl⟩ := Option.map_eq_some_iff.mp halloc
      exact alignMemory_headTotal align (pool.filled _ _ hbefore).headTotal

/-! ## `lwip_mm_set_payload_len` -/

/-- What is read back has the lengths of the other pbufs in it. -/
theorem lengths_setPayloadLen (p : Pbuf) (next : List Pbuf) (h : size.toNat < 2 ^ 16) :
    lengths (setPayloadLen (p :: next) size) = size.toNat :: lengths next := by
  have hword : (size.setWidth 16).toNat = size.toNat := by
    rw [BitVec.toNat_setWidth, Nat.mod_eq_of_lt h]
  rw [setPayloadLen, lengths_setTotalLen, lengths, List.map_cons, hword]
  rfl

theorem PayloadSet.rest (h : PayloadSet (p :: next) (setPayloadLen (p :: next) size) size)
    (hsize : size.toNat < 2 ^ 16) : (lengths next).sum = 0 := by
  have hlengths := lengths_setPayloadLen p next hsize
  have hlength := h.length
  cases hafter : setPayloadLen (p :: next) size with
  | nil =>
      rw [hafter] at hlengths
      cases hlengths
  | cons head tail =>
      rw [hafter] at hlengths hlength
      have htotal := (hafter ▸ h.consistent).1
      rw [hlengths, List.sum_cons] at htotal
      have hread : head.totLen.toNat = size.toNat := by
        rw [← hlength, getPayloadLen, BitVec.toNat_setWidth]
        omega
      omega

theorem payloadSet_of_rest (hrest : (lengths next).sum = 0) (hsize : size.toNat ≤ p.len.toNat) :
    PayloadSet (p :: next) (setPayloadLen (p :: next) size) size := by
  have hfits : size.toNat < 2 ^ 16 := by omega
  have hlengths := lengths_setPayloadLen p next hfits
  have hsum : (lengths (setPayloadLen (p :: next) size)).sum = size.toNat := by
    rw [hlengths, List.sum_cons, hrest, Nat.add_zero]
  have hconsistent : Consistent (setPayloadLen (p :: next) size) := by
    apply setTotalLen_consistent
    rw [setPayloadLen, lengths_setTotalLen] at hsum
    omega
  refine ⟨hconsistent, ?_, ?_⟩
  · have hlens : List.Forall₂ (fun n m => m ≤ n) (lengths (p :: next))
        (lengths (setPayloadLen (p :: next) size)) := by
      rw [hlengths]
      exact .cons hsize (List.forall₂_same.mpr fun n _ => le_refl n)
    rwa [lengths, lengths, List.forall₂_map_left_iff, List.forall₂_map_right_iff] at hlens
  · cases hafter : setPayloadLen (p :: next) size with
    | nil =>
        rw [hafter] at hlengths
        cases hlengths
    | cons head tail =>
        rw [hafter] at hsum hconsistent
        apply BitVec.eq_of_toNat_eq
        rw [getPayloadLen, BitVec.toNat_setWidth, hconsistent.1, hsum]
        omega

/-- The length is set where the first pbuf holds all the data of the chain. -/
theorem setPayloadLen_set_iff (h : Returned bufSize chain)
    (hsize : size.toNat ≤ (getPayloadLen chain).toNat) :
    PayloadSet chain (setPayloadLen chain size) size ↔ ∀ q ∈ chain.tail, q.len = 0 := by
  have hhead := h.headTotal
  cases chain with
  | nil => exact hhead.elim
  | cons p next =>
      have htotal : size.toNat ≤ p.totLen.toNat := by
        rw [getPayloadLen, BitVec.toNat_setWidth] at hsize
        omega
      rw [List.tail_cons, ← lengths_sum_eq_zero_iff]
      constructor
      · intro hset
        exact hset.rest (by omega)
      · intro hrest
        apply payloadSet_of_rest hrest
        rw [← hhead hrest]
        exact htotal

/-- A chain of the pool whose total fits has something in each pbuf: it must be a single one. -/
theorem Allocated.rest_empty_iff {total align : BitVec 32} {before : List Pbuf}
    (h : Allocated bufSize total align before chain) :
    (∀ q ∈ chain.tail, q.len = 0) ↔ chain.tail = [] := by
  constructor
  · intro hempty
    apply List.eq_nil_iff_forall_not_mem.mpr
    intro q hq
    have hpos := h.nonempty q (List.mem_of_mem_tail hq)
    rw [hempty q hq] at hpos
    exact absurd hpos (by decide)
  · intro hnil q hq
    rw [hnil] at hq
    cases hq

def threeAllocated : List Pbuf := [⟨102#32, 5#16, 11#16⟩, ⟨207#32, 5#16, 6#16⟩, ⟨309#32, 1#16, 1#16⟩]

theorem threeAllocated_returned : Returned 8#32 threeAllocated :=
  .pool threePbufsPool 11#32 3#32 (by decide)

def heapAt102 : PbufHeap where
  pbufAlloc length := some ⟨102#32, length, length⟩
  filled := by
    rintro length _ ⟨⟩
    exact ⟨rfl, rfl⟩

def oneAllocated : List Pbuf := [⟨104#32, 11#16, 11#16⟩]

theorem oneAllocated_returned : Returned 8#32 oneAllocated :=
  .heap heapAt102 11#32 4#32 (by decide)

/-- The length of the chain is not set, that of the single pbuf is. -/
theorem setPayloadLen_set_iff_three :
    10 ≤ (getPayloadLen threeAllocated).toNat ∧
      (PayloadSet threeAllocated (setPayloadLen threeAllocated 10#32) 10#32 ↔
        ∀ q ∈ threeAllocated.tail, q.len = 0) ∧
      PayloadSet oneAllocated (setPayloadLen oneAllocated 10#32) 10#32 :=
  ⟨by decide, setPayloadLen_set_iff threeAllocated_returned (by decide),
    (setPayloadLen_set_iff oneAllocated_returned (by decide)).mpr (by decide)⟩

/-- Set to 10 bytes, the chain claims 16. -/
theorem threeAllocated_not_set :
    ¬ ∀ (bufSize size : BitVec 32) (chain : List Pbuf), Returned bufSize chain →
      size.toNat ≤ (getPayloadLen chain).toNat →
      PayloadSet chain (setPayloadLen chain size) size := by
  intro h
  have hset := h 8#32 10#32 threeAllocated threeAllocated_returned (by decide)
  exact absurd hset.length (by decide)

end OpenIotSdk.Lwip.MemoryManager
