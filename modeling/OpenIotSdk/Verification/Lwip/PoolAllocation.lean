import OpenIotSdk.Library.Memory
import OpenIotSdk.Library.Pieces
import OpenIotSdk.Model.Lwip.MemoryManager
import Mathlib.Data.List.Forall2

/-! # Allocation from the pool of lwIP

The padding is counted for the pbufs that the size needs without it, and taken away from each pbuf
of the chain. The two numbers of pbufs are the same. -/

namespace OpenIotSdk.Lwip.MemoryManager

/-! ## The specification -/

namespace Pbuf

/-- Where the data of a pbuf lies, and where it may lie in a new pbuf of the pool. -/
def data (p : Pbuf) : Region := ⟨p.payload.toNat, p.len.toNat⟩

def area (bufSize : BitVec 32) (p : Pbuf) : Region := ⟨p.payload.toNat, bufSize.toNat⟩

end Pbuf

def lengths (chain : List Pbuf) : List ℕ := chain.map fun p => p.len.toNat

/-- Each `tot_len` is what is in the chain from there on. -/
def Consistent : List Pbuf → Prop
  | [] => True
  | p :: next => p.totLen.toNat = (lengths (p :: next)).sum ∧ Consistent next

/-- The size and the padding for the pbufs that it needs. -/
def paddedTotal (bufSize size align : BitVec 32) : ℕ :=
  size.toNat + Pieces.count size.toNat (bufSize.toNat - align.toNat) * align.toNat

/-- What an allocation makes of the pbufs that it gets. -/
structure Allocated (bufSize size align : BitVec 32) (before after : List Pbuf) : Prop where
  total : ∃ head next, after = head :: next ∧ head.totLen.toNat = size.toNat
  consistent : Consistent after
  nonempty : ∀ p ∈ after, 0 < p.len.toNat
  aligned : 0 < align.toNat → ∀ p ∈ after, align.toNat ∣ p.payload.toNat
  inside : List.Forall₂ Region.Within (after.map Pbuf.data) (before.map (Pbuf.area bufSize))

/-! ## New pbufs -/

variable {bufSize size align : BitVec 32} {chain : List Pbuf} {p : Pbuf} {n : ℕ}

theorem Filled.cut {whole : ℕ} (h : Filled whole n chain) : Pieces.Cut whole n (lengths chain) := by
  induction h with
  | last hle hlen =>
      rw [lengths, List.map_singleton, hlen]
      exact .last hle
  | next hlt hlen _ _ _ ih =>
      rw [lengths, List.map_cons, hlen]
      exact .next hlt ih

theorem Filled.sum {whole : ℕ} (h : Filled whole n chain) : (lengths chain).sum = n := by
  induction h with
  | last _ hlen =>
      rw [lengths, List.map_singleton, List.sum_singleton, hlen]
  | next hlt hlen _ _ _ ih =>
      rw [lengths, List.map_cons, List.sum_cons, hlen]
      change _ + (lengths _).sum = _
      omega

theorem Filled.consistent {whole : ℕ} (h : Filled whole n chain) : Consistent chain := by
  induction h with
  | last hle hlen htot hfits =>
      refine ⟨?_, trivial⟩
      rw [htot, (Filled.last hle hlen htot hfits).sum]
  | next hlt hlen htot hfits hchain ih =>
      refine ⟨?_, ih⟩
      rw [htot, (Filled.next hlt hlen htot hfits hchain).sum]

theorem Filled.bound {whole : ℕ} (h : Filled whole n chain) :
    ∀ p ∈ chain, p.len.toNat ≤ whole ∧ p.payload.toNat + whole ≤ 2 ^ 32 := by
  induction h with
  | last hle hlen _ hfits =>
      intro p hp
      rw [List.mem_singleton.mp hp]
      exact ⟨hlen ▸ hle, hfits⟩
  | next _ hlen _ hfits _ ih =>
      intro p hp
      rcases List.mem_cons.mp hp with rfl | hp
      · exact ⟨hlen.le, hfits⟩
      · exact ih p hp

theorem Filled.ne_nil {whole : ℕ} (h : Filled whole n chain) : chain ≠ [] := by
  cases h with
  | last => exact List.cons_ne_nil _ _
  | next => exact List.cons_ne_nil _ _

/-! ## `set_total_len` -/

theorem addTailing_toNat {total : BitVec 32} (h : total.toNat + (lengths chain).sum < 2 ^ 32) :
    (addTailing total chain).toNat = total.toNat + (lengths chain).sum := by
  induction chain generalizing total with
  | nil => rfl
  | cons p chain ih =>
      rw [lengths, List.map_cons, List.sum_cons] at h ⊢
      change _ + (_ + (lengths chain).sum) < _ at h
      change _ = _ + (_ + (lengths chain).sum)
      have hword : (total + p.len.setWidth 32).toNat = total.toNat + p.len.toNat := by bv_omega
      rw [addTailing, ih (by omega), hword, Nat.add_assoc]

theorem setTotalLens_map {γ : Type} (f : Pbuf → γ)
    (hf : ∀ p total, f { p with totLen := total } = f p) (chain : List Pbuf) :
    (setTotalLens chain).map f = chain.map f := by
  induction chain with
  | nil => rfl
  | cons p chain ih => rw [setTotalLens, List.map_cons, List.map_cons, ih, hf]

theorem setTotalLen_map {γ : Type} (f : Pbuf → γ)
    (hf : ∀ p total, f { p with totLen := total } = f p) (chain : List Pbuf) :
    (setTotalLen chain).map f = chain.map f := by
  unfold setTotalLen
  split
  · next p => rw [List.map_singleton, List.map_singleton, hf]
  · exact setTotalLens_map f hf chain

theorem mem_setTotalLen (h : p ∈ setTotalLen chain) :
    ∃ q ∈ chain, p.payload = q.payload ∧ p.len = q.len := by
  have hmem : (p.payload, p.len) ∈ (setTotalLen chain).map fun p => (p.payload, p.len) :=
    List.mem_map_of_mem h
  rw [setTotalLen_map _ fun _ _ => rfl] at hmem
  obtain ⟨q, hq, heq⟩ := List.mem_map.mp hmem
  obtain ⟨hpayload, hlen⟩ := Prod.mk.inj heq
  exact ⟨q, hq, hpayload.symm, hlen.symm⟩

theorem lengths_setTotalLen (chain : List Pbuf) : lengths (setTotalLen chain) = lengths chain :=
  setTotalLen_map _ (fun _ _ => rfl) chain

theorem setTotalLens_consistent (h : (lengths chain).sum < 2 ^ 16) :
    Consistent (setTotalLens chain) := by
  induction chain with
  | nil => trivial
  | cons p chain ih =>
      have hsum : (lengths (p :: chain)).sum = p.len.toNat + (lengths chain).sum := rfl
      rw [hsum] at h
      refine ⟨?_, ih (by omega)⟩
      have hlengths : lengths (setTotalLens chain) = lengths chain :=
        setTotalLens_map _ (fun _ _ => rfl) chain
      have hword : (p.len.setWidth 32).toNat = p.len.toNat := by bv_omega
      have htail : (addTailing (p.len.setWidth 32) chain).toNat =
          p.len.toNat + (lengths chain).sum := by
        rw [addTailing_toNat (by omega), hword]
      change (BitVec.setWidth 16 _).toNat = p.len.toNat + (lengths (setTotalLens chain)).sum
      rw [hlengths, BitVec.toNat_setWidth, htail, Nat.mod_eq_of_lt h]

theorem setTotalLen_consistent (h : (lengths chain).sum < 2 ^ 16) :
    Consistent (setTotalLen chain) := by
  unfold setTotalLen
  split
  · next p => exact ⟨rfl, trivial⟩
  · exact setTotalLens_consistent h

/-! ## `align_memory` -/

/-- A pbuf with room for the padding gets an aligned payload within its data. -/
theorem alignPbuf_spec (halign : 0 < align.toNat) (hroom : align.toNat < p.len.toNat)
    (hfits : p.payload.toNat + p.len.toNat ≤ 2 ^ 32) :
    align.toNat ∣ (alignPbuf align p).payload.toNat ∧
      (alignPbuf align p).len.toNat = p.len.toNat - align.toNat ∧
      (alignPbuf align p).data.Within p.data := by
  have hlen : (alignPbuf align p).len.toNat = p.len.toNat - align.toNat := by
    simp only [alignPbuf]
    bv_omega
  have hmod := Nat.mod_lt p.payload.toNat halign
  have hremainder : (p.payload % align).toNat = p.payload.toNat % align.toNat :=
    BitVec.toNat_umod
  by_cases hzero : p.payload % align = 0
  · have hpayload : (alignPbuf align p).payload = p.payload := by simp [alignPbuf, hzero]
    rw [hzero] at hremainder
    refine ⟨?_, hlen, ?_⟩
    · rw [hpayload]
      exact Nat.dvd_of_mod_eq_zero hremainder.symm
    · dsimp only [Pbuf.data, Region.Within]
      rw [hpayload, hlen]
      omega
  · have hpos : (p.payload % align).toNat ≠ 0 := fun heq => hzero (BitVec.eq_of_toNat_eq heq)
    have hoffset : (align - p.payload % align).toNat = align.toNat - (p.payload % align).toNat := by
      bv_omega
    have hless : ¬ align ≤ align - p.payload % align := by
      rw [BitVec.le_def, hoffset]
      omega
    have hpayload : (alignPbuf align p).payload.toNat =
        p.payload.toNat + (align.toNat - p.payload.toNat % align.toNat) := by
      simp only [alignPbuf, ne_eq, hzero, not_false_eq_true, if_true, hless, if_false]
      rw [BitVec.toNat_add, hoffset, hremainder, Nat.mod_eq_of_lt (by omega)]
    refine ⟨?_, hlen, ?_⟩
    · rw [hpayload]
      exact Region.dvd_add_sub_mod halign _
    · dsimp only [Pbuf.data, Region.Within]
      rw [hpayload, hlen]
      omega

/-! ## The padding -/

theorem countTotalAlign_toNat (halign : align.toNat < bufSize.toNat) (hsize : 0 < size.toNat)
    (hfits : paddedTotal bufSize size align < 2 ^ 16) :
    (countTotalAlign bufSize size align).toNat =
      Pieces.count size.toNat (bufSize.toNat - align.toNat) * align.toNat := by
  have hd : (bufSize - align).toNat = bufSize.toNat - align.toNat := by bv_omega
  have hcount := Pieces.count_le (d := bufSize.toNat - align.toNat) (by omega) hsize
  have hmod : size % (bufSize - align) = 0 ↔
      size.toNat % (bufSize.toNat - align.toNat) = 0 := by
    rw [← BitVec.toNat_inj, BitVec.toNat_umod, hd]
    rfl
  have hdiv : (size / (bufSize - align)).toNat = size.toNat / (bufSize.toNat - align.toNat) := by
    rw [BitVec.toNat_udiv, hd]
  have hbuffers : (if size % (bufSize - align) ≠ 0 then size / (bufSize - align) + 1
      else size / (bufSize - align)).toNat =
        Pieces.count size.toNat (bufSize.toNat - align.toNat) := by
    rw [Pieces.count] at hcount ⊢
    by_cases hexact : size % (bufSize - align) = 0
    · rw [if_neg (not_not.mpr hexact), if_pos (hmod.mp hexact), hdiv]
    · rw [if_neg fun hzero => hexact (hmod.mpr hzero)] at hcount ⊢
      rw [if_pos hexact, BitVec.toNat_add, hdiv]
      dsimp only [paddedTotal] at hfits
      exact Nat.mod_eq_of_lt (by
        have hone : (1 : BitVec 32).toNat = 1 := rfl
        omega)
  dsimp only [countTotalAlign]
  rw [BitVec.toNat_mul, hbuffers]
  dsimp only [paddedTotal] at hfits
  exact Nat.mod_eq_of_lt (by omega)

theorem length_toNat (halign : align.toNat < bufSize.toNat) (hsize : 0 < size.toNat)
    (hfits : paddedTotal bufSize size align < 2 ^ 16) :
    ((size + countTotalAlign bufSize size align).setWidth 16).toNat =
      paddedTotal bufSize size align := by
  have hcount := countTotalAlign_toNat halign hsize hfits
  rw [BitVec.toNat_setWidth, BitVec.toNat_add, hcount]
  dsimp only [paddedTotal] at hfits ⊢
  omega

/-! ## Allocation -/

theorem Consistent.head (h : Consistent chain) (hne : chain ≠ []) :
    ∃ head next, chain = head :: next ∧ head.totLen.toNat = (lengths chain).sum := by
  obtain ⟨head, next, rfl⟩ := List.exists_cons_of_ne_nil hne
  exact ⟨head, next, rfl, h.1⟩

theorem Filled.allocated_unaligned (h : Filled bufSize.toNat size.toNat chain)
    (hpos : ∀ p ∈ chain, 0 < p.len.toNat) : Allocated bufSize size 0 chain chain := by
  obtain ⟨head, next, hchain, htotal⟩ := h.consistent.head h.ne_nil
  refine ⟨⟨head, next, hchain, htotal.trans h.sum⟩, h.consistent, hpos,
    fun halign => absurd halign (by decide), ?_⟩
  rw [List.forall₂_map_left_iff, List.forall₂_map_right_iff, List.forall₂_same]
  intro p hp
  have hbound := (h.bound p hp).1
  dsimp only [Pbuf.data, Pbuf.area, Region.Within]
  omega

theorem alignMemory_allocated (halign : 0 < align.toNat) (hne : chain ≠ [])
    (hroom : ∀ p ∈ chain, align.toNat < p.len.toNat)
    (hbound : ∀ p ∈ chain, p.len.toNat ≤ bufSize.toNat ∧
      p.payload.toNat + bufSize.toNat ≤ 2 ^ 32)
    (hsum : ((lengths chain).map (· - align.toNat)).sum = size.toNat)
    (hsize : size.toNat < 2 ^ 16) :
    Allocated bufSize size align chain (setTotalLen (chain.map (alignPbuf align))) := by
  have hfits : ∀ p ∈ chain, p.payload.toNat + p.len.toNat ≤ 2 ^ 32 := by
    intro p hp
    obtain ⟨hle, hspace⟩ := hbound p hp
    omega
  have hspec := fun p hp => alignPbuf_spec halign (hroom p hp) (hfits p hp)
  have hlengths : lengths (chain.map (alignPbuf align)) =
      (lengths chain).map (· - align.toNat) := by
    rw [lengths, lengths, List.map_map, List.map_map]
    exact List.map_congr_left fun p hp => (hspec p hp).2.1
  have hwhole : (lengths (chain.map (alignPbuf align))).sum = size.toNat := by
    rw [hlengths, hsum]
  have hconsistent := setTotalLen_consistent (show _ < 2 ^ 16 from hwhole ▸ hsize)
  have hafter : ∀ p ∈ setTotalLen (chain.map (alignPbuf align)), ∃ q ∈ chain,
      p.payload = (alignPbuf align q).payload ∧ p.len = (alignPbuf align q).len := by
    intro p hp
    obtain ⟨r, hr, hsame⟩ := mem_setTotalLen hp
    obtain ⟨q, hq, rfl⟩ := List.mem_map.mp hr
    exact ⟨q, hq, hsame⟩
  have hne' : setTotalLen (chain.map (alignPbuf align)) ≠ [] := by
    intro hnil
    have hcount := congrArg List.length (lengths_setTotalLen (chain.map (alignPbuf align)))
    rw [hnil, lengths, lengths, List.length_map, List.length_map, List.length_map] at hcount
    exact hne (List.length_eq_zero_iff.mp hcount.symm)
  obtain ⟨head, next, hcons, htotal⟩ := hconsistent.head hne'
  refine ⟨⟨head, next, hcons, ?_⟩, hconsistent, fun p hp => ?_, fun _ p hp => ?_, ?_⟩
  · rw [htotal, lengths_setTotalLen, hwhole]
  · obtain ⟨q, hq, -, hlen⟩ := hafter p hp
    have hlonger := hroom q hq
    rw [hlen, (hspec q hq).2.1]
    omega
  · obtain ⟨q, hq, hpayload, -⟩ := hafter p hp
    rw [hpayload]
    exact (hspec q hq).1
  · rw [setTotalLen_map _ fun _ _ => rfl, List.forall₂_map_left_iff, List.forall₂_map_left_iff,
      List.forall₂_map_right_iff, List.forall₂_same]
    intro q hq
    refine (hspec q hq).2.2.trans ?_
    have hle := (hbound q hq).1
    dsimp only [Pbuf.data, Pbuf.area, Region.Within]
    omega

/-- Pbufs that are filled with the size and its padding. -/
theorem Filled.allocated (halign : align.toNat < bufSize.toNat) (hsize : 0 < size.toNat)
    (hfits : paddedTotal bufSize size align < 2 ^ 16)
    (h : Filled bufSize.toNat (paddedTotal bufSize size align) chain) :
    Allocated bufSize size align chain (alignMemory chain align) := by
  have hd : 0 < bufSize.toNat - align.toNat := by omega
  obtain ⟨hlonger, hsum⟩ := h.cut.padded halign (Pieces.pred_count_mul_lt hd hsize)
    (Pieces.le_count_mul hd)
  have hroom : ∀ p ∈ chain, align.toNat < p.len.toNat :=
    fun p hp => hlonger _ (List.mem_map_of_mem hp)
  by_cases hzero : align = 0
  · subst hzero
    rw [alignMemory, if_pos rfl]
    exact h.allocated_unaligned hroom
  · have hpos : 0 < align.toNat := by
      rcases Nat.eq_zero_or_pos align.toNat with hnone | hpos
      · exact absurd (BitVec.eq_of_toNat_eq hnone) hzero
      · exact hpos
    rw [alignMemory, if_neg hzero]
    dsimp only [paddedTotal] at hfits
    exact alignMemory_allocated hpos h.ne_nil hroom h.bound hsum (by omega)

/-- Whatever pbufs `pbuf_alloc` finds for a size and an alignment whose total fits 16 bits. -/
theorem allocFromStaticPool_allocated (pool : PbufPool bufSize) (hsize : 0 < size.toNat)
    (halign : align.toNat < bufSize.toNat) (hfits : paddedTotal bufSize size align < 2 ^ 16)
    {after : List Pbuf} (h : allocFromStaticPool pool size align = some after) :
    ∃ before, pool.pbufAlloc (BitVec.ofNat 16 (paddedTotal bufSize size align)) = some before ∧
      Allocated bufSize size align before after := by
  obtain ⟨before, hbefore, rfl⟩ := Option.map_eq_some_iff.mp h
  have hlength := length_toNat halign hsize hfits
  have hfilled := pool.filled _ _ hbefore
  rw [hlength] at hfilled
  rw [← hlength, BitVec.ofNat_toNat, BitVec.setWidth_eq]
  exact ⟨before, hbefore, hfilled.allocated halign hsize hfits⟩

def threePbufs : List Pbuf :=
  [⟨101#32, 8#16, 20#16⟩, ⟨206#32, 8#16, 12#16⟩, ⟨309#32, 4#16, 4#16⟩]

theorem threePbufs_filled : Filled 8 20 threePbufs :=
  .next (by decide) rfl rfl (by decide) (.next (by decide) rfl rfl (by decide)
    (.last (by decide) rfl rfl (by decide)))

def threePbufsPool : PbufPool 8#32 where
  pbufAlloc length := if length = 20#16 then some threePbufs else none
  filled := by
    intro length chain h
    obtain ⟨rfl, hchain⟩ := Option.ite_none_right_eq_some.mp h
    cases hchain
    exact threePbufs_filled

theorem allocFromStaticPool_three :
    allocFromStaticPool threePbufsPool 11#32 3#32 =
        some [⟨102#32, 5#16, 11#16⟩, ⟨207#32, 5#16, 6#16⟩, ⟨309#32, 1#16, 1#16⟩] ∧
      ∃ before,
        threePbufsPool.pbufAlloc (BitVec.ofNat 16 (paddedTotal 8#32 11#32 3#32)) = some before ∧
        Allocated 8#32 11#32 3#32 before
          [⟨102#32, 5#16, 11#16⟩, ⟨207#32, 5#16, 6#16⟩, ⟨309#32, 1#16, 1#16⟩] := by
  have h : allocFromStaticPool threePbufsPool 11#32 3#32 =
      some [⟨102#32, 5#16, 11#16⟩, ⟨207#32, 5#16, 6#16⟩, ⟨309#32, 1#16, 1#16⟩] := by decide
  exact ⟨h, allocFromStaticPool_allocated threePbufsPool (by decide) (by decide) (by decide) h⟩

end OpenIotSdk.Lwip.MemoryManager
