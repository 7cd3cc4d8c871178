import OpenIotSdk.Verification.Netsocket.Ipv6Grammar

/-! # The texts that are printed

`ip6tos` prints the parts of an address with `::` for its longest run of zeros. On a board it cuts
a part of four digits short. -/

namespace OpenIotSdk.Netsocket

open Fields (joined)

/-- The text of eight parts, with `::` for a run of zeros or without. -/
inductive PrintsAs (size : ℕ) : List ℕ → List Byte → Prop where
  | full (parts : List ℕ) : parts.length = 8 →
      PrintsAs size parts (joined colon (parts.map (snprintfPart size)))
  | compressed (head tail : List ℕ) (k : ℕ) : 2 ≤ k → head.length + k + tail.length = 8 →
      PrintsAs size (head ++ List.replicate k 0 ++ tail)
        (joined colon (head.map (snprintfPart size)) ++
          colon :: colon :: joined colon (tail.map (snprintfPart size)))

/-! ## The longest run of zeros -/

/-- A run of two parts or more, where it starts and how long it is; or none. -/
def ZeroRun (all : List ℕ) (zero : ℕ × ℕ) : Prop :=
  zero = (255, 1) ∨ ∃ head k tail,
    2 ≤ k ∧ all = head ++ List.replicate k 0 ++ tail ∧ zero = (head.length, k)

/-- The scan is in a run from `n0` to `n`, or in none. -/
def InRun (all parts : List ℕ) (n : ℕ) : Option ℕ → Prop
  | none => ∃ head, all = head ++ parts ∧ head.length = n
  | some n0 => ∃ head k, all = head ++ List.replicate k 0 ++ parts ∧ head.length = n0 ∧ n0 + k = n

variable {all parts : List ℕ} {zero : ℕ × ℕ} {n : ℕ}

theorem ZeroRun.pos (h : ZeroRun all zero) : 1 ≤ zero.2 := by
  rcases h with rfl | ⟨head, k, tail, hk, -, rfl⟩
  · exact Nat.le_refl 1
  · exact Nat.le_of_succ_le hk

theorem longer_zeroRun {n0 : ℕ} (hzero : ZeroRun all zero) (hrun : InRun all parts n (some n0)) :
    ZeroRun all (longer n0 n zero) := by
  obtain ⟨head, k, hall, rfl, rfl⟩ := hrun
  rw [longer, Nat.add_sub_cancel_left]
  split
  · next hlonger => exact Or.inr ⟨head, k, parts, by have := hzero.pos; omega, hall, rfl⟩
  · exact hzero

theorem scanZeros_zeroRun {n0 : Option ℕ} (hzero : ZeroRun all zero)
    (hrun : InRun all parts n n0) : ZeroRun all (scanZeros zero n0 n parts) := by
  induction parts generalizing zero n0 n with
  | nil =>
      cases n0 with
      | none => exact hzero
      | some n0 => exact longer_zeroRun hzero hrun
  | cons part parts ih =>
      cases n0 with
      | none =>
          obtain ⟨head, hall, hlength⟩ := hrun
          dsimp only [scanZeros]
          by_cases hpart : part ≠ 0
          · rw [if_pos hpart]
            exact ih hzero ⟨head ++ [part], by simp [hall], by simp [hlength]⟩
          · rw [if_neg hpart]
            refine ih hzero ⟨head, 1, ?_, hlength, rfl⟩
            rw [hall, not_not.mp hpart, List.append_assoc]
            rfl
      | some n0 =>
          have hlonger := longer_zeroRun hzero hrun
          obtain ⟨head, k, hall, hlength, hn⟩ := hrun
          dsimp only [scanZeros]
          by_cases hpart : part ≠ 0
          · rw [if_pos hpart]
            refine ih hlonger ⟨head ++ List.replicate k 0 ++ [part], by simp [hall], ?_⟩
            simp only [List.length_append, List.length_replicate, List.length_singleton]
            omega
          · rw [if_neg hpart]
            refine ih hzero ⟨head, k + 1, ?_, hlength, by omega⟩
            rw [hall, not_not.mp hpart, List.replicate_succ']
            simp

theorem zeroRun_spec (parts : List ℕ) : ZeroRun parts (zeroRun parts) :=
  scanZeros_zeroRun (Or.inl rfl) ⟨[], rfl, rfl⟩

/-! ## The loop that prints -/

variable {size : ℕ}

/-- The parts behind a run of zeros, or all of them if there is none. -/
theorem printParts_rest (hlength : n + parts.length = 8) (hzero : zero.1 < n ∨ 8 ≤ zero.1) :
    printParts size zero 0 n parts = joined colon (parts.map (snprintfPart size)) ++ [0] := by
  induction parts generalizing n with
  | nil => rfl
  | cons part parts ih =>
      rw [List.length_cons] at hlength
      have hn : n ≠ zero.1 := by omega
      rw [printParts, if_neg hn, ih (by omega) (by omega)]
      cases parts with
      | nil =>
          rw [if_neg (by simp at hlength; omega)]
          rfl
      | cons part' parts =>
          rw [if_pos (by simp at hlength; omega)]
          simp [joined]

theorem printParts_skip {run rest : List ℕ} :
    printParts size zero run.length n (run ++ rest) =
      printParts size zero 0 (n + run.length) rest := by
  induction run generalizing n with
  | nil => rfl
  | cons part run ih =>
      rw [List.length_cons, List.cons_append, printParts, ih, Nat.add_right_comm, Nat.add_assoc]

theorem printParts_head {head rest : List ℕ} (hlength : n + head.length = zero.1)
    (hzero : zero.1 < 8) :
    printParts size zero 0 n (head ++ rest) =
      head.flatMap (fun part => snprintfPart size part ++ [colon]) ++
        printParts size zero 0 zero.1 rest := by
  induction head generalizing n with
  | nil => rw [← hlength]; rfl
  | cons part head ih =>
      rw [List.length_cons] at hlength
      rw [List.cons_append, printParts, if_neg (by omega), if_pos (by omega), ih (by omega)]
      simp

theorem flatMap_colon {head : List ℕ} (h : head ≠ []) :
    head.flatMap (fun part => snprintfPart size part ++ [colon]) =
      joined colon (head.map (snprintfPart size)) ++ [colon] := by
  induction head with
  | nil => exact absurd rfl h
  | cons part head ih =>
      by_cases hnil : head = []
      · simp [hnil, joined]
      · rw [List.flatMap_cons, ih hnil, List.map_cons, Fields.joined_cons (by simpa using hnil)]
        simp

theorem printParts_zeros {head tail : List ℕ} {k : ℕ} (hk : 2 ≤ k)
    (hlength : head.length + k + tail.length = 8) :
    printParts size (head.length, k) 0 0 (head ++ List.replicate k 0 ++ tail) =
      joined colon (head.map (snprintfPart size)) ++
        colon :: colon :: joined colon (tail.map (snprintfPart size)) ++ [0] := by
  obtain ⟨k, rfl⟩ := Nat.exists_eq_add_of_le' (Nat.le_of_succ_le hk)
  have hskip : printParts size (head.length, k + 1) k (head.length + 1)
      (List.replicate k 0 ++ tail) = joined colon (tail.map (snprintfPart size)) ++ [0] := by
    have h : printParts size (head.length, k + 1) (List.replicate k 0).length (head.length + 1)
        (List.replicate k 0 ++ tail) = _ := printParts_skip
    rw [List.length_replicate] at h
    rw [h, printParts_rest (by omega) (by dsimp only; omega)]
  rw [List.append_assoc, printParts_head (by simp) (by dsimp only; omega), List.replicate_succ,
    List.cons_append, printParts, if_pos rfl]
  dsimp only
  rw [Nat.add_sub_cancel, hskip]
  by_cases hnil : head = []
  · simp [hnil, joined]
  · rw [flatMap_colon hnil, if_neg (by simpa using hnil)]
    simp

theorem length_ip6Parts {addr : List Byte} (h : addr.length = 2 * n) :
    (ip6Parts addr).length = n := by
  induction n generalizing addr with
  | zero =>
      rw [List.length_eq_zero_iff.mp h]
      rfl
  | succ n ih =>
      match addr, h with
      | high :: low :: addr, h => rw [ip6Parts, List.length_cons, ih (by simp at h; omega)]

theorem ip6tos_printsAs (platform : Platform) {addr : List Byte} (h : addr.length = 16) :
    ∃ text, PrintsAs platform.sizeofPointer (ip6Parts addr) text ∧
      ip6tos platform addr = text ++ [0] := by
  have hlength : (ip6Parts addr).length = 8 := length_ip6Parts h
  rw [ip6tos]
  rcases zeroRun_spec (ip6Parts addr) with hzero | ⟨head, k, tail, hk, hparts, hzero⟩
  · refine ⟨_, .full _ hlength, ?_⟩
    rw [hzero, printParts_rest (by omega) (by simp)]
  · rw [hparts] at hlength ⊢
    have hsum : head.length + k + tail.length = 8 := by
      simpa only [List.length_append, List.length_replicate] using hlength
    refine ⟨_, .compressed head tail k hk hsum, ?_⟩
    rw [← hparts, hzero, hparts, printParts_zeros hk hsum]

/-! ## The digits of a part -/

theorem digitValue_digitChar {d : ℕ} (h : d < 16) :
    digitValue (ascii (Nat.digitChar d)) = some d := by
  have hall : ∀ d < 16, digitValue (ascii (Nat.digitChar d)) = some d := by decide
  exact hall d h

theorem exists_digitChar {value : ℕ} {c : Byte} (h : c ∈ (Nat.toDigits 16 value).map ascii) :
    ∃ d < 16, c = ascii (Nat.digitChar d) := by
  induction value using Nat.strongRecOn with
  | ind value ih =>
      rcases lt_or_ge value 16 with hlt | hge
      · rw [Nat.toDigits_of_lt_base hlt, List.map_singleton, List.mem_singleton] at h
        exact ⟨value, hlt, h⟩
      · rw [Nat.toDigits_of_base_le (by decide) hge, List.map_append, List.mem_append,
          List.map_singleton, List.mem_singleton] at h
        rcases h with h | h
        · exact ih (value / 16) (by omega) h
        · exact ⟨value % 16, Nat.mod_lt _ (by decide), h⟩

theorem isSome_digitValue {value : ℕ} {c : Byte} (h : c ∈ (Nat.toDigits 16 value).map ascii) :
    (digitValue c).isSome = true := by
  obtain ⟨d, hd, rfl⟩ := exists_digitChar h
  rw [digitValue_digitChar hd]
  rfl

theorem hexValue_toDigits (value : ℕ) : hexValue ((Nat.toDigits 16 value).map ascii) = value := by
  induction value using Nat.strongRecOn with
  | ind value ih =>
      rcases lt_or_ge value 16 with hlt | hge
      · rw [Nat.toDigits_of_lt_base hlt]
        simp [hexValue, digitValue_digitChar hlt]
      · have hvalue := ih (value / 16) (by omega)
        have hlast := digitValue_digitChar (Nat.mod_lt value (by decide : 16 > 0))
        rw [hexValue] at hvalue ⊢
        rw [Nat.toDigits_of_base_le (by decide) hge, List.map_append, List.foldl_append, hvalue]
        simp only [List.map_singleton, List.foldl_cons, List.foldl_nil, hlast, Option.getD_some]
        omega

theorem digits_ne_zero {value : ℕ} : (0 : Byte) ∉ (Nat.toDigits 16 value).map ascii := by
  intro hmem
  cases isSome_digitValue hmem

theorem snprintfPart_of_lt {size part : ℕ} (h : part < 16 ^ (size + 1)) :
    snprintfPart (size + 2) part = (Nat.toDigits 16 part).map ascii := by
  have hlength : (Nat.toDigits 16 part).length ≤ size + 1 :=
    (Nat.length_toDigits_le_iff (by decide) (Nat.succ_pos size)).mpr h
  rw [snprintfPart, if_pos (by rw [List.length_map]; omega)]

/-- A null character stands in a part that is cut short. -/
theorem zero_mem_snprintfPart_iff {size part : ℕ} :
    0 ∈ snprintfPart (size + 2) part ↔ 16 ^ (size + 1) ≤ part := by
  constructor
  · intro h
    by_contra hlt
    rw [snprintfPart_of_lt (Nat.lt_of_not_le hlt)] at h
    exact digits_ne_zero h
  · intro h
    have hlength : ¬ (Nat.toDigits 16 part).length ≤ size + 1 := by
      rw [Nat.length_toDigits_le_iff (by decide) (Nat.succ_pos size)]
      exact h.not_gt
    rw [snprintfPart, if_neg (by rw [List.length_map]; omega)]
    simp

theorem PrintsAs.zero_mem_iff {size : ℕ} {parts : List ℕ} {text : List Byte}
    (h : PrintsAs (size + 2) parts text) : 0 ∈ text ↔ ∃ part ∈ parts, 16 ^ (size + 1) ≤ part := by
  have hjoined : ∀ parts : List ℕ, 0 ∈ joined colon (parts.map (snprintfPart (size + 2))) ↔
      ∃ part ∈ parts, 16 ^ (size + 1) ≤ part := by
    intro parts
    rw [Fields.mem_joined (by decide)]
    simp only [List.mem_map, exists_exists_and_eq_and, zero_mem_snprintfPart_iff]
  cases h with
  | full => exact hjoined parts
  | compressed head tail k =>
      have hzero : ¬ 16 ^ (size + 1) ≤ 0 := (Nat.pow_pos (by decide)).not_ge
      have hcolon : (0 : Byte) ≠ colon := by decide
      simp only [List.mem_append, List.mem_cons, hcolon, false_or, hjoined, List.mem_replicate,
        or_and_right, exists_or]
      refine or_congr_left ((or_iff_left ?_).symm)
      rintro ⟨part, ⟨-, rfl⟩, hpart⟩
      exact hzero hpart

end OpenIotSdk.Netsocket
