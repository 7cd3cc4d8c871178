import OpenIotSdk.Model.Netsocket.AddressReads
import OpenIotSdk.Verification.Netsocket.RoundTrip

/-! # Prefixes through their texts

With pointers of eight bytes, `ip6_prefix_tos` prints the masked prefix and its length, and both
are read back. -/

namespace OpenIotSdk.Netsocket

abbrev slash : Byte := ascii '/'

/-! ## The bits of an address -/

/-- The bit at position `k`, counted from the front. -/
def bitAt (bytes : List Byte) (k : ℕ) : Bool := (bytes.getD (k / 8) 0).getMsbD (k % 8)

structure Cleared (addr : List Byte) (n : ℕ) (out : List Byte) : Prop where
  length : out.length = 16
  bits : ∀ k < 128, bitAt out k = (decide (k < n) && bitAt addr k)

variable {addr : List Byte} {n i k : ℕ}

theorem getMsbD_contextSplitMask {s j : ℕ} (hs : s < 8) (hj : j < 8) :
    (contextSplitMask s).getMsbD j = decide (j < s) := by
  have hall : ∀ s < 8, ∀ j < 8, (contextSplitMask s).getMsbD j = decide (j < s) := by decide
  exact hall s hs j hj

theorem getD_copied (haddr : n / 8 ≤ addr.length) :
    (addr.take (n / 8) ++ (List.replicate 16 (0 : Byte)).drop (n / 8)).getD i 0 =
      if i < n / 8 then addr.getD i 0 else 0 := by
  have htaken : (addr.take (n / 8)).length = n / 8 := List.length_take_of_le haddr
  rw [List.getD_eq_getElem?_getD, List.getD_eq_getElem?_getD]
  split
  · next hi => rw [List.getElem?_append_left (by omega), List.getElem?_take_of_lt hi]
  · next hi =>
      rw [List.getElem?_append_right (by omega), List.getElem?_drop, List.getElem?_replicate]
      split <;> rfl

theorem getD_maskedPrefix (haddr : n / 8 ≤ addr.length) (hi : i < 16) :
    (maskedPrefix addr n).getD i 0 =
      if i < n / 8 then addr.getD i 0
      else if i = n / 8 then addr.getD i 0 &&& contextSplitMask (n % 8)
      else 0 := by
  have hcopied : ∀ i, (addr.take (n / 8) ++ (List.replicate 16 (0 : Byte)).drop (n / 8)).getD i 0 =
      if i < n / 8 then addr.getD i 0 else 0 := fun i => getD_copied haddr
  dsimp only [maskedPrefix, bitcopy]
  by_cases hbits : n % 8 = 0
  · have hmask : contextSplitMask 0 = 0#8 := by decide
    rw [if_pos hbits, hcopied, hbits, hmask, BitVec.and_zero]
    exact ite_congr rfl (fun _ => rfl) fun _ => (ite_self _).symm
  · have hbyte : ∀ byte mask : Byte, (byte &&& mask ||| 0 &&& ~~~mask) = byte &&& mask := by simp
    rw [if_neg hbits, hcopied, if_neg (Nat.lt_irrefl _), hbyte]
    by_cases heq : i = n / 8
    · have hin :
          n / 8 < (addr.take (n / 8) ++ (List.replicate 16 (0 : Byte)).drop (n / 8)).length := by
        rw [List.length_append, List.length_take, List.length_drop, List.length_replicate]
        omega
      rw [if_neg (by omega), if_pos heq, heq, List.getD_eq_getElem?_getD,
        List.getElem?_set_self hin]
      rfl
    · rw [if_neg heq, List.getD_eq_getElem?_getD, List.getElem?_set_ne (Ne.symm heq),
        ← List.getD_eq_getElem?_getD, hcopied]

theorem cleared_maskedPrefix (h : addr.length = 16) (prefixLen : Fin 129) :
    Cleared addr prefixLen (maskedPrefix addr prefixLen) := by
  refine ⟨length_maskedPrefix h prefixLen, ?_⟩
  intro k hk
  have hle : prefixLen.1 / 8 ≤ addr.length := by omega
  rw [bitAt, bitAt, getD_maskedPrefix hle (by omega)]
  split
  · next hlow =>
      have hkept : k < prefixLen.1 := by omega
      rw [decide_eq_true hkept, Bool.true_and]
  · next hlow =>
      split
      · next heq =>
          have hmask : decide (k % 8 < prefixLen.1 % 8) = decide (k < prefixLen.1) :=
            decide_eq_decide.mpr (by omega)
          rw [BitVec.getMsbD_and, getMsbD_contextSplitMask (by omega) (by omega), hmask,
            Bool.and_comm]
      · next hne =>
          have hcleared : ¬ k < prefixLen.1 := by omega
          rw [decide_eq_false hcleared, Bool.false_and]
          exact BitVec.getMsbD_zero

/-! ## The length -/

theorem strchr_append {c : Byte} {before rest : List Byte} (hc : c ∉ before) (hzero : 0 ∉ before) :
    strchr c (before ++ c :: rest) = some (c :: rest) := by
  induction before with
  | nil => rw [List.nil_append, strchr, if_pos rfl]
  | cons d before ih =>
      have hd : d ≠ c := fun h => hc (by simp [h])
      have hd' : d ≠ 0 := fun h => hzero (by simp [h])
      rw [List.cons_append, strchr, if_neg hd, if_neg hd',
        ih (List.not_mem_of_not_mem_cons hc) (List.not_mem_of_not_mem_cons hzero)]

theorem isDecimal_sign : ∀ c : Byte, isDecimal c = true →
    isSpace c = false ∧ c ≠ ascii '-' ∧ c ≠ ascii '+' := by decide +kernel

theorem strtoul_digits {width value : ℕ} (h : value < 2 ^ width) (beyond : List Byte) :
    strtoul width ((Nat.toDigits 10 value).map ascii ++ 0 :: beyond) =
      BitVec.ofNat width value := by
  have hvalue := decimalValue_toDigits value
  have hdecimal := toDigits_decimal value
  have hread : ((Nat.toDigits 10 value).map ascii ++ 0 :: beyond).takeWhile isDecimal =
      (Nat.toDigits 10 value).map ascii :=
    leading_append hdecimal (digit_stop (Or.inl rfl))
  obtain ⟨c, text, htext⟩ :=
    List.exists_cons_of_ne_nil (show (Nat.toDigits 10 value).map ascii ≠ [] by simp)
  rw [htext] at hvalue hdecimal hread ⊢
  obtain ⟨hspace, hminus, hplus⟩ := isDecimal_sign c (hdecimal c (by simp))
  have hstart : (c :: text ++ 0 :: beyond).dropWhile isSpace = c :: text ++ 0 :: beyond :=
    List.dropWhile_cons_of_neg (by simp [hspace])
  have hsign : ¬ ((c :: text ++ 0 :: beyond).headD 0 = ascii '-' ∨
      (c :: text ++ 0 :: beyond).headD 0 = ascii '+') := not_or.mpr ⟨hminus, hplus⟩
  dsimp only [strtoul]
  rw [hstart, if_neg hsign, hread, hvalue, if_neg h.not_ge]
  exact if_neg fun hneg => hsign (Or.inl hneg)

theorem sipv6Prefixlength_append {before : List Byte} (hslash : slash ∉ before)
    (hzero : 0 ∉ before) (prefixLen : Fin 129) (beyond : List Byte) :
    (sipv6Prefixlength .host (before ++ lengthText prefixLen ++ 0 :: beyond)).toNat =
      prefixLen := by
  have hsmall := prefixLen.isLt
  have hnumber : strtoul 64 ((Nat.toDigits 10 prefixLen.1).map ascii ++ 0 :: beyond) =
      BitVec.ofNat 64 prefixLen := strtoul_digits (by omega) beyond
  rw [sipv6Prefixlength, List.append_assoc, lengthText, List.cons_append,
    strchr_append hslash hzero]
  dsimp only [List.tail_cons, Platform.sizeofPointer]
  rw [hnumber, BitVec.toNat_setWidth, BitVec.toNat_ofNat]
  omega

/-! ## The text -/

/-- The text splits at its '/' into an address and a number. Each is read back, where it stands or
as a string of its own. -/
structure PrefixText (addr : List Byte) (prefixLen : ℕ) (address number : List Byte) : Prop where
  split : slash ∉ address ++ number
  nonzero : 0 ∉ address ++ number
  address : ∀ (r : List Byte) (dest : Memory Byte), r.headD 0 = slash ∨ r.headD 0 = 0 →
    let out := stoip6 (address ++ r) (lenOf .host address.length) dest
    out.1 = true ∧ Cleared addr prefixLen (out.2.load 0 16)
  number : ∀ before beyond : List Byte, slash ∉ before → 0 ∉ before →
    (sipv6Prefixlength .host (before ++ slash :: number ++ 0 :: beyond)).toNat = prefixLen

theorem stops_slash {r : List Byte} (h : r.headD 0 = slash ∨ r.headD 0 = 0) : Stops r := by
  have hboth : ∀ c : Byte, c = slash ∨ c = 0 → digitValue c = none ∧ c ≠ colon := by decide +kernel
  exact ⟨(hboth _ h).1, (hboth _ h).2⟩

theorem exists_prefixText (h : addr.length = 16) (prefixLen : Fin 129) :
    ∃ address number,
      ip6PrefixTos .host addr prefixLen =
        ⟨address ++ slash :: number ++ [0], (address ++ slash :: number).length⟩ ∧
      PrefixText addr prefixLen address number := by
  obtain ⟨text, hprinted, hrfc⟩ := ip6tos_rfc (length_maskedPrefix h prefixLen)
  refine ⟨text, (Nat.toDigits 10 prefixLen.1).map ascii, ?_, ?_⟩
  · have hroom := (snprintf_lengthText .host prefixLen).1 nofun
    rw [ip6PrefixTos_eq .host prefixLen hprinted, hroom, List.append_assoc, List.length_append]
    rfl
  · have hdecimal := toDigits_decimal prefixLen.1
    refine ⟨?_, ?_, ?_, ?_⟩
    · rw [List.mem_append, not_or]
      exact ⟨hrfc.notMem (by decide) (by decide), fun hmem => absurd (hdecimal _ hmem) (by decide)⟩
    · rw [List.mem_append, not_or]
      exact ⟨hrfc.notMem (by decide) (by decide), fun hmem => absurd (hdecimal _ hmem) (by decide)⟩
    · intro r dest hr
      obtain ⟨hok, hload⟩ := hrfc.stoip6 .host (stops_slash hr) dest
      exact ⟨hok, hload ▸ cleared_maskedPrefix h prefixLen⟩
    · intro before beyond hslash hzero
      exact sipv6Prefixlength_append hslash hzero prefixLen beyond

/-! ## What is read of the prefix -/

theorem ip6PrefixTosReads_eq (prefixLen : Fin 129) :
    ip6PrefixTosReads prefixLen = (prefixLen + 7) / 8 := by
  have hsmall := prefixLen.isLt
  rw [ip6PrefixTosReads, if_neg (by omega), bitcopyReads]
  split <;> omega

theorem maskedPrefix_congr {addr' : List Byte}
    (h : addr.take ((n + 7) / 8) = addr'.take ((n + 7) / 8)) :
    maskedPrefix addr n = maskedPrefix addr' n := by
  have hbytes : addr.take (n / 8) = addr'.take (n / 8) := by
    have htake := congrArg (List.take (n / 8)) h
    rwa [List.take_take, List.take_take, min_eq_left (by omega)] at htake
  dsimp only [maskedPrefix, bitcopy]
  rw [hbytes]
  split
  · rfl
  · next hbits =>
      have hlast : addr.getD (n / 8) 0 = addr'.getD (n / 8) 0 := by
        have hget := congrArg (·[n / 8]?) h
        rw [List.getElem?_take_of_lt (by omega), List.getElem?_take_of_lt (by omega)] at hget
        rw [List.getD_eq_getElem?_getD, List.getD_eq_getElem?_getD, hget]
      rw [hlast]

/-- With pointers of eight bytes, `ip6_prefix_tos` prints the prefix with the bits from `prefixLen`
on cleared, and `prefixLen`, so that both are read back; it returns the length of the text, and
reads no byte of the prefix without one of its first `prefixLen` bits. -/
theorem prefix_reads_back (addr : Fin 16 → Byte) (prefixLen : Fin 129) :
    (∃ address number,
      ip6PrefixTos .host (List.ofFn addr) prefixLen =
        ⟨address ++ slash :: number ++ [0], (address ++ slash :: number).length⟩ ∧
      PrefixText (List.ofFn addr) prefixLen address number) ∧
    ip6PrefixTosReads prefixLen = (prefixLen + 7) / 8 ∧
    ∀ addr' : List Byte,
      addr'.take ((prefixLen + 7) / 8) = (List.ofFn addr).take ((prefixLen + 7) / 8) →
      ip6PrefixTos .host addr' prefixLen = ip6PrefixTos .host (List.ofFn addr) prefixLen := by
  refine ⟨exists_prefixText List.length_ofFn prefixLen, ip6PrefixTosReads_eq prefixLen, ?_⟩
  intro addr' h
  rw [ip6PrefixTos, ip6PrefixTos, maskedPrefix_congr h]

end OpenIotSdk.Netsocket
