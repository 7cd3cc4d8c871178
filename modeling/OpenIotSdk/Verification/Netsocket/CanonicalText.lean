import OpenIotSdk.Library.Runs
import OpenIotSdk.Verification.Netsocket.RoundTrip

/-! # The canonical text of an IPv6 address

With pointers of eight bytes, `ip6tos` prints the text that RFC 5952 asks for: the first of the
longest runs of zeros becomes `::`, and everything else is printed as short as it can be. -/

namespace OpenIotSdk.Netsocket

open Fields (joined)
open Runs

/-! ## RFC 5952 -/

/-- The groups of an address. -/
def hextets (addr : Fin 16 → Byte) : List ℕ :=
  List.ofFn fun i : Fin 8 =>
    2 ^ 8 * (addr ⟨2 * i, by omega⟩).toNat + (addr ⟨2 * i + 1, by omega⟩).toNat

/-- A group in hex digits of lower case, without leading zeros. -/
structure Hextet (value : ℕ) (text : List Byte) : Prop where
  nonempty : text ≠ []
  lower : ∀ c ∈ text, ascii '0' ≤ c ∧ c ≤ ascii '9' ∨ ascii 'a' ≤ c ∧ c ≤ ascii 'f'
  leading : text.head? = some (ascii '0') → text = [ascii '0']
  value : hexValue text = value

/-- The text of an address: with `::` for the first of the longest runs of zeros, or in full where
no two zeros are in a row. -/
inductive Rfc5952 : List ℕ → List Byte → Prop where
  | full {groups texts} : (∀ i, ¬ Run (· = 0) groups i 2) → List.Forall₂ Hextet groups texts →
      Rfc5952 groups (joined colon texts)
  | compressed {head tail k texts texts'} : 2 ≤ k →
      Longest (· = 0) (head ++ List.replicate k 0 ++ tail) head.length k →
      List.Forall₂ Hextet head texts → List.Forall₂ Hextet tail texts' →
      Rfc5952 (head ++ List.replicate k 0 ++ tail)
        (joined colon texts ++ colon :: colon :: joined colon texts')

/-! ## The longest run of zeros -/

variable {all parts : List ℕ} {zero : ℕ × ℕ} {n0 : Option ℕ} {n s : ℕ}

/-- What the scan has found before the run that it is in, or so far if it is in none. -/
structure Scanned (all : List ℕ) (zero : ℕ × ℕ) (n0 : Option ℕ) (n : ℕ) : Prop where
  best : Best (· = 0) all 2 (n0.getD n) zero.1 zero.2
  cut : Cut (· = 0) all (n0.getD n)
  found : zero.2 < 2 ∨ zero.1 ≤ n0.getD n

theorem Scanned.ended (h : Scanned all zero (some s) n) :
    Best (· = 0) all 2 n (longer s n zero).1 (longer s n zero).2 := by
  rw [longer]
  split
  · next hlonger => exact h.best.longer h.cut hlonger
  · next hkeep => exact h.best.keep h.cut (Nat.le_of_not_lt hkeep) h.found

theorem Scanned.ended_found (h : Scanned all zero (some s) n) (hs : s ≤ n) :
    (longer s n zero).2 < 2 ∨ (longer s n zero).1 ≤ n := by
  rw [longer]
  split
  · exact Or.inr hs
  · exact h.found.imp_right fun hle => Nat.le_trans hle hs

theorem scanZeros_best (h : Scanned all zero n0 n) (hparts : all.drop n = parts)
    (hn : ∀ s ∈ n0, s ≤ n) (hlength : n ≤ all.length) :
    Best (· = 0) all 2 all.length (scanZeros zero n0 n parts).1 (scanZeros zero n0 n parts).2 := by
  induction parts generalizing zero n0 n with
  | nil =>
      have hend : n = all.length := Nat.le_antisymm hlength (List.drop_eq_nil_iff.mp hparts)
      subst hend
      cases n0 with
      | none => exact h.best
      | some s => exact h.ended
  | cons part parts ih =>
      have hpart : all[n]? = some part := by
        rw [← List.head?_drop, hparts]
        rfl
      have hnext : all.drop (n + 1) = parts := by
        rw [← List.tail_drop, hparts]
        rfl
      have hlt : n < all.length := (List.getElem?_eq_some_iff.mp hpart).1
      cases n0 with
      | none =>
          dsimp only [scanZeros]
          by_cases hzero : part ≠ 0
          · rw [if_pos hzero]
            refine ih ⟨h.best.succ (by decide) hpart hzero, cut_succ hpart hzero, ?_⟩ hnext (by simp)
              hlt
            exact h.found.imp_right Nat.le_succ_of_le
          · rw [if_neg hzero]
            exact ih ⟨h.best, h.cut, h.found⟩ hnext (by simp) hlt
      | some s =>
          have hs : s ≤ n := hn s rfl
          dsimp only [scanZeros]
          by_cases hzero : part ≠ 0
          · rw [if_pos hzero]
            refine ih ⟨h.ended.succ (by decide) hpart hzero, cut_succ hpart hzero, ?_⟩ hnext (by simp)
              hlt
            exact (h.ended_found hs).imp_right Nat.le_succ_of_le
          · rw [if_neg hzero]
            refine ih ⟨h.best, h.cut, h.found⟩ hnext ?_ hlt
            intro s' hs'
            cases hs'
            exact Nat.le_succ_of_le hs

theorem zeroRun_best (parts : List ℕ) :
    Best (· = 0) parts 2 parts.length (zeroRun parts).1 (zeroRun parts).2 :=
  scanZeros_best ⟨best_zero (by decide), cut_zero, Or.inl (by decide)⟩ rfl (by simp) (Nat.zero_le _)

/-! ## The groups -/

theorem lower_digits (value : ℕ) : ∀ c ∈ (Nat.toDigits 16 value).map ascii,
    ascii '0' ≤ c ∧ c ≤ ascii '9' ∨ ascii 'a' ≤ c ∧ c ≤ ascii 'f' := by
  have hall : ∀ d < 16, ascii '0' ≤ ascii (Nat.digitChar d) ∧ ascii (Nat.digitChar d) ≤ ascii '9' ∨
      ascii 'a' ≤ ascii (Nat.digitChar d) ∧ ascii (Nat.digitChar d) ≤ ascii 'f' := by decide
  intro c hc
  obtain ⟨d, hd, rfl⟩ := exists_digitChar hc
  exact hall d hd

theorem leading_digits (value : ℕ) :
    ((Nat.toDigits 16 value).map ascii).head? = some (ascii '0') → value = 0 := by
  have hall : ∀ d < 16, ascii (Nat.digitChar d) = ascii '0' → d = 0 := by decide
  induction value using Nat.strongRecOn with
  | ind value ih =>
      rcases lt_or_ge value 16 with hlt | hge
      · rw [Nat.toDigits_of_lt_base hlt]
        simpa using hall value hlt
      · intro hhead
        have hne : (Nat.toDigits 16 (value / 16)).map ascii ≠ [] := by simp
        rw [Nat.toDigits_of_base_le (by decide) hge, List.map_append,
          List.head?_append_of_ne_nil _ hne] at hhead
        have hzero := ih (value / 16) (by omega) hhead
        omega

theorem hextet_snprintfPart {part : ℕ} (h : part < 2 ^ 16) :
    Hextet part (snprintfPart 8 part) := by
  have hwhole : snprintfPart 8 part = (Nat.toDigits 16 part).map ascii :=
    snprintfPart_of_lt (h.trans (by decide))
  rw [hwhole]
  refine ⟨by simp, lower_digits part, ?_, hexValue_toDigits part⟩
  intro hhead
  rw [leading_digits part hhead]
  rfl

theorem hextets_snprintfPart (h : ∀ part ∈ parts, part < 2 ^ 16) :
    List.Forall₂ Hextet parts (parts.map (snprintfPart 8)) := by
  rw [List.forall₂_map_right_iff, List.forall₂_same]
  exact fun part hmem => hextet_snprintfPart (h part hmem)

theorem ip6Parts_ofFn (addr : Fin 16 → Byte) : ip6Parts (List.ofFn addr) = hextets addr := rfl

/-! ## The text -/

theorem printParts_rfc5952 (hlength : parts.length = 8) (hparts : ∀ part ∈ parts, part < 2 ^ 16) :
    ∃ text, printParts 8 (zeroRun parts) 0 0 parts = text ++ [0] ∧ Rfc5952 parts text := by
  have hbest := zeroRun_best parts
  rcases zeroRun_spec parts with hzero | ⟨head, k, tail, hk, rfl, hzero⟩
  · rw [hzero] at hbest ⊢
    refine ⟨_, printParts_rest (by omega) (by simp), .full ?_ (hextets_snprintfPart hparts)⟩
    intro i hrun
    have htwo := (hbest i 2 (Nat.le_refl 2) hrun (hrun.le_length (by decide))).1
    omega
  · rw [hzero] at hbest ⊢
    have hsum : head.length + k + tail.length = 8 := by
      simpa only [List.length_append, List.length_replicate] using hlength
    have hlongest := hbest.longest (Nat.le_refl _) (run_replicate head tail rfl) (by decide) hk
    refine ⟨_, printParts_zeros hk hsum, .compressed hk hlongest ?_ ?_⟩
    · exact hextets_snprintfPart fun part hmem => hparts part (by simp [hmem])
    · exact hextets_snprintfPart fun part hmem => hparts part (by simp [hmem])

theorem Rfc4291.unique {text a a' : List Byte} (h : Rfc4291 text a) (h' : Rfc4291 text a') :
    a = a' := by
  have hload := (h.stoip6 .host (stops_zero []) fun _ => 0).2
  exact hload.symm.trans (h'.stoip6 .host (stops_zero []) fun _ => 0).2

/-- The text is canonical, and it denotes the address. -/
theorem exists_canonicalText (addr : Fin 16 → Byte) :
    ∃ text, ip6tosPrinted .host (List.ofFn addr) = ⟨text ++ [0], text.length⟩ ∧
      Rfc5952 (hextets addr) text ∧ Rfc4291 text (List.ofFn addr) := by
  have hlength : (List.ofFn addr).length = 16 := List.length_ofFn
  obtain ⟨text, hprinted, hrfc⟩ := ip6tos_rfc hlength
  obtain ⟨text', hwritten, hcanonical⟩ :=
    printParts_rfc5952 (length_ip6Parts (n := 8) hlength) ip6Parts_lt
  have heq : text ++ [0] = text' ++ [0] := (congrArg Printed.written hprinted).symm.trans hwritten
  rw [List.append_cancel_right heq] at hprinted hrfc
  rw [ip6Parts_ofFn] at hcanonical
  exact ⟨text', hprinted, hcanonical, hrfc⟩

/-- With pointers of eight bytes, `ip6tos` writes the text of RFC 5952 and a null character, 40
bytes at most, and returns the length of the text. No other address has that text. -/
theorem ip6tos_canonical :
    (∀ addr : Fin 16 → Byte, ∃ text,
      ip6tosPrinted .host (List.ofFn addr) = ⟨text ++ [0], text.length⟩ ∧
      Rfc5952 (hextets addr) text ∧ 0 ∉ text ∧ text.length ≤ 39) ∧
    ∀ addr addr' : Fin 16 → Byte,
      (ip6tosPrinted .host (List.ofFn addr)).string =
        (ip6tosPrinted .host (List.ofFn addr')).string → addr = addr' := by
  constructor
  · intro addr
    obtain ⟨text, hprinted, hcanonical, hrfc⟩ := exists_canonicalText addr
    exact ⟨text, hprinted, hcanonical, hrfc.nonzero, Nat.le_of_lt_succ hrfc.length_le⟩
  · intro addr addr' hstring
    obtain ⟨text, hprinted, -, hrfc⟩ := exists_canonicalText addr
    obtain ⟨text', hprinted', -, hrfc'⟩ := exists_canonicalText addr'
    rw [hprinted, hprinted', Printed.string, Printed.string, takeWhile_nonzero hrfc.nonzero,
      takeWhile_nonzero hrfc'.nonzero] at hstring
    subst hstring
    exact List.ofFn_injective (hrfc.unique hrfc')

end OpenIotSdk.Netsocket
