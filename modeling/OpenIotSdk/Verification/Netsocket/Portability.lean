import OpenIotSdk.Verification.Netsocket.PrintedText

/-! # Texts on a board and in the unit tests

`snprintf` is told the size of a pointer as the room that there is. With pointers of four bytes a
part of four digits is printed without the last one, and a prefix length of three digits too. -/

namespace OpenIotSdk.Netsocket

/-- A printer prints the same on each platform, and returns the length of what it prints. -/
structure Portable (print : Platform → Printed) : Prop where
  string : (print .target).string = (print .host).string
  returned : (print .target).returned = (print .host).returned
  length : ∀ platform, (print platform).returned = (print platform).string.length

/-- No part of the address has four digits. -/
def ShortParts (addr : List Byte) : Prop := ∀ part ∈ ip6Parts addr, part < 0x1000

/-! ## Strings that end early -/

theorem length_takeWhile_lt {text rest : List Byte} (h : 0 ∈ text) :
    ((text ++ rest).takeWhile (· ≠ 0)).length < text.length := by
  obtain ⟨before, behind, rfl, hbefore⟩ := List.eq_append_cons_of_mem h
  rw [List.append_assoc, List.cons_append, takeWhile_nonzero hbefore, List.length_append,
    List.length_cons]
  omega

/-! ## Addresses -/

theorem ip6Parts_lt {addr : List Byte} : ∀ part ∈ ip6Parts addr, part < 2 ^ 16 := by
  induction addr using ip6Parts.induct with
  | case1 high low addr ih =>
      rw [ip6Parts, List.forall_mem_cons]
      exact ⟨by have := high.isLt; have := low.isLt; omega, ih⟩
  | case2 addr h =>
      rw [ip6Parts.eq_def]
      split
      · exact absurd rfl (h _ _ _)
      · simp

/-- What `ip6tos` prints of an address, with the parts that are cut. -/
theorem ip6tosPrinted_spec (platform : Platform) {addr : List Byte} (h : addr.length = 16) :
    ∃ text, ip6tosPrinted platform addr = ⟨text ++ [0], text.length⟩ ∧
      (0 ∉ text ↔ platform = .target → ShortParts addr) := by
  obtain ⟨text, hprints, htext⟩ := ip6tos_printsAs platform h
  refine ⟨text, by rw [ip6tosPrinted, htext, List.length_append]; rfl, ?_⟩
  cases platform with
  | target =>
      have hzero : 0 ∈ text ↔ ∃ part ∈ ip6Parts addr, 16 ^ (2 + 1) ≤ part :=
        PrintsAs.zero_mem_iff hprints
      rw [hzero, forall_prop_of_true rfl]
      simp [ShortParts]
  | host =>
      have hzero : 0 ∈ text ↔ ∃ part ∈ ip6Parts addr, 16 ^ (6 + 1) ≤ part :=
        PrintsAs.zero_mem_iff hprints
      refine iff_of_true ?_ nofun
      rw [hzero]
      rintro ⟨part, hmem, hpart⟩
      have hlt := ip6Parts_lt part hmem
      omega

theorem printParts_congr {size size' : ℕ} {zero : ℕ × ℕ} {skip n : ℕ} {parts : List ℕ}
    (h : ∀ part ∈ parts, snprintfPart size part = snprintfPart size' part) :
    printParts size zero skip n parts = printParts size' zero skip n parts := by
  induction parts generalizing skip n with
  | nil => cases skip <;> rfl
  | cons part parts ih =>
      obtain ⟨hpart, hparts⟩ := List.forall_mem_cons.mp h
      cases skip with
      | zero => rw [printParts, printParts, ih hparts, ih hparts, hpart]
      | succ skip => rw [printParts, printParts, ih hparts]

theorem ShortParts.ip6tos_eq {addr : List Byte} (h : ShortParts addr) :
    ip6tos .target addr = ip6tos .host addr := by
  refine printParts_congr fun part hmem => ?_
  have hlt : part < 0x1000 := h part hmem
  have htarget : snprintfPart (2 + 2) part = _ := snprintfPart_of_lt hlt
  have hhost : snprintfPart (6 + 2) part = _ := snprintfPart_of_lt (by omega)
  exact htarget.trans hhost.symm

theorem ip6tosPrinted_length_iff (platform : Platform) {addr : List Byte}
    (h : addr.length = 16) :
    (ip6tosPrinted platform addr).returned = (ip6tosPrinted platform addr).string.length ↔
      (platform = .target → ShortParts addr) := by
  obtain ⟨text, htext, hzero⟩ := ip6tosPrinted_spec platform h
  rw [htext, ← hzero, Printed.string]
  by_cases hmem : 0 ∈ text
  · have hlt : ((text ++ [0]).takeWhile (· ≠ 0)).length < text.length := length_takeWhile_lt hmem
    exact iff_of_false (fun heq => hlt.ne' heq) (not_not.mpr hmem)
  · exact iff_of_true (by rw [takeWhile_nonzero hmem]) hmem

theorem ip6tosPrinted_portable_iff {addr : List Byte} (h : addr.length = 16) :
    Portable (fun platform => ip6tosPrinted platform addr) ↔ ShortParts addr := by
  constructor
  · intro hportable
    exact (ip6tosPrinted_length_iff .target h).mp (hportable.length .target) rfl
  · intro hshort
    have heq : ip6tosPrinted .target addr = ip6tosPrinted .host addr := by
      rw [ip6tosPrinted, hshort.ip6tos_eq]
      rfl
    exact ⟨congrArg Printed.string heq, congrArg Printed.returned heq, fun platform =>
      (ip6tosPrinted_length_iff platform h).mpr fun _ => hshort⟩

/-! ## Prefixes -/

def lengthText (prefixLen : ℕ) : List Byte := ascii '/' :: (Nat.toDigits 10 prefixLen).map ascii

theorem lengthText_spec (prefixLen : Fin 129) :
    0 ∉ lengthText prefixLen ∧ (lengthText prefixLen).length < 8 ∧
      ((lengthText prefixLen).length < 4 ↔ prefixLen.1 < 100) := by
  revert prefixLen
  decide

theorem length_maskedPrefix {addr : List Byte} (h : addr.length = 16) (prefixLen : Fin 129) :
    (maskedPrefix addr prefixLen).length = 16 := by
  have hbytes : prefixLen.1 / 8 ≤ 16 := by have := prefixLen.isLt; omega
  have hcopied : (addr.take (prefixLen.1 / 8) ++
      (List.replicate 16 (0 : Byte)).drop (prefixLen.1 / 8)).length = 16 := by
    rw [List.length_append, List.length_take, List.length_drop, List.length_replicate, h]
    omega
  dsimp only [maskedPrefix, bitcopy]
  split
  · exact hcopied
  · rw [List.length_set, hcopied]

/-- There is room for the text of the prefix length, and its null character. -/
def Roomy (platform : Platform) (prefixLen : ℕ) : Prop := platform = .target → prefixLen < 100

theorem snprintf_lengthText (platform : Platform) (prefixLen : Fin 129) :
    (Roomy platform prefixLen →
      (snprintf platform.sizeofPointer (lengthText prefixLen)).written =
        lengthText prefixLen ++ [0]) ∧
    (¬ Roomy platform prefixLen → ∃ text, 0 ∉ text ∧ text.length < (lengthText prefixLen).length ∧
      (snprintf platform.sizeofPointer (lengthText prefixLen)).written = text ++ [0]) := by
  obtain ⟨hzero, height, hfour⟩ := lengthText_spec prefixLen
  cases platform with
  | host =>
      refine ⟨fun _ => ?_, fun h => absurd nofun h⟩
      exact congrArg (· ++ [0]) (if_pos height)
  | target =>
      constructor
      · intro hroom
        exact congrArg (· ++ [0]) (if_pos (hfour.mpr (hroom rfl)))
      · intro hroom
        have hlong : ¬ (lengthText prefixLen).length < 4 := fun h => hroom fun _ => hfour.mp h
        refine ⟨(lengthText prefixLen).take 3, fun hmem => hzero (List.mem_of_mem_take hmem), ?_,
          congrArg (· ++ [0]) (if_neg hlong)⟩
        rw [List.length_take]
        omega

theorem ip6PrefixTos_eq (platform : Platform) {addr text : List Byte} (prefixLen : Fin 129)
    (h : ip6tosPrinted platform (maskedPrefix addr prefixLen) = ⟨text ++ [0], text.length⟩) :
    ip6PrefixTos platform addr prefixLen =
      ⟨text ++ (snprintf platform.sizeofPointer (lengthText prefixLen)).written,
        text.length + (lengthText prefixLen).length⟩ := by
  rw [ip6PrefixTos, if_neg (Nat.not_lt.mpr (Nat.le_of_lt_succ prefixLen.isLt)), h]
  dsimp only
  rw [List.take_left']
  · rfl
  · rfl

theorem ip6PrefixTos_length_iff (platform : Platform) {addr : List Byte} (h : addr.length = 16)
    (prefixLen : Fin 129) :
    (ip6PrefixTos platform addr prefixLen).returned =
        (ip6PrefixTos platform addr prefixLen).string.length ↔
      (platform = .target → ShortParts (maskedPrefix addr prefixLen) ∧ prefixLen.1 < 100) := by
  obtain ⟨text, htext, hzero⟩ := ip6tosPrinted_spec platform (length_maskedPrefix h prefixLen)
  obtain ⟨hroomy, htight⟩ := snprintf_lengthText platform prefixLen
  rw [forall_and, ← hzero, ip6PrefixTos_eq platform prefixLen htext, Printed.string]
  dsimp only
  by_cases hmem : 0 ∈ text
  · have hlt : ((text ++ (snprintf platform.sizeofPointer
        (lengthText prefixLen)).written).takeWhile (· ≠ 0)).length < text.length :=
      length_takeWhile_lt hmem
    refine iff_of_false (fun heq => ?_) fun hboth => hboth.1 hmem
    omega
  · by_cases hroom : Roomy platform prefixLen
    · refine iff_of_true ?_ ⟨hmem, hroom⟩
      have hlength : 0 ∉ text ++ lengthText prefixLen := by
        rw [List.mem_append, not_or]
        exact ⟨hmem, (lengthText_spec prefixLen).1⟩
      rw [hroomy hroom, ← List.append_assoc, takeWhile_nonzero hlength, List.length_append]
    · refine iff_of_false (fun heq => ?_) fun hboth => hroom hboth.2
      obtain ⟨short, hshort, hlength, hwritten⟩ := htight hroom
      have hnone : 0 ∉ text ++ short := by
        rw [List.mem_append, not_or]
        exact ⟨hmem, hshort⟩
      rw [hwritten, ← List.append_assoc, takeWhile_nonzero hnone, List.length_append] at heq
      omega

theorem ip6PrefixTos_portable_iff {addr : List Byte} (h : addr.length = 16)
    (prefixLen : Fin 129) :
    Portable (fun platform => ip6PrefixTos platform addr prefixLen) ↔
      ShortParts (maskedPrefix addr prefixLen) ∧ prefixLen.1 < 100 := by
  constructor
  · intro hportable
    exact (ip6PrefixTos_length_iff .target h prefixLen).mp (hportable.length .target) rfl
  · rintro ⟨hshort, hlength⟩
    have hlen := length_maskedPrefix h prefixLen
    obtain ⟨text, htext, -⟩ := ip6tosPrinted_spec .host hlen
    have heq : ip6tosPrinted .target (maskedPrefix addr prefixLen) =
        ⟨text ++ [0], text.length⟩ := by
      rw [← htext, ip6tosPrinted, hshort.ip6tos_eq]
      rfl
    have hwritten : ∀ platform : Platform,
        (snprintf platform.sizeofPointer (lengthText prefixLen)).written =
          lengthText prefixLen ++ [0] := fun platform =>
      (snprintf_lengthText platform prefixLen).1 fun _ => hlength
    have hsame : ip6PrefixTos .target addr prefixLen = ip6PrefixTos .host addr prefixLen := by
      rw [ip6PrefixTos_eq .target prefixLen heq, ip6PrefixTos_eq .host prefixLen htext, hwritten,
        hwritten]
    exact ⟨congrArg Printed.string hsame, congrArg Printed.returned hsame, fun platform =>
      (ip6PrefixTos_length_iff platform h prefixLen).mpr fun _ => ⟨hshort, hlength⟩⟩

/-- Whatever the address and the prefix length up to 128, both printers print the same on each
platform, and return its length, exactly where no part of what they print has four digits and the
prefix length has not three. -/
theorem texts_portable_iff (addr : Fin 16 → Byte) :
    (Portable (fun platform => ip6tosPrinted platform (List.ofFn addr)) ↔
      ShortParts (List.ofFn addr)) ∧
    ∀ prefixLen : Fin 129,
      Portable (fun platform => ip6PrefixTos platform (List.ofFn addr) prefixLen) ↔
        ShortParts (maskedPrefix (List.ofFn addr) prefixLen) ∧ prefixLen.1 < 100 :=
  ⟨ip6tosPrinted_portable_iff List.length_ofFn, ip6PrefixTos_portable_iff List.length_ofFn⟩

/-- On a board, 2001:db8::1 is printed as 200, with a length of 11. -/
theorem cutText_not_portable : ¬ ∀ addr : Fin 16 → Byte,
    Portable (fun platform => ip6tosPrinted platform (List.ofFn addr)) ∧
    ∀ prefixLen : Fin 129,
      Portable (fun platform => ip6PrefixTos platform (List.ofFn addr) prefixLen) := by
  intro h
  let addr : Fin 16 → Byte := fun i =>
    [0x20, 0x01, 0x0d, 0xb8, 0, 0, 0, 0, 0, 0, 0, 0, 0, 0, 0, 1].getD i 0
  exact absurd ((h addr).1.length .target) (by decide)

end OpenIotSdk.Netsocket
