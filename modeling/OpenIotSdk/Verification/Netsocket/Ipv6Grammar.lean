import OpenIotSdk.Library.Fields
import OpenIotSdk.Model.Netsocket.AddressText
import Mathlib.Algebra.Group.Nat.Defs

/-! # The texts that `stoip6` takes

The grammar of RFC 4291 for addresses without an IPv4 tail, and the fields that the parser reads.
The parser takes every address, and a few texts beside them. -/

namespace OpenIotSdk.Netsocket

/-! ## The grammar -/

def digitValue (c : Byte) : Option ℕ :=
  if ascii '0' ≤ c ∧ c ≤ ascii '9' then some (c.toNat - 0x30)
  else if ascii 'A' ≤ c ∧ c ≤ ascii 'F' then some (c.toNat - 0x41 + 10)
  else if ascii 'a' ≤ c ∧ c ≤ ascii 'f' then some (c.toNat - 0x61 + 10)
  else none

def hexValue (digits : List Byte) : ℕ :=
  digits.foldl (fun value c => 16 * value + (digitValue c).getD 0) 0

def digitBytes (digits : List Byte) : List Byte :=
  [BitVec.ofNat 8 (hexValue digits / 2 ^ 8), BitVec.ofNat 8 (hexValue digits)]

/-- Up to four hex digits. -/
structure IsField (f : List Byte) : Prop where
  length : f.length ≤ 4
  digits : ∀ c ∈ f, (digitValue c).isSome = true

instance (f : List Byte) : Decidable (IsField f) :=
  decidable_of_iff (f.length ≤ 4 ∧ ∀ c ∈ f, (digitValue c).isSome = true)
    ⟨fun h => ⟨h.1, h.2⟩, fun h => ⟨h.1, h.2⟩⟩

/-- One to four hex digits. -/
structure Group where
  digits : List Byte
  nonempty : digits ≠ []
  isField : IsField digits

abbrev colon : Byte := ascii ':'

def groupsText (groups : List Group) : List Byte := Fields.joined colon (groups.map Group.digits)

@[simp] theorem groupsText_nil : groupsText [] = [] := rfl

def groupsBytes (groups : List Group) : List Byte := groups.flatMap fun g => digitBytes g.digits

/-- The address that a text denotes: eight groups, or `::` for the groups that are missing, of
which there is at least one. -/
inductive Rfc4291 : List Byte → List Byte → Prop where
  | full (groups : List Group) : groups.length = 8 →
      Rfc4291 (groupsText groups) (groupsBytes groups)
  | compressed (head tail : List Group) : head.length + tail.length ≤ 7 →
      Rfc4291 (groupsText head ++ colon :: colon :: groupsText tail)
        (groupsBytes head ++ List.replicate (2 * (8 - (head.length + tail.length))) 0 ++
          groupsBytes tail)

/-! ## Digits -/

theorem isHex_eq : ∀ c : Byte, isHex c = (digitValue c).isSome := by decide +kernel

theorem hexDigit_eq : ∀ c : Byte, hexDigit c = (digitValue c).map (BitVec.ofNat 16) := by
  decide +kernel

theorem digitValue_lt : ∀ c : Byte, (digitValue c).getD 0 < 16 := by decide +kernel

theorem digitValue_colon : digitValue colon = none := by decide

theorem digitValue_zero : digitValue 0 = none := by decide

theorem IsField.colon_notMem {f : List Byte} (h : IsField f) : colon ∉ f := fun hmem => by
  have hsome := h.digits _ hmem
  rw [digitValue_colon] at hsome
  cases hsome

theorem shift_or_digit {val : BitVec 16} {digit : ℕ} (hval : 16 * val.toNat + digit < 2 ^ 16)
    (hdigit : digit < 16) :
    (val <<< 4 ||| BitVec.ofNat 16 digit).toNat = 16 * val.toNat + digit := by
  have hshift : (val <<< 4).toNat = val.toNat <<< 4 := by
    rw [BitVec.toNat_shiftLeft, Nat.mod_eq_of_lt (by rw [Nat.shiftLeft_eq]; omega)]
  rw [BitVec.toNat_or, hshift, BitVec.toNat_ofNat, Nat.mod_eq_of_lt (by omega),
    ← Nat.shiftLeft_add_eq_or_of_lt hdigit, Nat.shiftLeft_eq, Nat.mul_comm]

theorem hex_append {f q : List Byte} (hq : digitValue (q.headD 0) = none) (val : BitVec 16)
    (hf : ∀ c ∈ f, (digitValue c).isSome = true) : hex val (f ++ q) = hex val f := by
  induction f generalizing val with
  | nil =>
      cases q with
      | nil => rfl
      | cons c q =>
          have hc : hexDigit c = none := by rw [hexDigit_eq, show digitValue c = none from hq]; rfl
          simp [hex, hc]
  | cons c f ih =>
      obtain ⟨hc, hf⟩ := List.forall_mem_cons.mp hf
      obtain ⟨digit, hdigit⟩ := Option.isSome_iff_exists.mp hc
      have heq : hexDigit c = some (BitVec.ofNat 16 digit) := by rw [hexDigit_eq, hdigit]; rfl
      simp only [List.cons_append, hex, heq]
      exact ih _ hf

theorem toNat_hex {f : List Byte} (hf : ∀ c ∈ f, (digitValue c).isSome = true) {val : BitVec 16}
    (hval : (val.toNat + 1) * 16 ^ f.length ≤ 2 ^ 16) :
    (hex val f).toNat =
      f.foldl (fun value c => 16 * value + (digitValue c).getD 0) val.toNat := by
  induction f generalizing val with
  | nil => rfl
  | cons c f ih =>
      obtain ⟨hc, hf⟩ := List.forall_mem_cons.mp hf
      obtain ⟨digit, hdigit⟩ := Option.isSome_iff_exists.mp hc
      have heq : hexDigit c = some (BitVec.ofNat 16 digit) := by rw [hexDigit_eq, hdigit]; rfl
      have hlt : digit < 16 := by
        have h := digitValue_lt c
        rwa [hdigit] at h
      have hroom : (16 * val.toNat + digit + 1) * 16 ^ f.length ≤ 2 ^ 16 :=
        calc (16 * val.toNat + digit + 1) * 16 ^ f.length
            ≤ ((val.toNat + 1) * 16) * 16 ^ f.length := Nat.mul_le_mul_right _ (by omega)
          _ = (val.toNat + 1) * 16 ^ (f.length + 1) := by
              rw [Nat.pow_succ, Nat.mul_assoc, Nat.mul_comm 16]
          _ ≤ 2 ^ 16 := hval
      have hfits : 16 * val.toNat + digit + 1 ≤ 2 ^ 16 :=
        (Nat.le_mul_of_pos_right _ (Nat.pow_pos (by decide))).trans hroom
      have hnext := shift_or_digit hfits hlt
      simp only [hex, heq, List.foldl_cons, hdigit, Option.getD_some]
      rw [ih hf (by rwa [hnext]), hnext]

theorem IsField.bytes {f : List Byte} (h : IsField f) :
    commonWrite16Bit (hex 0 f) = digitBytes f := by
  have hroom : 16 ^ f.length ≤ 2 ^ 16 := by
    calc 16 ^ f.length ≤ 16 ^ 4 := Nat.pow_le_pow_right (by decide) h.length
      _ = 2 ^ 16 := by decide
  have hvalue : (hex 0 f).toNat = hexValue f := toNat_hex h.digits (by simpa using hroom)
  have hlt := (hex 0 f).isLt
  rw [commonWrite16Bit, digitBytes, ← hvalue]
  refine List.cons_eq_cons.mpr ⟨BitVec.eq_of_toNat_eq ?_, List.cons_eq_cons.mpr
    ⟨BitVec.eq_of_toNat_eq ?_, rfl⟩⟩
  · simp [Nat.shiftRight_eq_div_pow]
  · simp

/-! ## Strings -/

theorem takeWhile_nonzero {text rest : List Byte} (h : 0 ∉ text) :
    (text ++ 0 :: rest).takeWhile (· ≠ 0) = text := by
  rw [List.takeWhile_append_of_pos]
  · simp
  · intro c hc
    exact decide_eq_true fun heq : c = 0 => h (heq ▸ hc)

theorem strlen_of_text {text beyond : List Byte} (h : 0 ∉ text) :
    strlen (text ++ 0 :: beyond) = text.length := by
  rw [strlen, takeWhile_nonzero h]

/-! ## The parser -/

/-- What is behind a text does not go on with its last group or its last colon. -/
structure Stops (r : List Byte) : Prop where
  digit : digitValue (r.headD 0) = none
  colon : r.headD 0 ≠ Netsocket.colon

theorem stops_zero (beyond : List Byte) : Stops (0 :: beyond) :=
  ⟨digitValue_zero, show (0 : Byte) ≠ colon by decide⟩

section

variable {platform : Platform}

/-- The `len` that `n` characters have. -/
def lenOf (platform : Platform) (n : ℕ) : platform.Size := BitVec.ofNat _ n

theorem toNat_lenOf {n : ℕ} (h : n < 40) : (lenOf platform n).toNat = n := by
  rw [lenOf, BitVec.toNat_ofNat, Nat.mod_eq_of_lt]
  cases platform <;> exact h.trans (by decide)

@[simp] theorem lenOf_eq_zero_iff {n : ℕ} (h : n < 40) : lenOf platform n = 0 ↔ n = 0 := by
  constructor
  · intro hzero
    have h' := congrArg BitVec.toNat hzero
    rwa [toNat_lenOf h] at h'
  · rintro rfl
    rfl

theorem lenOf_zero : lenOf platform 0 = 0 := rfl

theorem platform_strlen_of_text {text beyond : List Byte} (h : 0 ∉ text) :
    platform.strlen (text ++ 0 :: beyond) = lenOf platform text.length := by
  rw [Platform.strlen, strlen_of_text h]
  rfl

theorem lenOf_sub (n k : ℕ) :
    lenOf platform (n + k) - BitVec.ofNat _ k = lenOf platform n := by
  rw [lenOf, BitVec.ofNat_add, BitVec.add_sub_cancel]
  rfl

theorem lenOf_sub_one (n : ℕ) : lenOf platform (n + 1) - 1 = lenOf platform n := lenOf_sub n 1

theorem lenOf_sub_two (n : ℕ) : lenOf platform (n + 1 + 1) - 2 = lenOf platform n := lenOf_sub n 2

/-- The search passes a field of hex characters, and fails at any other character. -/
theorem seek_append {f q : List Byte} {n : ℕ} (hzero : ∀ c ∈ f, c ≠ 0) (hcolon : colon ∉ f)
    (hlength : f.length + n < 40) (hq : n = 0 ∨ q.headD 0 = colon) :
    seek (lenOf platform (f.length + n)) (f ++ q) =
      if ∀ c ∈ f, (digitValue c).isSome = true then some (f.length, q, lenOf platform n)
      else none := by
  induction f with
  | nil =>
      rw [if_pos (by simp), List.nil_append, List.length_nil, Nat.zero_add]
      cases q with
      | nil => rfl
      | cons c q =>
          rw [seek, if_neg]
          rintro ⟨hn, -, hc⟩
          rcases hq with rfl | hq
          · exact hn rfl
          · exact hc hq
  | cons c f ih =>
      have hc : c ≠ 0 := hzero c (by simp)
      have hcolon' : c ≠ colon := fun h => hcolon (by simp [h])
      have hpos : lenOf platform ((c :: f).length + n) ≠ 0 := by
        rw [ne_eq, lenOf_eq_zero_iff hlength]
        simp
      have hnext : lenOf platform ((c :: f).length + n) - 1 = lenOf platform (f.length + n) := by
        rw [List.length_cons, Nat.add_right_comm]
        exact lenOf_sub_one (f.length + n)
      rw [List.cons_append, seek, if_pos ⟨hpos, hc, hcolon'⟩, hnext, isHex_eq,
        ih (fun c h => hzero c (by simp [h])) (List.not_mem_of_not_mem_cons hcolon)
          (by rw [List.length_cons] at hlength; omega)]
      simp only [List.forall_mem_cons]
      by_cases hhex : (digitValue c).isSome = true
      · by_cases hall : ∀ c ∈ f, (digitValue c).isSome = true
        · rw [if_pos hhex, if_pos hall, if_pos ⟨hhex, hall⟩]
          rfl
        · rw [if_pos hhex, if_neg hall, if_neg fun h => hall h.2]
          rfl
      · rw [if_neg hhex, if_neg fun h => hhex h.1]

def Parts.take (s : Parts) (f : List Byte) : Parts :=
  { s with
    dest := s.dest.store (2 * s.fieldNo) (digitBytes f)
    fieldNo := s.fieldNo + 1 }

theorem write_append {f q : List Byte} (s : Parts) (h : IsField f)
    (hq : digitValue (q.headD 0) = none) : s.write (f ++ q) = s.take f := by
  rw [Parts.write, hex_append hq _ h.digits, h.bytes]
  rfl

def Parts.mark (s : Parts) : Parts := { s with coloncolon := some s.fieldNo }

variable {missing n : ℕ} {s : Parts} {f r : List Byte}

theorem readParts_end : readParts missing s r (lenOf platform 0) = some s := by
  cases missing <;> rw [readParts, if_pos (Or.inl lenOf_zero)]

/-- Text that is left is an error once eight parts are read. -/
theorem readParts_ninth (hn : 0 < n) (hlength : n < 40) (hr : r.headD 0 ≠ 0) :
    readParts 0 s r (lenOf platform n) = none := by
  rw [readParts, if_neg]
  rintro (hzero | hzero)
  · exact hn.ne' ((lenOf_eq_zero_iff hlength).mp hzero)
  · exact hr hzero

theorem readParts_field {q : List Byte} (hzero : ∀ c ∈ f, c ≠ 0) (hcolon : colon ∉ f)
    (hlength : f.length + n < 40) (hsome : f ≠ [] ∨ 0 < n)
    (hq : n = 0 ∧ digitValue (q.headD 0) = none ∨ q.headD 0 = colon) :
    readParts (missing + 1) s (f ++ q) (lenOf platform (f.length + n)) =
      if IsField f then
        if n = 0 then some (s.take f)
        else if q.tail.headD 0 = colon then
          if s.coloncolon.isSome then none
          else readParts missing (s.take f).mark q.tail.tail (lenOf platform n - 2)
        else readParts missing (s.take f) q.tail (lenOf platform n - 1)
      else none := by
  have hlen : lenOf platform (f.length + n) ≠ 0 := by
    rw [ne_eq, lenOf_eq_zero_iff hlength, Nat.add_eq_zero_iff, List.length_eq_zero_iff]
    rintro ⟨rfl, rfl⟩
    rcases hsome with h | h
    · exact h rfl
    · exact Nat.lt_irrefl 0 h
  have hhead : (f ++ q).headD 0 ≠ 0 := by
    cases f with
    | nil =>
        rcases hq with ⟨hn, -⟩ | hq
        · simp [hn] at hsome
        · rw [List.nil_append, hq]
          decide
    | cons c f => exact hzero c (by simp)
  have hdigit : digitValue (q.headD 0) = none := by
    rcases hq with ⟨-, hq⟩ | hq
    · exact hq
    · rw [hq, digitValue_colon]
  rw [readParts, if_neg (not_or.mpr ⟨hlen, hhead⟩),
    seek_append hzero hcolon hlength (hq.imp_left And.left)]
  by_cases hall : ∀ c ∈ f, (digitValue c).isSome = true
  · rw [if_pos hall]
    by_cases hfour : f.length ≤ 4
    · have hfield : IsField f := ⟨hfour, hall⟩
      dsimp only
      rw [if_neg hfour.not_gt, if_pos hfield, write_append s hfield hdigit]
      by_cases hn : n = 0
      · subst hn
        rw [if_pos lenOf_zero, if_pos rfl]
        exact readParts_end
      · have hne : lenOf platform n ≠ 0 := by
          rwa [ne_eq, lenOf_eq_zero_iff (by omega)]
        have hqcolon : q.headD 0 = colon := hq.resolve_left fun h => hn h.1
        rw [if_neg hne, if_neg hn]
        simp only [hqcolon, true_and]
        rfl
    · dsimp only
      rw [if_pos (Nat.lt_of_not_le hfour), if_neg fun h : IsField f => hfour h.length]
  · rw [if_neg hall, if_neg fun h : IsField f => hall h.digits]

variable {t : List Byte}

theorem readParts_last (hne : f ≠ []) (hzero : ∀ c ∈ f, c ≠ 0) (hcolon : colon ∉ f)
    (hlength : f.length < 40) (hr : Stops r) :
    readParts (missing + 1) s (f ++ r) (lenOf platform f.length) =
      if IsField f then some (s.take f) else none := by
  have h : readParts (missing + 1) s (f ++ r) (lenOf platform (f.length + 0)) = _ :=
    readParts_field hzero hcolon hlength (Or.inl hne) (Or.inl ⟨rfl, hr.digit⟩)
  rwa [Nat.add_zero, if_pos rfl] at h

theorem readParts_single (hzero : ∀ c ∈ f, c ≠ 0) (hcolon : colon ∉ f)
    (hlength : (f ++ colon :: t).length < 40) (ht : t.head? ≠ some colon) (hr : Stops r) :
    readParts (missing + 1) s (f ++ colon :: t ++ r) (lenOf platform (f ++ colon :: t).length) =
      if IsField f then readParts missing (s.take f) (t ++ r) (lenOf platform t.length)
      else none := by
  have hnext : (t ++ r).headD 0 ≠ colon := by
    cases t with
    | nil => exact hr.colon
    | cons c t => exact fun h => ht (congrArg some h)
  rw [List.length_append, List.length_cons] at hlength ⊢
  rw [List.append_assoc, readParts_field hzero hcolon hlength (Or.inr (Nat.succ_pos _))
    (Or.inr rfl), if_neg (Nat.succ_ne_zero _)]
  simp only [List.cons_append, List.tail_cons, hnext, if_false, lenOf_sub_one]

theorem readParts_double (hzero : ∀ c ∈ f, c ≠ 0) (hcolon : colon ∉ f)
    (hlength : (f ++ colon :: colon :: t).length < 40) :
    readParts (missing + 1) s (f ++ colon :: colon :: t ++ r)
        (lenOf platform (f ++ colon :: colon :: t).length) =
      if IsField f ∧ s.coloncolon = none then
        readParts missing (s.take f).mark (t ++ r) (lenOf platform t.length)
      else none := by
  rw [List.length_append, List.length_cons, List.length_cons] at hlength ⊢
  rw [List.append_assoc, readParts_field hzero hcolon hlength (Or.inr (Nat.succ_pos _))
    (Or.inr rfl), if_neg (Nat.succ_ne_zero _)]
  simp only [List.cons_append, List.tail_cons, List.headD_cons, if_true, lenOf_sub_two]
  cases s.coloncolon <;> simp

def Parts.takeAll (s : Parts) (fs : List (List Byte)) : Parts := fs.foldl Parts.take s

def Parts.after (s : Parts) (head : List (List Byte)) : Option (List (List Byte)) → Parts
  | none => s.takeAll head
  | some tail => (s.takeAll head).mark.takeAll tail

/-- The parser goes through these fields without an error. -/
structure Goes (missing : ℕ) (s : Parts) (head : List (List Byte))
    (tail : Option (List (List Byte))) : Prop where
  fields : ∀ f ∈ head ++ tail.getD [], IsField f
  count : head.length + (tail.getD []).length ≤ missing
  once : tail.isSome = true → s.coloncolon = none

theorem Goes.rest {head : List (List Byte)} {tail : Option (List (List Byte))}
    (h : Goes (missing + 1) s (f :: head) tail) : Goes missing (s.take f) head tail where
  fields := fun g hg => h.fields g (List.mem_cons_of_mem _ hg)
  count := by
    have hcount := h.count
    rw [List.length_cons] at hcount
    omega
  once := h.once

theorem readParts_of_reads {head : List (List Byte)} {tail : Option (List (List Byte))}
    (h : Fields.Reads colon t head tail) (hzero : ∀ c ∈ t, c ≠ 0) (hlength : t.length < 40)
    (hr : Stops r) (hgoes : Goes missing s head tail) :
    readParts missing s (t ++ r) (lenOf platform t.length) = some (s.after head tail) := by
  induction h generalizing missing s with
  | nil => exact readParts_end
  | @last f hne hf =>
      cases missing with
      | zero => exact absurd hgoes.count (by simp)
      | succ missing =>
          rw [readParts_last hne hzero hf hlength hr, if_pos (hgoes.fields f (by simp))]
          rfl
  | @single f t head tail hf hhead _ ih =>
      cases missing with
      | zero => exact absurd hgoes.count (by simp)
      | succ missing =>
          rw [readParts_single (fun c hc => hzero c (by simp [hc])) hf hlength hhead hr,
            if_pos (hgoes.fields f (by simp)), ih (fun c hc => hzero c (by simp [hc]))
              (by rw [List.length_append, List.length_cons] at hlength; omega) hgoes.rest]
          cases tail <;> rfl
  | @double f t tail hf _ ih =>
      cases missing with
      | zero => exact absurd hgoes.count (by simp)
      | succ missing =>
          have hnext : Goes missing (s.take f).mark tail none := by
            refine ⟨fun g hg => hgoes.fields g ?_, ?_, nofun⟩
            · exact List.mem_append_right _ (by simpa using hg)
            · have hcount := hgoes.count
              simp only [List.length_singleton, Option.getD_some] at hcount
              simp only [Option.getD_none, List.length_nil]
              omega
          rw [readParts_double (fun c hc => hzero c (by simp [hc])) hf hlength,
            if_pos ⟨hgoes.fields f (by simp), hgoes.once rfl⟩,
            ih (fun c hc => hzero c (by simp [hc]))
              (by simp only [List.length_append, List.length_cons] at hlength; omega) hnext]
          rfl

theorem reads_of_readParts {out : Parts} (hzero : ∀ c ∈ t, c ≠ 0) (hlength : t.length < 40)
    (hr : Stops r)
    (h : readParts missing s (t ++ r) (lenOf platform t.length) = some out) :
    ∃ head tail, Fields.Reads colon t head tail ∧ Goes missing s head tail := by
  induction missing generalizing s t with
  | zero =>
      cases t with
      | nil => exact ⟨[], none, .nil, by simp, by simp, nofun⟩
      | cons c t =>
          have hc : (c :: t ++ r).headD 0 ≠ 0 := hzero c (by simp)
          cases (readParts_ninth (Nat.succ_pos _) hlength hc).symm.trans h
  | succ missing ih =>
      by_cases ht : t = []
      · subst ht
        exact ⟨[], none, .nil, by simp, by simp, nofun⟩
      rcases Fields.first_field colon t with hcolon | ⟨f, t, rfl, hcolon, hhead⟩ |
        ⟨f, t, rfl, hcolon⟩
      · rw [readParts_last ht hzero hcolon hlength hr] at h
        by_cases hf : IsField t
        · exact ⟨[t], none, .last ht hcolon, by simpa using hf, by simp, nofun⟩
        · rw [if_neg hf] at h
          cases h
      · rw [readParts_single (fun c hc => hzero c (by simp [hc])) hcolon hlength hhead hr] at h
        by_cases hf : IsField f
        · rw [if_pos hf] at h
          obtain ⟨head, tail, hreads, hgoes⟩ := ih (fun c hc => hzero c (by simp [hc]))
            (by rw [List.length_append, List.length_cons] at hlength; omega) h
          refine ⟨f :: head, tail, .single hcolon hhead hreads,
            List.forall_mem_cons.mpr ⟨hf, hgoes.fields⟩, ?_, hgoes.once⟩
          have hcount := hgoes.count
          rw [List.length_cons]
          omega
        · rw [if_neg hf] at h
          cases h
      · rw [readParts_double (fun c hc => hzero c (by simp [hc])) hcolon hlength] at h
        by_cases hf : IsField f ∧ s.coloncolon = none
        · rw [if_pos hf] at h
          obtain ⟨head, tail, hreads, hgoes⟩ := ih (fun c hc => hzero c (by simp [hc]))
            (by simp only [List.length_append, List.length_cons] at hlength; omega) h
          -- There is no other `::`.
          cases tail with
          | some tail => cases hgoes.once rfl
          | none =>
              refine ⟨[f], some head, .double hcolon hreads, ?_, ?_, fun _ => hf.2⟩
              · refine List.forall_mem_cons.mpr ⟨hf.1, fun g hg => ?_⟩
                exact hgoes.fields g (by simpa using hg)
              · have hcount := hgoes.count
                simp only [Option.getD_none, List.length_nil] at hcount
                simp only [List.length_singleton, Option.getD_some]
                omega
        · rw [if_neg hf] at h
          cases h

/-! ## The address -/

def fieldsBytes (fs : List (List Byte)) : List Byte := fs.flatMap digitBytes

theorem length_fieldsBytes (fs : List (List Byte)) : (fieldsBytes fs).length = 2 * fs.length := by
  induction fs with
  | nil => rfl
  | cons f fs ih =>
      rw [fieldsBytes, List.flatMap_cons, List.length_append, List.length_cons]
      change 2 + (fieldsBytes fs).length = _
      rw [ih]
      omega

@[simp] theorem Parts.mark_dest : s.mark.dest = s.dest := rfl

@[simp] theorem Parts.mark_fieldNo : s.mark.fieldNo = s.fieldNo := rfl

/-- What taking fields does. -/
structure Took (s out : Parts) (fs : List (List Byte)) : Prop where
  fieldNo : out.fieldNo = s.fieldNo + fs.length
  coloncolon : out.coloncolon = s.coloncolon
  dest : out.dest.load 0 (2 * out.fieldNo) = s.dest.load 0 (2 * s.fieldNo) ++ fieldsBytes fs

theorem took_takeAll (s : Parts) (fs : List (List Byte)) : Took s (s.takeAll fs) fs := by
  induction fs generalizing s with
  | nil => exact ⟨rfl, rfl, (List.append_nil _).symm⟩
  | cons f fs ih =>
      obtain ⟨hfieldNo, hcoloncolon, hdest⟩ := ih (s.take f)
      refine ⟨?_, hcoloncolon, ?_⟩
      · have htake : (s.take f).fieldNo = s.fieldNo + 1 := rfl
        rw [List.length_cons, Parts.takeAll, List.foldl_cons]
        exact hfieldNo.trans (by omega)
      · have htake : (s.take f).dest.load 0 (2 * (s.take f).fieldNo) =
            s.dest.load 0 (2 * s.fieldNo) ++ digitBytes f := by
          have h : (s.dest.store (0 + 2 * s.fieldNo) (digitBytes f)).load 0
              (2 * s.fieldNo + 2) = _ := Memory.load_store_append
          rwa [Nat.zero_add] at h
        exact hdest.trans (by rw [htake, List.append_assoc]; rfl)

theorem load_insertZeros {dest : Memory Byte} {head tail : List (List Byte)}
    (hdest : dest.load 0 (2 * (head.length + tail.length)) = fieldsBytes head ++ fieldsBytes tail)
    (hcount : head.length + tail.length ≤ 8) :
    (insertZeros dest (head.length + tail.length) head.length).load 0 16 =
      fieldsBytes head ++ List.replicate (2 * (8 - (head.length + tail.length))) 0 ++
        fieldsBytes tail := by
  have hhead := length_fieldsBytes head
  have htail := length_fieldsBytes tail
  obtain ⟨hfirst, hsecond⟩ : dest.load 0 (2 * head.length) = fieldsBytes head ∧
      dest.load (2 * head.length) (2 * tail.length) = fieldsBytes tail := by
    rw [Nat.mul_add, Memory.load_add, Nat.zero_add] at hdest
    exact List.append_inj hdest (by rw [Memory.length_load, hhead])
  have htailSize : 16 - 2 * head.length - 2 * (8 - (head.length + tail.length)) =
      2 * tail.length := by omega
  have hsize : 16 = 2 * head.length + 2 * (8 - (head.length + tail.length)) + 2 * tail.length := by
    omega
  dsimp only [insertZeros, clear, memmove]
  rw [htailSize, hsecond]
  conv_lhs => rw [hsize, Memory.load_add, Memory.load_add, Nat.zero_add]
  congr 1
  · congr 1
    · rw [Memory.load_store_of_disjoint (Or.inr (by simp)),
        Memory.load_store_of_disjoint (Or.inr (by simp)), hfirst]
    · exact Memory.load_store List.length_replicate
  · rw [Memory.load_store_of_disjoint (Or.inl (by simp)), Nat.zero_add]
    exact Memory.load_store htail

/-- The address of the fields, if there are as many as there should be. -/
def fieldsAddress (head : List (List Byte)) : Option (List (List Byte)) → Option (List Byte)
  | none => if head.length = 8 then some (fieldsBytes head) else none
  | some tail =>
      if head.length + tail.length ≤ 8 then
        some (fieldsBytes head ++ List.replicate (2 * (8 - (head.length + tail.length))) 0 ++
          fieldsBytes tail)
      else none

variable {head : List (List Byte)} {tail : Option (List (List Byte))} {dest : Memory Byte}

/-- `stoip6` gives the address of the fields. -/
theorem stoip6_of_reads {a : List Byte} (h : Fields.Reads colon t head tail)
    (hzero : ∀ c ∈ t, c ≠ 0) (hlength : t.length < 40) (hr : Stops r)
    (hfields : ∀ f ∈ head ++ tail.getD [], IsField f) (ha : fieldsAddress head tail = some a) :
    (stoip6 (t ++ r) (lenOf platform t.length) dest).1 = true ∧
      (stoip6 (t ++ r) (lenOf platform t.length) dest).2.load 0 16 = a := by
  have hshort : ¬ (lenOf platform t.length).toNat ≥ 40 := by
    rw [toNat_lenOf hlength]
    exact hlength.not_ge
  cases tail with
  | none =>
      have hcount : head.length = 8 := by
        by_contra hne
        simp [fieldsAddress, hne] at ha
      rw [fieldsAddress, if_pos hcount] at ha
      cases ha
      have hread : readParts 8 ⟨dest, 0, none⟩ (t ++ r) (lenOf platform t.length) =
          some (Parts.after ⟨dest, 0, none⟩ head none) :=
        readParts_of_reads h hzero hlength hr ⟨hfields, by simp [hcount], nofun⟩
      obtain ⟨hfieldNo, hcoloncolon, hdest⟩ := took_takeAll ⟨dest, 0, none⟩ head
      rw [hfieldNo, Nat.zero_add, hcount] at hdest
      rw [stoip6, if_neg hshort, hread]
      dsimp only [Parts.after]
      rw [hcoloncolon, hfieldNo]
      simp only [Nat.zero_add, hcount, ne_eq, not_true, if_false]
      exact ⟨trivial, hdest⟩
  | some tail =>
      have hcount : head.length + tail.length ≤ 8 := by
        by_contra hne
        simp [fieldsAddress, hne] at ha
      rw [fieldsAddress, if_pos hcount] at ha
      cases ha
      have hread : readParts 8 ⟨dest, 0, none⟩ (t ++ r) (lenOf platform t.length) =
          some (Parts.after ⟨dest, 0, none⟩ head (some tail)) :=
        readParts_of_reads h hzero hlength hr ⟨hfields, hcount, fun _ => rfl⟩
      obtain ⟨hfieldNo, -, hdest⟩ := took_takeAll ⟨dest, 0, none⟩ head
      obtain ⟨hfieldNo', hcoloncolon', hdest'⟩ :=
        took_takeAll ((Parts.takeAll ⟨dest, 0, none⟩ head).mark) tail
      rw [Parts.mark_fieldNo, hfieldNo, Nat.zero_add] at hfieldNo'
      have hmark : (Parts.takeAll ⟨dest, 0, none⟩ head).mark.coloncolon = some head.length := by
        rw [Parts.mark, hfieldNo, Nat.zero_add]
      rw [Parts.mark_dest, Parts.mark_fieldNo, hdest, hfieldNo'] at hdest'
      rw [stoip6, if_neg hshort, hread]
      dsimp only [Parts.after]
      rw [hcoloncolon', hmark, hfieldNo']
      exact ⟨rfl, load_insertZeros hdest' hcount⟩

theorem reads_of_stoip6 (hzero : ∀ c ∈ t, c ≠ 0) (hlength : t.length < 40) (hr : Stops r)
    (h : (stoip6 (t ++ r) (lenOf platform t.length) dest).1 = true) :
    ∃ head tail a, Fields.Reads colon t head tail ∧ (∀ f ∈ head ++ tail.getD [], IsField f) ∧
      fieldsAddress head tail = some a := by
  cases hread : readParts 8 ⟨dest, 0, none⟩ (t ++ r) (lenOf platform t.length) with
  | none =>
      rw [stoip6, hread] at h
      split at h <;> cases h
  | some out =>
      obtain ⟨head, tail, hreads, hgoes⟩ := reads_of_readParts hzero hlength hr hread
      have hout : readParts 8 ⟨dest, 0, none⟩ (t ++ r) (lenOf platform t.length) =
          some (Parts.after ⟨dest, 0, none⟩ head tail) :=
        readParts_of_reads hreads hzero hlength hr hgoes
      cases hread.symm.trans hout
      cases tail with
      | some tail =>
          exact ⟨head, some tail, _, hreads, hgoes.fields, if_pos hgoes.count⟩
      | none =>
          obtain ⟨hfieldNo, hcoloncolon, -⟩ := took_takeAll ⟨dest, 0, none⟩ head
          have hcount : head.length = 8 := by
            by_contra hne
            rw [stoip6, hread] at h
            dsimp only [Parts.after] at h
            rw [hcoloncolon, hfieldNo] at h
            simp only [Nat.zero_add, ne_eq, hne, not_false_iff, if_true] at h
            split at h <;> cases h
          exact ⟨head, none, _, hreads, hgoes.fields, if_pos hcount⟩

theorem load_of_error {p : List Byte} {len : platform.Size} (h : (stoip6 p len dest).1 = false) :
    (stoip6 p len dest).2.load 0 16 = List.replicate 16 0 := by
  have herror : ∀ dest : Memory Byte,
      (clear dest 0 16).load 0 16 = List.replicate 16 0 := fun _ =>
    Memory.load_store List.length_replicate
  revert h
  rw [stoip6]
  split
  · exact fun _ => herror dest
  · split
    · exact fun _ => herror dest
    · split
      · exact fun h => nomatch h
      · split
        · exact fun _ => herror _
        · exact fun h => nomatch h

end

end OpenIotSdk.Netsocket
