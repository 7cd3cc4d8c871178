import OpenIotSdk.Library.Fields
import OpenIotSdk.Model.Netsocket.AddressReads
import Mathlib.Algebra.Group.Nat.Defs
import Mathlib.Data.List.TakeWhile

/-! # The texts that `stoip4` takes

Four decimal numbers with dots between them, up to the end of the text or the first null character
behind them. The parser takes these and no others, and reads nothing behind the text. -/

namespace OpenIotSdk.Netsocket

open Fields (joined)

abbrev dot : Byte := ascii '.'

/-! ## The grammar -/

/-- One or more decimal digits, of a value that fits in a byte. -/
structure DecimalNumber where
  digits : List Byte
  nonempty : digits ≠ []
  decimal : ∀ c ∈ digits, isDecimal c = true
  small : decimalValue digits ≤ 0xff

def DecimalNumber.byte (n : DecimalNumber) : Byte := BitVec.ofNat 8 (decimalValue n.digits)

/-- So many numbers with single dots between them, and nothing behind them or a null character;
and the bytes that they denote. -/
inductive Dotted (count : ℕ) : List Byte → List Byte → Prop where
  | intro (numbers : List DecimalNumber) (rest : List Byte) : numbers.length = count →
      rest.headD 0 = 0 →
      Dotted count (joined dot (numbers.map DecimalNumber.digits) ++ rest)
        (numbers.map DecimalNumber.byte)

variable {byte byteCount left missing : ℕ} {p rest addr : List Byte} {dest : Memory Byte}

theorem dotted_one (n : DecimalNumber) (h : rest.headD 0 = 0) :
    Dotted 1 (n.digits ++ rest) [n.byte] := .intro [n] rest rfl h

theorem Dotted.cons (n : DecimalNumber) (h : Dotted (missing + 1) rest addr) :
    Dotted (missing + 1 + 1) (n.digits ++ dot :: rest) (n.byte :: addr) := by
  obtain ⟨numbers, rest, hlength, hrest⟩ := h
  have hne : numbers.map DecimalNumber.digits ≠ [] := by
    rw [ne_eq, List.map_eq_nil_iff]
    rintro rfl
    cases hlength
  have hdotted := Dotted.intro (n :: numbers) rest (congrArg Nat.succ hlength) hrest
  rwa [List.map_cons, Fields.joined_cons hne, List.append_assoc] at hdotted

theorem Dotted.first {text : List Byte} (h : Dotted (missing + 1) text addr) :
    ∃ (n : DecimalNumber) (rest : List Byte), text = n.digits ++ rest ∧
      (missing = 0 → rest.headD 0 = 0 ∧ addr = [n.byte]) ∧
      (missing ≠ 0 → ∃ rest' addr', rest = dot :: rest' ∧ addr = n.byte :: addr' ∧
        Dotted missing rest' addr') := by
  obtain ⟨numbers, rest, hlength, hrest⟩ := h
  match numbers, hlength with
  | [n], hlength =>
      refine ⟨n, rest, rfl, fun _ => ⟨hrest, rfl⟩, fun hne => ?_⟩
      exact absurd (Nat.succ.inj hlength).symm hne
  | n :: n' :: numbers, hlength =>
      have hcount : (n' :: numbers).length = missing := Nat.succ.inj hlength
      refine ⟨n, dot :: (joined dot ((n' :: numbers).map DecimalNumber.digits) ++ rest), ?_,
        fun hzero => ?_, fun _ => ?_⟩
      · rw [List.map_cons, List.map_cons, joined, List.append_assoc]
        rfl
      · rw [hzero] at hcount
        cases hcount
      · exact ⟨_, _, rfl, rfl, .intro (n' :: numbers) rest hcount hrest⟩

/-! ## Digits -/

/-- The value of digits behind others of the value `byte`. -/
def valueFrom (byte : ℕ) (digits : List Byte) : ℕ :=
  digits.foldl (fun value c => 10 * value + (c - ascii '0').toNat) byte

@[simp] theorem valueFrom_cons (c : Byte) (digits : List Byte) :
    valueFrom byte (c :: digits) = valueFrom (10 * byte + (c - ascii '0').toNat) digits := rfl

theorem le_valueFrom (digits : List Byte) : byte ≤ valueFrom byte digits := by
  induction digits generalizing byte with
  | nil => exact Nat.le_refl byte
  | cons c digits ih =>
      rw [valueFrom_cons]
      exact Nat.le_trans (by omega) ih

/-- The digits at the start of a text. -/
def leading (text : List Byte) : List Byte := text.takeWhile isDecimal

theorem leading_append {text rest : List Byte} (h : ∀ c ∈ text, isDecimal c = true)
    (hrest : isDecimal (rest.headD 0) = false) : leading (text ++ rest) = text := by
  rw [leading, List.takeWhile_append_of_pos h]
  cases rest with
  | nil => exact List.append_nil text
  | cons c rest => rw [List.takeWhile_cons_of_neg (by simpa using hrest), List.append_nil]

theorem leading_eq_nil_iff {text : List Byte} :
    leading text = [] ↔ isDecimal (text.headD 0) = false := by
  cases text with
  | nil => exact iff_of_true rfl (by decide)
  | cons c text =>
      rw [leading, List.takeWhile_cons]
      cases hc : isDecimal c <;> simp [hc]

theorem digit_stop {c : Byte} (h : c = 0 ∨ c = dot) : isDecimal c = false := by
  rcases h with rfl | rfl <;> decide

/-! ## Numbers that are printed -/

theorem isDecimal_ascii {c : Char} (h : c.isDigit = true) :
    isDecimal (ascii c) = true ∧ (ascii c - ascii '0').toNat = c.toNat - '0'.toNat := by
  have hall : ∀ n < 58, 48 ≤ n → isDecimal (BitVec.ofNat 8 n) = true ∧
      (BitVec.ofNat 8 n - ascii '0').toNat = n - '0'.toNat := by decide
  rw [Char.isDigit, Bool.and_eq_true, decide_eq_true_eq, decide_eq_true_eq] at h
  exact hall c.toNat (Nat.lt_succ_of_le h.2) h.1

theorem toDigits_decimal (value : ℕ) :
    ∀ c ∈ (Nat.toDigits 10 value).map ascii, isDecimal c = true := by
  intro c hc
  obtain ⟨d, hd, rfl⟩ := List.mem_map.mp hc
  exact (isDecimal_ascii (Nat.isDigit_of_mem_toDigits (by decide) (by decide) hd)).1

theorem valueFrom_ascii {digits : List Char} (h : ∀ c ∈ digits, c.isDigit = true) :
    valueFrom byte (digits.map ascii) = Nat.ofDigitChars 10 digits byte := by
  induction digits generalizing byte with
  | nil => exact Nat.ofDigitChars_nil.symm
  | cons c digits ih =>
      obtain ⟨hc, hdigits⟩ := List.forall_mem_cons.mp h
      rw [List.map_cons, valueFrom_cons, (isDecimal_ascii hc).2, ih hdigits, Nat.ofDigitChars_cons]

theorem decimalValue_toDigits (value : ℕ) :
    decimalValue ((Nat.toDigits 10 value).map ascii) = value := by
  have hdigits : ∀ c ∈ Nat.toDigits 10 value, c.isDigit = true := fun c hc =>
    Nat.isDigit_of_mem_toDigits (by decide) (by decide) hc
  exact (valueFrom_ascii hdigits).trans Nat.ofDigitChars_ten_toDigits

/-- The number that `ip4tos` prints for a byte. -/
def byteNumber (byte : Byte) : DecimalNumber where
  digits := ipv4ToString byte
  nonempty := by simp [ipv4ToString]
  decimal := toDigits_decimal byte.toNat
  small := by
    rw [ipv4ToString, decimalValue_toDigits]
    exact Nat.le_of_lt_succ byte.isLt

theorem byteNumber_byte (byte : Byte) : (byteNumber byte).byte = byte := by
  change BitVec.ofNat 8 (decimalValue ((Nat.toDigits 10 byte.toNat).map ascii)) = byte
  rw [decimalValue_toDigits, BitVec.ofNat_toNat, BitVec.setWidth_eq]

theorem ip4tos_eq (addr : List Byte) :
    ip4tos addr = joined dot (addr.map ipv4ToString) ++ [0] := by
  induction addr using ip4tos.induct with
  | case1 => rfl
  | case2 byte => rfl
  | case3 byte addr haddr ih =>
      have hne : addr.map ipv4ToString ≠ [] := by simpa using haddr
      rw [ip4tos.eq_3 _ _ haddr, ih, List.map_cons, Fields.joined_cons hne, List.append_assoc]
      rfl

/-- `ip4tos` prints the text of an address. -/
theorem dotted_ip4tos (addr : List Byte) :
    Dotted addr.length (joined dot (addr.map ipv4ToString)) addr := by
  have h := Dotted.intro (addr.map byteNumber) [] (List.length_map _) rfl
  have hdigits : (addr.map byteNumber).map DecimalNumber.digits = addr.map ipv4ToString :=
    List.map_map
  have hbytes : (addr.map byteNumber).map DecimalNumber.byte = addr := by
    rw [List.map_map]
    exact List.map_id'' byteNumber_byte addr
  rwa [hdigits, hbytes, List.append_nil] at h

/-! ## The loops -/

theorem component_eq (h : byte ≤ 0xff) :
    component byte left p =
      if valueFrom byte (leading (p.take left)) ≤ 0xff then
        some (valueFrom byte (leading (p.take left)), left - (leading (p.take left)).length,
          p.drop (leading (p.take left)).length)
      else none := by
  induction left generalizing byte p with
  | zero => exact (if_pos h).symm
  | succ left ih =>
      cases p with
      | nil => exact (if_pos h).symm
      | cons c p =>
          rw [component, List.take_succ_cons, leading, List.takeWhile_cons]
          by_cases hc : isDecimal c = true
          · rw [if_pos hc, if_pos hc]
            change _ = if valueFrom byte (c :: leading (p.take left)) ≤ 0xff then _ else _
            rw [valueFrom_cons]
            dsimp only
            by_cases hbyte : 10 * byte + (c - ascii '0').toNat ≤ 0xff
            · rw [if_neg hbyte.not_gt, ih hbyte, List.length_cons, List.drop_succ_cons,
                Nat.add_sub_add_right]
              rfl
            · have hover :
                  10 * byte + (c - ascii '0').toNat ≤ valueFrom _ (leading (p.take left)) :=
                le_valueFrom _
              rw [if_pos (Nat.lt_of_not_le hbyte), if_neg (by omega)]
          · rw [if_neg hc, if_neg hc]
            exact (if_pos h).symm

theorem headD_take (left : ℕ) (p : List Byte) :
    (p.take left).headD 0 = if left = 0 then 0 else p.headD 0 := by
  cases left with
  | zero => rfl
  | succ left => cases p <;> rfl

theorem number_or_not (text : List Byte) :
    (leading text = [] ∨ 0xff < decimalValue (leading text)) ∨
      ∃ (n : DecimalNumber) (rest : List Byte), text = n.digits ++ rest ∧
        isDecimal (rest.headD 0) = false := by
  by_cases hnone : leading text = [] ∨ 0xff < decimalValue (leading text)
  · exact Or.inl hnone
  · obtain ⟨hne, hsmall⟩ := not_or.mp hnone
    have hrest : isDecimal ((text.dropWhile isDecimal).headD 0) = false := by
      have hnot := List.head?_dropWhile_not isDecimal text
      cases hhead : text.dropWhile isDecimal with
      | nil => decide
      | cons c rest =>
          rw [hhead] at hnot
          exact hnot
    exact Or.inr ⟨⟨leading text, hne, fun c => List.mem_takeWhile_imp, Nat.le_of_not_lt hsmall⟩,
      text.dropWhile isDecimal, List.takeWhile_append_dropWhile.symm, hrest⟩

theorem start_iff :
    (left = 0 ∨ (!isDecimal (p.headD 0)) = true) ↔ leading (p.take left) = [] := by
  rw [leading_eq_nil_iff]
  cases left with
  | zero => exact iff_of_true (Or.inl rfl) rfl
  | succ left => cases p <;> simp

/-- Where there is no number, the parser fails before it writes anything. -/
theorem components_none
    (h : leading (p.take left) = [] ∨ 0xff < decimalValue (leading (p.take left))) :
    components (missing + 1) byteCount left p dest = (false, dest) := by
  rw [components.eq_2]
  by_cases hdigits : leading (p.take left) = []
  · rw [if_pos (start_iff.mpr hdigits)]
  · have hvalue : ¬ valueFrom 0 (leading (p.take left)) ≤ 0xff := (h.resolve_left hdigits).not_ge
    rw [if_neg (start_iff.not.mpr hdigits), component_eq (Nat.zero_le _), if_neg hvalue]

theorem components_number {n : DecimalNumber} (htext : p.take left = n.digits ++ rest)
    (hrest : isDecimal (rest.headD 0) = false) :
    components (missing + 1) byteCount left p dest =
      if missing = 0 then (decide (rest.headD 0 = 0), dest.store byteCount [n.byte])
      else if rest.headD 0 = dot then
        components missing (byteCount + 1) (left - n.digits.length - 1)
          (p.drop (n.digits.length + 1)) (dest.store byteCount [n.byte])
      else (false, dest.store byteCount [n.byte]) := by
  have hdigits : leading (p.take left) = n.digits := by rw [htext, leading_append n.decimal hrest]
  have hvalue : valueFrom 0 n.digits ≤ 0xff := n.small
  have hbehind : (p.drop n.digits.length).take (left - n.digits.length) = rest := by
    rw [← List.drop_take, htext, List.drop_left]
  have hhead := headD_take (left - n.digits.length) (p.drop n.digits.length)
  rw [hbehind] at hhead
  have hend : (left - n.digits.length = 0 ∨ (p.drop n.digits.length).headD 0 = 0) ↔
      rest.headD 0 = 0 := by
    rw [hhead]
    split
    · next hleft => exact iff_of_true (Or.inl hleft) rfl
    · next hleft => exact or_iff_right hleft
  have hdot : (left - n.digits.length = 0 ∨ (p.drop n.digits.length).headD 0 ≠ dot) ↔
      rest.headD 0 ≠ dot := by
    rw [hhead]
    split
    · next hleft => exact iff_of_true (Or.inl hleft) (by decide)
    · next hleft => exact or_iff_right hleft
  rw [components.eq_2, if_neg (start_iff.not.mpr (hdigits ▸ n.nonempty)),
    component_eq (Nat.zero_le _), hdigits, if_pos hvalue]
  dsimp only
  rw [components.eq_1, List.tail_drop]
  by_cases hmissing : missing = 0
  · simp only [if_pos hmissing, hend]
    rfl
  · by_cases hnext : rest.headD 0 = dot
    · rw [if_neg hmissing, if_neg hmissing, if_neg (hdot.not.mpr (not_not.mpr hnext)), if_pos hnext]
      rfl
    · rw [if_neg hmissing, if_neg hmissing, if_pos (hdot.mpr hnext), if_neg hnext]
      rfl

/-! ## The parser -/

theorem take_behind {n : DecimalNumber} (htext : p.take left = n.digits ++ dot :: rest) :
    (p.drop (n.digits.length + 1)).take (left - n.digits.length - 1) = rest := by
  rw [Nat.sub_sub, ← List.drop_take, htext, ← List.drop_drop, List.drop_left]
  rfl

theorem load_next (dest : Memory Byte) (byte : Byte) {n : ℕ} :
    (dest.store n [byte]).load 0 (n + 1) = dest.load 0 n ++ [byte] := by
  have h : (dest.store (0 + n) [byte]).load 0 (n + 1) = _ := Memory.load_store_append
  rwa [Nat.zero_add] at h

/-- A text of so many numbers is taken, and their bytes are written. -/
theorem components_of_dotted (h : Dotted (missing + 1) (p.take left) addr) :
    (components (missing + 1) byteCount left p dest).1 = true ∧
      (components (missing + 1) byteCount left p dest).2.load 0 (byteCount + (missing + 1)) =
        dest.load 0 byteCount ++ addr := by
  induction missing generalizing byteCount left p dest addr with
  | zero =>
      obtain ⟨n, rest, htext, hlast, -⟩ := h.first
      obtain ⟨hend, rfl⟩ := hlast rfl
      rw [components_number htext (digit_stop (Or.inl hend)), if_pos rfl]
      exact ⟨decide_eq_true hend, load_next dest n.byte⟩
  | succ missing ih =>
      obtain ⟨n, rest, htext, -, hnext⟩ := h.first
      obtain ⟨rest', addr', rfl, rfl, hdotted⟩ := hnext (Nat.succ_ne_zero missing)
      rw [components_number htext (digit_stop (Or.inr rfl)), if_neg (Nat.succ_ne_zero missing),
        List.headD_cons, if_pos rfl]
      rw [← take_behind htext] at hdotted
      obtain ⟨hok, hload⟩ := @ih (byteCount + 1) _ _ _ (dest.store byteCount [n.byte]) hdotted
      refine ⟨hok, ?_⟩
      rw [load_next, List.append_assoc] at hload
      rw [Nat.add_comm (missing + 1), ← Nat.add_assoc]
      exact hload

theorem dotted_of_components (h : (components (missing + 1) byteCount left p dest).1 = true) :
    ∃ addr, Dotted (missing + 1) (p.take left) addr := by
  induction missing generalizing byteCount left p dest with
  | zero =>
      rcases number_or_not (p.take left) with hnone | ⟨n, rest, htext, hrest⟩
      · rw [components_none hnone] at h
        cases h
      · rw [components_number htext hrest, if_pos rfl] at h
        rw [htext]
        exact ⟨[n.byte], dotted_one n (of_decide_eq_true h)⟩
  | succ missing ih =>
      rcases number_or_not (p.take left) with hnone | ⟨n, rest, htext, hrest⟩
      · rw [components_none hnone] at h
        cases h
      · rw [components_number htext hrest, if_neg (Nat.succ_ne_zero missing)] at h
        by_cases hdot : rest.headD 0 = dot
        · rw [if_pos hdot] at h
          obtain ⟨rest', rfl⟩ : ∃ rest', rest = dot :: rest' := by
            cases rest with
            | nil => exact absurd hdot (by decide)
            | cons c rest => exact ⟨rest, by rw [show c = dot from hdot]⟩
          obtain ⟨addr, hdotted⟩ := ih h
          rw [take_behind htext] at hdotted
          rw [htext]
          exact ⟨n.byte :: addr, hdotted.cons n⟩
        · rw [if_neg hdot] at h
          cases h

theorem components_outside {x : ℕ} (h : x < byteCount ∨ byteCount + missing ≤ x) :
    (components missing byteCount left p dest).2 x = dest x := by
  induction missing generalizing byteCount left p dest with
  | zero => rw [components.eq_1]
  | succ missing ih =>
      rcases number_or_not (p.take left) with hnone | ⟨n, rest, htext, hrest⟩
      · rw [components_none hnone]
      · have hstore : dest.store byteCount [n.byte] x = dest x := by
          refine Memory.store_outside fun hin => ?_
          have hlow : byteCount ≤ x := hin.1
          have hhigh : x < byteCount + 1 := hin.2
          omega
        rw [components_number htext hrest]
        by_cases hmissing : missing = 0
        · rw [if_pos hmissing]
          exact hstore
        · rw [if_neg hmissing]
          by_cases hdot : rest.headD 0 = dot
          · rw [if_pos hdot, ih (by omega)]
            exact hstore
          · rw [if_neg hdot]
            exact hstore

theorem components_congr {p' : List Byte} (h : p.take left = p'.take left) :
    components missing byteCount left p dest = components missing byteCount left p' dest := by
  induction missing generalizing byteCount left p p' dest with
  | zero =>
      have hhead := headD_take left p
      rw [h, headD_take] at hhead
      rw [components.eq_1, components.eq_1]
      by_cases hleft : left = 0
      · simp [hleft]
      · rw [if_neg hleft, if_neg hleft] at hhead
        rw [hhead]
  | succ missing ih =>
      rcases number_or_not (p.take left) with hnone | ⟨n, rest, htext, hrest⟩
      · rw [components_none hnone, components_none (h ▸ hnone)]
      · rw [components_number htext hrest, components_number (h ▸ htext) hrest, ih]
        rw [Nat.sub_sub, ← List.drop_take, ← List.drop_take, h]

/-! ## What is read -/

theorem component_left {byte' left' : ℕ} {q : List Byte}
    (h : component byte left p = some (byte', left', q)) : left' ≤ left := by
  induction left generalizing byte p with
  | zero =>
      rw [component] at h
      cases h
      exact Nat.le_refl 0
  | succ left ih =>
      cases p with
      | nil =>
          rw [component] at h
          cases h
          exact Nat.le_refl _
      | cons c p =>
          rw [component] at h
          by_cases hc : isDecimal c = true
          · rw [if_pos hc] at h
            dsimp only at h
            split at h
            · cases h
            · exact Nat.le_succ_of_le (ih h)
          · rw [if_neg hc] at h
            cases h
            exact Nat.le_refl _

theorem componentReads_le : componentReads byte left p ≤ left := by
  induction left generalizing byte p with
  | zero => exact Nat.le_refl 0
  | succ left ih =>
      cases p with
      | nil => exact Nat.succ_le_succ (Nat.zero_le left)
      | cons c p =>
          rw [componentReads]
          dsimp only
          split_ifs
          · exact Nat.succ_le_succ (Nat.zero_le left)
          · exact Nat.succ_le_succ ih
          · exact Nat.succ_le_succ (Nat.zero_le left)

theorem componentsReads_le : componentsReads missing left p ≤ left := by
  induction missing generalizing left p with
  | zero =>
      rw [componentsReads]
      split <;> omega
  | succ missing ih =>
      rw [componentsReads]
      have hreads : componentReads 0 left p ≤ left := componentReads_le
      split
      · exact Nat.zero_le left
      · split
        · omega
        · dsimp only
          cases hcomponent : component 0 left p with
          | none => exact hreads
          | some out =>
              obtain ⟨byte, rest, q⟩ := out
              have hrest := component_left hcomponent
              have hlast : componentsReads 0 rest q ≤ rest := by
                rw [componentsReads]
                split <;> omega
              have hnext : componentsReads missing (rest - 1) q.tail ≤ rest - 1 := ih
              dsimp only
              split_ifs <;> omega

/-- `stoip4` takes four numbers with single dots between them, up to the end of the text or the
first null character behind them, in 16 characters at most. It writes their bytes and no others,
and neither reads nor depends on what is behind the text. -/
theorem stoip4_parses (ip4addr : List Byte) (len : ℕ) (dest : Memory Byte) :
    let out := stoip4 ip4addr len dest
    (out.1 = true ↔ len ≤ 16 ∧ ∃ addr, Dotted 4 (ip4addr.take len) addr) ∧
    (out.1 = true → Dotted 4 (ip4addr.take len) (out.2.load 0 4)) ∧
    (∀ x, 4 ≤ x → out.2 x = dest x) ∧
    stoip4Reads ip4addr len ≤ len ∧
    ∀ other : List Byte, other.take len = ip4addr.take len → stoip4 other len dest = out := by
  dsimp only
  rcases Nat.lt_or_ge 16 len with hlong | hshort
  · have hfail : ∀ p, stoip4 p len dest = (false, dest) := fun p => if_pos hlong
    have hreads : stoip4Reads ip4addr len = 0 := if_pos hlong
    rw [hfail, hreads]
    refine ⟨iff_of_false Bool.false_ne_true fun h => hlong.not_ge h.1, fun h => ?_, fun _ _ => rfl,
      Nat.zero_le len, fun other _ => hfail other⟩
    cases h
  · have hloop : ∀ p, stoip4 p len dest = components 4 0 len p dest := fun p =>
      if_neg hshort.not_gt
    have hreads : stoip4Reads ip4addr len = componentsReads 4 len ip4addr := if_neg hshort.not_gt
    rw [hloop, hreads]
    refine ⟨⟨fun h => ⟨hshort, ?_⟩, ?_⟩, fun h => ?_, fun x hx => ?_, componentsReads_le,
      fun other hother => ?_⟩
    · exact dotted_of_components h
    · rintro ⟨-, addr, hdotted⟩
      exact (components_of_dotted hdotted).1
    · obtain ⟨addr, hdotted⟩ := dotted_of_components h
      exact (components_of_dotted hdotted).2 ▸ hdotted
    · exact components_outside (Or.inr hx)
    · rw [hloop, components_congr hother]

end OpenIotSdk.Netsocket
