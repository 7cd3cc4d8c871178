import OpenIotSdk.Model.Netsocket.AddressReads
import OpenIotSdk.Verification.Netsocket.Ipv6Grammar

/-! # Addresses of an explicit length

`stoip6` is told how long the text is, but `hex` is not: a group that ends with the text is read on
behind it, and so is a single ':' there. -/

namespace OpenIotSdk.Netsocket

/-- The text ends in a group or at a single ':', with `missing` groups still missing before it. -/
inductive RunsOver : (missing : ℕ) → (coloncolon : Bool) → List Byte → Prop where
  | group {missing coloncolon f} : f ≠ [] → IsField f → RunsOver (missing + 1) coloncolon f
  | colon {missing coloncolon f} : IsField f → RunsOver (missing + 1) coloncolon (f ++ [colon])
  | single {missing coloncolon f c t} : IsField f → c ≠ colon →
      RunsOver missing coloncolon (c :: t) →
      RunsOver (missing + 1) coloncolon (f ++ colon :: c :: t)
  | double {missing f t} : IsField f → RunsOver missing true t →
      RunsOver (missing + 1) false (f ++ colon :: colon :: t)
  | null {missing coloncolon f t} : f ≠ [] → IsField f → RunsOver missing coloncolon t →
      RunsOver (missing + 1) coloncolon (f ++ 0 :: t)

/-- The parse is decided within the text. -/
inductive Stays : (missing : ℕ) → (coloncolon : Bool) → List Byte → Prop where
  | ended {missing coloncolon t} : t.headD 0 = 0 → Stays missing coloncolon t
  | ninth {coloncolon t} : Stays 0 coloncolon t
  | long {missing coloncolon f q} : (∀ c ∈ f, (digitValue c).isSome = true) → 4 < f.length →
      q.headD 0 = 0 ∨ q.headD 0 = colon → Stays (missing + 1) coloncolon (f ++ q)
  | other {missing coloncolon f c t} : (∀ c ∈ f, (digitValue c).isSome = true) →
      digitValue c = none → c ≠ 0 → c ≠ colon → Stays (missing + 1) coloncolon (f ++ c :: t)
  | single {missing coloncolon f c t} : IsField f → c ≠ colon →
      Stays missing coloncolon (c :: t) → Stays (missing + 1) coloncolon (f ++ colon :: c :: t)
  | double {missing f t} : IsField f → Stays missing true t →
      Stays (missing + 1) false (f ++ colon :: colon :: t)
  | twice {missing f t} : IsField f → Stays (missing + 1) true (f ++ colon :: colon :: t)
  | null {missing coloncolon f t} : f ≠ [] → IsField f → Stays missing coloncolon t →
      Stays (missing + 1) coloncolon (f ++ 0 :: t)

/-! ## The two kinds of texts -/

theorem exists_digits (t : List Byte) : ∃ f q, t = f ++ q ∧
    (∀ c ∈ f, (digitValue c).isSome = true) ∧ digitValue (q.headD 0) = none := by
  induction t with
  | nil => exact ⟨[], [], rfl, by simp, digitValue_zero⟩
  | cons c t ih =>
      cases hc : digitValue c with
      | none => exact ⟨[], c :: t, rfl, by simp, hc⟩
      | some digit =>
          obtain ⟨f, q, rfl, hf, hq⟩ := ih
          refine ⟨c :: f, q, rfl, ?_, hq⟩
          exact List.forall_mem_cons.mpr ⟨by rw [hc]; rfl, hf⟩

theorem runsOver_or_stays (missing : ℕ) (coloncolon : Bool) (t : List Byte) :
    RunsOver missing coloncolon t ∨ Stays missing coloncolon t := by
  induction missing generalizing coloncolon t with
  | zero => exact Or.inr .ninth
  | succ missing ih =>
      obtain ⟨f, q, rfl, hf, hq⟩ := exists_digits t
      by_cases hstop : q.headD 0 = 0 ∨ q.headD 0 = colon
      · by_cases hfour : f.length ≤ 4
        · have hfield : IsField f := ⟨hfour, hf⟩
          cases q with
          | nil =>
              rw [List.append_nil]
              by_cases hne : f = []
              · exact Or.inr (.ended (by rw [hne]; rfl))
              · exact Or.inl (.group hne hfield)
          | cons c q =>
              rcases hstop with rfl | rfl
              · by_cases hne : f = []
                · exact Or.inr (.ended (by rw [hne]; rfl))
                · exact (ih coloncolon q).imp (.null hne hfield) (.null hne hfield)
              · cases q with
                | nil => exact Or.inl (.colon hfield)
                | cons d q =>
                    by_cases hd : d = colon
                    · subst hd
                      cases coloncolon with
                      | false => exact (ih true q).imp (.double hfield) (.double hfield)
                      | true => exact Or.inr (.twice hfield)
                    · exact (ih coloncolon (d :: q)).imp (.single hfield hd) (.single hfield hd)
        · exact Or.inr (.long hf (Nat.lt_of_not_le hfour) hstop)
      · obtain ⟨hzero, hcolon⟩ := not_or.mp hstop
        cases q with
        | nil => exact absurd rfl hzero
        | cons c q => exact Or.inr (.other hf hq hzero hcolon)

/-! ## Rounds of the parser -/

section

variable {platform : Platform} {missing n : ℕ} {coloncolon : Bool} {s : Parts}
  {f q t r : List Byte} {c : Byte}

theorem digit_ne (h : (digitValue c).isSome = true) : c ≠ 0 ∧ c ≠ colon := by
  constructor
  · rintro rfl
    rw [digitValue_zero] at h
    cases h
  · rintro rfl
    rw [digitValue_colon] at h
    cases h

theorem IsField.ne_zero (h : IsField f) : ∀ c ∈ f, c ≠ 0 := fun c hc => (digit_ne (h.digits c hc)).1

theorem lenOf_ne_zero (hn : 0 < n) (hlength : n < 40) : lenOf platform n ≠ 0 := by
  rw [ne_eq, lenOf_eq_zero_iff hlength]
  exact hn.ne'

theorem seek_digits (hf : ∀ c ∈ f, (digitValue c).isSome = true) (hlength : f.length + n < 40) :
    seek (lenOf platform (f.length + n)) (f ++ q) =
      (seek (lenOf platform n) q).map fun out => (f.length + out.1, out.2) := by
  induction f with
  | nil => simp
  | cons c f ih =>
      obtain ⟨hc, hf⟩ := List.forall_mem_cons.mp hf
      obtain ⟨hzero, hcolon⟩ := digit_ne hc
      have hnext : lenOf platform ((c :: f).length + n) - 1 = lenOf platform (f.length + n) := by
        rw [List.length_cons, Nat.add_right_comm]
        exact lenOf_sub_one (f.length + n)
      have hne : lenOf platform ((c :: f).length + n) ≠ 0 :=
        lenOf_ne_zero (by rw [List.length_cons]; omega) hlength
      rw [List.length_cons] at hlength
      rw [List.cons_append, seek, if_pos ⟨hne, hzero, hcolon⟩, isHex_eq, if_pos hc, hnext,
        ih hf (by omega)]
      cases seek (lenOf platform n) q with
      | none => rfl
      | some out => simp [Nat.add_right_comm]

theorem seekReads_digits (hf : ∀ c ∈ f, (digitValue c).isSome = true)
    (hlength : f.length + n < 40) :
    seekReads (lenOf platform (f.length + n)) (f ++ q) =
      f.length + seekReads (lenOf platform n) q := by
  induction f with
  | nil => simp
  | cons c f ih =>
      obtain ⟨hc, hf⟩ := List.forall_mem_cons.mp hf
      obtain ⟨hzero, hcolon⟩ := digit_ne hc
      have hnext : lenOf platform ((c :: f).length + n) - 1 = lenOf platform (f.length + n) := by
        rw [List.length_cons, Nat.add_right_comm]
        exact lenOf_sub_one (f.length + n)
      have hne : lenOf platform ((c :: f).length + n) ≠ 0 :=
        lenOf_ne_zero (by rw [List.length_cons]; omega) hlength
      rw [List.length_cons] at hlength
      rw [List.cons_append, seekReads, if_neg hne, if_pos ⟨hzero, hcolon, by rw [isHex_eq, hc]⟩,
        hnext, ih hf (by omega), List.length_cons]
      omega

/-- The search stops at the end of the text, at the null character and at ':'. -/
theorem seek_stop (hq : n = 0 ∨ q.headD 0 = 0 ∨ q.headD 0 = colon) :
    seek (lenOf platform n) q = some (0, q, lenOf platform n) := by
  cases q with
  | nil => rfl
  | cons c q =>
      rw [seek, if_neg]
      rintro ⟨hn, hzero, hcolon⟩
      rcases hq with rfl | hq | hq
      · exact hn lenOf_zero
      · exact hzero hq
      · exact hcolon hq

theorem seekReads_zero : seekReads (lenOf platform 0) q = 0 := by
  cases q <;> rw [seekReads, if_pos lenOf_zero]

theorem seekReads_stop (hn : 0 < n) (hlength : n < 40) (hq : digitValue (q.headD 0) = none) :
    seekReads (lenOf platform n) q = 1 := by
  have hne : lenOf platform n ≠ 0 := lenOf_ne_zero hn hlength
  cases q with
  | nil => rw [seekReads, if_neg hne]
  | cons c q =>
      rw [seekReads, if_neg hne, if_neg]
      rintro ⟨-, -, hhex⟩
      rw [isHex_eq, show digitValue c = none from hq] at hhex
      cases hhex

theorem hexReads_pos (p : List Byte) : 0 < hexReads p := by
  cases p with
  | nil => exact Nat.one_pos
  | cons c p =>
      rw [hexReads]
      split <;> omega

theorem hexReads_digits (hf : ∀ c ∈ f, (digitValue c).isSome = true) :
    hexReads (f ++ q) = f.length + hexReads q := by
  induction f with
  | nil => simp
  | cons c f ih =>
      obtain ⟨hc, hf⟩ := List.forall_mem_cons.mp hf
      have hdigit : (hexDigit c).isSome = true := by rw [hexDigit_eq, Option.isSome_map, hc]
      rw [List.cons_append, hexReads, if_pos hdigit, ih hf, List.length_cons]
      omega

/-- `hex` looks at the character behind the digits. -/
theorem hexReads_stop (hq : digitValue (q.headD 0) = none) : hexReads q = 1 := by
  cases q with
  | nil => rfl
  | cons c q =>
      have hdigit : (hexDigit c).isSome = false := by
        rw [hexDigit_eq, Option.isSome_map, show digitValue c = none from hq]
        rfl
      rw [hexReads, hdigit]
      rfl

theorem goes_on (hf : ∀ c ∈ f, (digitValue c).isSome = true) (hq : f ≠ [] ∨ q.headD 0 ≠ 0)
    (hpos : 0 < f.length + n) (hlength : f.length + n < 40) :
    ¬ (lenOf platform (f.length + n) = 0 ∨ (f ++ q).headD 0 = 0) := by
  refine not_or.mpr ⟨lenOf_ne_zero hpos hlength, ?_⟩
  cases f with
  | nil => exact hq.resolve_left fun h => h rfl
  | cons c f => exact (digit_ne (hf c (by simp))).1

theorem readParts_null (hne : f ≠ []) (hf : IsField f) (hlength : (f ++ 0 :: t).length < 40) :
    readParts (missing + 1) s (f ++ 0 :: t ++ r) (lenOf platform (f ++ 0 :: t).length) =
      readParts missing (s.take f) (t ++ r) (lenOf platform t.length) := by
  rw [List.length_append, List.length_cons] at hlength ⊢
  have hstop : digitValue ((0 :: t ++ r).headD 0) = none := digitValue_zero
  have hleft : lenOf platform (t.length + 1) ≠ 0 := lenOf_ne_zero (by omega) (by omega)
  have hcolon : ¬ ((0 : Byte) = colon ∧ (t ++ r).headD 0 = colon) := fun h => absurd h.1 (by decide)
  rw [List.append_assoc, readParts,
    if_neg (goes_on hf.digits (Or.inl hne) (Nat.add_pos_right _ (Nat.succ_pos _)) hlength),
    seek_digits hf.digits hlength, seek_stop (Or.inr (Or.inl rfl)), write_append s hf hstop]
  simp only [Option.map_some, Nat.add_zero, List.cons_append, List.headD_cons, List.tail_cons,
    if_neg hf.length.not_gt, if_neg hleft, if_neg hcolon, lenOf_sub_one]

/-- How far one round on the group `f` reads, before the null character or ':'. -/
theorem partsReads_field (hf : IsField f) (hn : 0 < n) (hlength : f.length + n < 40)
    (hq : f ≠ [] ∧ q.headD 0 = 0 ∨ q.headD 0 = colon) :
    partsReads (missing + 1) coloncolon (f ++ q) (lenOf platform (f.length + n)) =
      if q.headD 0 = colon then
        if q.tail.headD 0 = colon then
          if coloncolon then f.length + 2
          else f.length + 2 + partsReads missing true q.tail.tail (lenOf platform n - 2)
        else max (f.length + 2)
          (f.length + 1 + partsReads missing coloncolon q.tail (lenOf platform n - 1))
      else f.length + 1 + partsReads missing coloncolon q.tail (lenOf platform n - 1) := by
  have hstop : q.headD 0 = 0 ∨ q.headD 0 = colon := hq.imp_left And.right
  have hgoes : f ≠ [] ∨ q.headD 0 ≠ 0 := by
    refine hq.imp And.left fun h => ?_
    rw [h]
    decide
  have hdigit : digitValue (q.headD 0) = none := by
    rcases hstop with h | h
    · rw [h, digitValue_zero]
    · rw [h, digitValue_colon]
  rw [partsReads, if_neg (goes_on hf.digits hgoes (Nat.add_pos_right _ hn) hlength),
    seek_digits hf.digits hlength, seek_stop (Or.inr hstop), seekReads_digits hf.digits hlength,
    seekReads_stop hn (by omega) hdigit, hexReads_digits hf.digits, hexReads_stop hdigit]
  simp only [Option.map_some, Nat.add_zero, if_neg hf.length.not_gt,
    if_neg (lenOf_ne_zero hn (by omega) : lenOf platform n ≠ 0), max_self]
  split_ifs <;> omega

theorem partsReads_single (hf : IsField f) (hc : c ≠ colon)
    (hlength : (f ++ colon :: c :: t).length < 40) :
    partsReads (missing + 1) coloncolon (f ++ colon :: c :: t ++ r)
        (lenOf platform (f ++ colon :: c :: t).length) =
      max (f.length + 2) (f.length + 1 +
        partsReads missing coloncolon (c :: t ++ r) (lenOf platform (c :: t).length)) := by
  rw [List.length_append, List.length_cons] at hlength ⊢
  rw [List.append_assoc, partsReads_field hf (Nat.succ_pos _) hlength (Or.inr rfl)]
  simp only [List.cons_append, List.headD_cons, List.tail_cons, hc, if_true, if_false, lenOf_sub_one]

theorem partsReads_double (hf : IsField f) (hlength : (f ++ colon :: colon :: t).length < 40) :
    partsReads (missing + 1) coloncolon (f ++ colon :: colon :: t ++ r)
        (lenOf platform (f ++ colon :: colon :: t).length) =
      if coloncolon then f.length + 2
      else f.length + 2 + partsReads missing true (t ++ r) (lenOf platform t.length) := by
  rw [List.length_append, List.length_cons, List.length_cons] at hlength ⊢
  rw [List.append_assoc, partsReads_field hf (Nat.succ_pos _) hlength (Or.inr rfl)]
  simp only [List.cons_append, List.headD_cons, List.tail_cons, if_true, lenOf_sub_two]

theorem partsReads_null (hne : f ≠ []) (hf : IsField f) (hlength : (f ++ 0 :: t).length < 40) :
    partsReads (missing + 1) coloncolon (f ++ 0 :: t ++ r) (lenOf platform (f ++ 0 :: t).length) =
      f.length + 1 + partsReads missing coloncolon (t ++ r) (lenOf platform t.length) := by
  rw [List.length_append, List.length_cons] at hlength ⊢
  have hcolon : ¬ (0 : Byte) = colon := by decide
  rw [List.append_assoc, partsReads_field hf (Nat.succ_pos _) hlength (Or.inl ⟨hne, rfl⟩)]
  simp only [List.cons_append, List.headD_cons, List.tail_cons, hcolon, if_false, lenOf_sub_one]

/-! ## Texts that run over -/

theorem lt_partsReads_group (hne : f ≠ []) (hf : IsField f) (hlength : f.length < 40) :
    f.length < partsReads (missing + 1) coloncolon (f ++ r) (lenOf platform f.length) := by
  have hgoes : ¬ (lenOf platform (f.length + 0) = 0 ∨ (f ++ r).headD 0 = 0) :=
    goes_on hf.digits (Or.inl hne) (List.length_pos_of_ne_nil hne) hlength
  have hseek : seek (lenOf platform (f.length + 0)) (f ++ r) =
      some (f.length + 0, r, lenOf platform 0) := by
    rw [seek_digits hf.digits hlength, seek_stop (Or.inl rfl)]
    rfl
  rw [Nat.add_zero] at hgoes hseek
  rw [partsReads, if_neg hgoes, hseek]
  dsimp only
  rw [if_neg hf.length.not_gt, if_pos lenOf_zero, hexReads_digits hf.digits]
  have hlast := hexReads_pos r
  omega

theorem lt_partsReads_colon (hf : IsField f) (hlength : (f ++ [colon]).length < 40) :
    (f ++ [colon]).length <
      partsReads (missing + 1) coloncolon (f ++ [colon] ++ r)
        (lenOf platform (f ++ [colon]).length) := by
  rw [List.length_append, List.length_singleton] at hlength ⊢
  rw [List.append_assoc, partsReads_field hf Nat.one_pos hlength (Or.inr rfl)]
  simp only [List.cons_append, List.headD_cons, if_true]
  split_ifs <;> omega

theorem RunsOver.lt_partsReads (h : RunsOver missing coloncolon t) (hlength : t.length < 40) :
    t.length < partsReads missing coloncolon (t ++ r) (lenOf platform t.length) := by
  induction h with
  | group hne hf => exact lt_partsReads_group hne hf hlength
  | colon hf => exact lt_partsReads_colon hf hlength
  | single hf hc _ ih =>
      rw [partsReads_single hf hc hlength]
      rw [List.length_append, List.length_cons] at hlength ⊢
      exact lt_max_of_lt_right (by have hrest := ih (by omega); omega)
  | double hf _ ih =>
      rw [partsReads_double hf hlength, if_neg Bool.false_ne_true]
      rw [List.length_append, List.length_cons, List.length_cons] at hlength ⊢
      have hrest := ih (by omega)
      omega
  | null hne hf _ ih =>
      rw [partsReads_null hne hf hlength]
      rw [List.length_append, List.length_cons] at hlength ⊢
      have hrest := ih (by omega)
      omega

/-! ## Texts that do not -/

theorem seekReads_le (hlength : t.length < 40) :
    seekReads (lenOf platform t.length) (t ++ r) ≤ t.length := by
  obtain ⟨f, q, rfl, hf, hq⟩ := exists_digits t
  rw [List.length_append] at hlength ⊢
  rw [List.append_assoc, seekReads_digits hf hlength]
  cases q with
  | nil =>
      rw [List.nil_append, List.length_nil, seekReads_zero]
  | cons c q =>
      have hstop : seekReads (lenOf platform (c :: q).length) (c :: q ++ r) = 1 :=
        seekReads_stop (Nat.succ_pos _) (by omega) hq
      rw [hstop, List.length_cons]
      omega

theorem seek_other (hf : ∀ c ∈ f, (digitValue c).isSome = true) (hc : digitValue c = none)
    (hzero : c ≠ 0) (hcolon : c ≠ colon) (hlength : (f ++ c :: t).length < 40) :
    seek (lenOf platform (f ++ c :: t).length) (f ++ c :: t ++ r) = none := by
  rw [List.length_append, List.length_cons] at hlength ⊢
  have hne : lenOf platform (t.length + 1) ≠ 0 := lenOf_ne_zero (Nat.succ_pos _) (by omega)
  have hhex : ¬ isHex c = true := by
    rw [isHex_eq, hc]
    exact Bool.false_ne_true
  rw [List.append_assoc, seek_digits hf hlength, List.cons_append, seek,
    if_pos ⟨hne, hzero, hcolon⟩, if_neg hhex]
  rfl

theorem seek_long (hf : ∀ c ∈ f, (digitValue c).isSome = true)
    (hq : q.headD 0 = 0 ∨ q.headD 0 = colon) (hlength : (f ++ q).length < 40) :
    seek (lenOf platform (f ++ q).length) (f ++ q ++ r) =
      some (f.length, q ++ r, lenOf platform q.length) := by
  rw [List.length_append] at hlength ⊢
  rw [List.append_assoc, seek_digits hf hlength, seek_stop]
  · rfl
  · cases q with
    | nil => exact Or.inl rfl
    | cons c q => exact Or.inr hq

/-- The search fails in the text, or passes too many digits. -/
structure Refused (platform : Platform) (t : List Byte) : Prop where
  goes : ∀ r, ¬ (lenOf platform t.length = 0 ∨ (t ++ r).headD 0 = 0)
  seek : ∀ r out, Netsocket.seek (lenOf platform t.length) (t ++ r) = some out → 4 < out.1

theorem Refused.readParts (h : Refused platform t) (r : List Byte) :
    Netsocket.readParts (missing + 1) s (t ++ r) (lenOf platform t.length) = none := by
  rw [Netsocket.readParts, if_neg (h.goes r)]
  cases hseek : Netsocket.seek (lenOf platform t.length) (t ++ r) with
  | none => rfl
  | some out =>
      dsimp only
      rw [if_pos (h.seek r out hseek)]

theorem Refused.partsReads (h : Refused platform t) (r : List Byte) :
    Netsocket.partsReads (missing + 1) coloncolon (t ++ r) (lenOf platform t.length) =
      seekReads (lenOf platform t.length) (t ++ r) := by
  rw [Netsocket.partsReads, if_neg (h.goes r)]
  cases hseek : Netsocket.seek (lenOf platform t.length) (t ++ r) with
  | none => rfl
  | some out =>
      dsimp only
      rw [if_pos (h.seek r out hseek)]

theorem refused_long (hf : ∀ c ∈ f, (digitValue c).isSome = true) (hfour : 4 < f.length)
    (hq : q.headD 0 = 0 ∨ q.headD 0 = colon) (hlength : (f ++ q).length < 40) :
    Refused platform (f ++ q) := by
  refine ⟨?_, ?_⟩
  · intro r
    rw [List.length_append] at hlength ⊢
    rw [List.append_assoc]
    have hne : f ≠ [] := List.ne_nil_of_length_pos (by omega)
    exact goes_on hf (Or.inl hne) (by omega) hlength
  · intro r out hout
    cases (seek_long hf hq hlength).symm.trans hout
    exact hfour

theorem refused_other (hf : ∀ c ∈ f, (digitValue c).isSome = true) (hc : digitValue c = none)
    (hzero : c ≠ 0) (hcolon : c ≠ colon) (hlength : (f ++ c :: t).length < 40) :
    Refused platform (f ++ c :: t) := by
  refine ⟨?_, ?_⟩
  · intro r
    rw [List.length_append] at hlength ⊢
    rw [List.append_assoc]
    exact goes_on hf (Or.inr hzero) (by rw [List.length_cons]; omega) hlength
  · intro r out hout
    cases (seek_other hf hc hzero hcolon hlength).symm.trans hout

theorem text_ended (h : t.headD 0 = 0) (r : List Byte) :
    lenOf platform t.length = 0 ∨ (t ++ r).headD 0 = 0 := by
  cases t with
  | nil => exact Or.inl lenOf_zero
  | cons c t => exact Or.inr h

theorem readParts_ended {p : List Byte} {len : platform.Size} (h : len = 0 ∨ p.headD 0 = 0) :
    readParts missing s p len = some s := by
  cases missing <;> rw [readParts, if_pos h]

theorem partsReads_ended {p : List Byte} {len : platform.Size} (h : len = 0 ∨ p.headD 0 = 0) :
    partsReads missing coloncolon p len = seekReads len p := by
  cases missing with
  | zero => rfl
  | succ missing => rw [partsReads, if_pos h]

/-- One round on the group `f`, before a single ':' that does not end the text. -/
theorem readParts_next (hf : IsField f) (hc : c ≠ colon)
    (hlength : (f ++ colon :: c :: t).length < 40) :
    readParts (missing + 1) s (f ++ colon :: c :: t ++ r)
        (lenOf platform (f ++ colon :: c :: t).length) =
      readParts missing (s.take f) (c :: t ++ r) (lenOf platform (c :: t).length) := by
  rw [List.length_append, List.length_cons] at hlength ⊢
  rw [List.append_assoc, readParts_field hf.ne_zero hf.colon_notMem hlength
    (Or.inr (Nat.succ_pos _)) (Or.inr rfl), if_pos hf, if_neg (Nat.succ_ne_zero _)]
  simp only [List.cons_append, List.headD_cons, List.tail_cons, hc, if_false, lenOf_sub_one]

/-- Where the parse is decided within the text, nothing behind it is read. -/
theorem Stays.partsReads_le (h : Stays missing coloncolon t) (hlength : t.length < 40) :
    partsReads missing coloncolon (t ++ r) (lenOf platform t.length) ≤ t.length := by
  induction h with
  | ended hend =>
      rw [partsReads_ended (text_ended hend r)]
      exact seekReads_le hlength
  | ninth => exact seekReads_le hlength
  | long hf hfour hq =>
      have hrefused : Refused platform _ := refused_long hf hfour hq hlength
      rw [hrefused.partsReads r]
      exact seekReads_le hlength
  | other hf hc hzero hcolon =>
      have hrefused : Refused platform _ := refused_other hf hc hzero hcolon hlength
      rw [hrefused.partsReads r]
      exact seekReads_le hlength
  | @single _ _ f c t hf hc _ ih =>
      have hsize : (f ++ colon :: c :: t).length = f.length + ((c :: t).length + 1) :=
        List.length_append
      rw [partsReads_single hf hc hlength]
      rw [hsize] at hlength ⊢
      have hrest := ih (by omega)
      have hpos : 0 < (c :: t).length := Nat.succ_pos _
      exact max_le (by omega) (by omega)
  | double hf _ ih =>
      rw [partsReads_double hf hlength, if_neg Bool.false_ne_true]
      rw [List.length_append, List.length_cons, List.length_cons] at hlength ⊢
      have hrest := ih (by omega)
      omega
  | twice hf =>
      rw [partsReads_double hf hlength, if_pos rfl, List.length_append, List.length_cons,
        List.length_cons]
      omega
  | null hne hf _ ih =>
      rw [partsReads_null hne hf hlength]
      rw [List.length_append, List.length_cons] at hlength ⊢
      have hrest := ih (by omega)
      omega

theorem Stays.readParts_eq (h : Stays missing coloncolon t) (hlength : t.length < 40)
    (hs : s.coloncolon.isSome = coloncolon) (r r' : List Byte) :
    readParts missing s (t ++ r) (lenOf platform t.length) =
      readParts missing s (t ++ r') (lenOf platform t.length) := by
  induction h generalizing s with
  | ended hend => rw [readParts_ended (text_ended hend r), readParts_ended (text_ended hend r')]
  | @ninth _ t =>
      cases t with
      | nil => exact readParts_end.trans readParts_end.symm
      | cons c t => rfl
  | long hf hfour hq =>
      have hrefused : Refused platform _ := refused_long hf hfour hq hlength
      rw [hrefused.readParts r, hrefused.readParts r']
  | other hf hc hzero hcolon =>
      have hrefused : Refused platform _ := refused_other hf hc hzero hcolon hlength
      rw [hrefused.readParts r, hrefused.readParts r']
  | single hf hc _ ih =>
      rw [readParts_next hf hc hlength, readParts_next hf hc hlength]
      rw [List.length_append, List.length_cons] at hlength
      exact ih (by omega) hs
  | double hf _ ih =>
      rw [readParts_double hf.ne_zero hf.colon_notMem hlength,
        readParts_double hf.ne_zero hf.colon_notMem hlength]
      rw [List.length_append, List.length_cons, List.length_cons] at hlength
      rw [ih (by omega) rfl]
  | twice hf =>
      have hsecond : s.coloncolon ≠ none := Option.isSome_iff_ne_none.mp hs
      rw [readParts_double hf.ne_zero hf.colon_notMem hlength, if_neg fun h => hsecond h.2,
        readParts_double hf.ne_zero hf.colon_notMem hlength, if_neg fun h => hsecond h.2]
  | null hne hf _ ih =>
      rw [readParts_null hne hf hlength, readParts_null hne hf hlength]
      rw [List.length_append, List.length_cons] at hlength
      exact ih (by omega) hs

/-! ## The parser -/

variable {len : platform.Size}

/-- `stoip6` goes by the `len` characters of a text, whatever memory `r` is behind them: as it does
where they are terminated, and as `strlen` has it if none of them is the null character. -/
structure HonorsLength (platform : Platform) (t : List Byte) (len : platform.Size) : Prop where
  agrees : ∀ r r' dest, stoip6 (t ++ r) len dest = stoip6 (t ++ r') len dest
  terminated : ∀ r dest, stoip6 (t ++ r) len dest = stoip6 (t ++ [0]) len dest
  string : 0 ∉ t → ∀ r dest,
    stoip6 (t ++ r) len dest = stoip6 (t ++ [0]) (platform.strlen (t ++ [0])) dest
  reads : ∀ r, stoip6Reads (t ++ r) len ≤ t.length

theorem stoip6_congr {p p' : List Byte} {dest : Memory Byte}
    (h : readParts 8 ⟨dest, 0, none⟩ p len = readParts 8 ⟨dest, 0, none⟩ p' len) :
    stoip6 p len dest = stoip6 p' len dest := by
  rw [stoip6, stoip6, h]

theorem stoip6_long {p : List Byte} {dest : Memory Byte} (h : len.toNat ≥ 40) :
    stoip6 p len dest = stoip6.error dest := by
  rw [stoip6, if_pos h]

theorem len_eq_lenOf (h : t.length = len.toNat) : len = lenOf platform t.length := by
  rw [h, lenOf, BitVec.ofNat_toNat, BitVec.setWidth_eq]

theorem HonorsLength.of_agrees (h : t.length = len.toNat)
    (hagrees : ∀ r r' dest, stoip6 (t ++ r) len dest = stoip6 (t ++ r') len dest)
    (hreads : ∀ r, stoip6Reads (t ++ r) len ≤ t.length) : HonorsLength platform t len where
  agrees := hagrees
  terminated r := hagrees r [0]
  string ht r dest := by
    rw [platform_strlen_of_text ht, ← len_eq_lenOf h]
    exact hagrees r [0] dest
  reads := hreads

theorem honorsLength_of_long (h : t.length = len.toNat) (hlong : len.toNat ≥ 40) :
    HonorsLength platform t len := by
  apply HonorsLength.of_agrees h
  · intro r r' dest
    rw [stoip6_long hlong, stoip6_long hlong]
  · intro r
    rw [stoip6Reads, if_pos hlong]
    exact Nat.zero_le _

theorem Stays.honorsLength (hstays : Stays 8 false t) (h : t.length = len.toNat)
    (hshort : t.length < 40) : HonorsLength platform t len := by
  have hlen := len_eq_lenOf h
  apply HonorsLength.of_agrees h
  · intro r r' dest
    rw [hlen]
    exact stoip6_congr (hstays.readParts_eq hshort rfl r r')
  · intro r
    rw [stoip6Reads, if_neg (h ▸ hshort.not_ge), hlen]
    exact hstays.partsReads_le hshort

theorem RunsOver.not_honorsLength (hruns : RunsOver 8 false t) (h : t.length = len.toNat)
    (hshort : t.length < 40) : ¬ HonorsLength platform t len := by
  intro hhonors
  have hreads := hhonors.reads []
  rw [stoip6Reads, if_neg (h ▸ hshort.not_ge), len_eq_lenOf h] at hreads
  exact (hruns.lt_partsReads hshort).not_ge hreads

/-- `stoip6` reads no further than the text exactly if that is too long or does not run over. -/
theorem honorsLength_iff (h : t.length = len.toNat) :
    HonorsLength platform t len ↔ 40 ≤ t.length ∨ ¬ RunsOver 8 false t := by
  rcases le_or_gt 40 t.length with hlong | hshort
  · exact iff_of_true (honorsLength_of_long h (h ▸ hlong)) (Or.inl hlong)
  · rw [or_iff_right hshort.not_ge]
    constructor
    · intro hhonors hruns
      exact hruns.not_honorsLength h hshort hhonors
    · intro hruns
      exact ((runsOver_or_stays 8 false t).resolve_left hruns).honorsLength h hshort

end

theorem honorsLength_iff_compressed :
    HonorsLength .target [ascii '1', colon, colon] 3#32 ↔
      40 ≤ [ascii '1', colon, colon].length ∨ ¬ RunsOver 8 false [ascii '1', colon, colon] :=
  honorsLength_iff rfl

/-- The address `::1` in front of another digit is read as `::12`. -/
theorem loopback_not_honored :
    ¬ ∀ (platform : Platform) (t : List Byte) (len : platform.Size), t.length = len.toNat →
      HonorsLength platform t len := by
  intro h
  have hhonors := h .target [colon, colon, ascii '1'] 3#32 rfl
  have hlast := congrArg (fun outcome => outcome.2 15)
    (hhonors.agrees [ascii '2'] [0] fun _ => 0)
  revert hlast
  decide

end OpenIotSdk.Netsocket
