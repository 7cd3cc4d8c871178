import OpenIotSdk.Verification.Netsocket.Ipv6Grammar

/-! # Malformed texts

Every address is taken, with its bytes. The texts that are taken beside the addresses have a colon
too many: before the first group, behind the last one or behind `::`; or `::` stands for no group
at all. -/

namespace OpenIotSdk.Netsocket

open Fields (Reads joined mark)

/-- The texts that are taken although they are no addresses. What is true of a `Bool` says whether
a colon too many is there; an empty field counts as one of eight. -/
inductive Overlooked : List Byte → Prop where
  | plain (leading trailing : Bool) (groups : List Group) :
      leading.toNat + groups.length = 8 → leading = true ∨ trailing = true →
      Overlooked (mark colon leading ++ groupsText groups ++ mark colon trailing)
  | compressed (leading third trailing : Bool) (head tail : List Group) :
      (leading = true → head ≠ []) → (trailing = true → tail ≠ []) →
      max 1 (leading.toNat + head.length) + (third.toNat + tail.length) ≤ 8 →
      leading = true ∨ third = true ∨ trailing = true ∨ head.length + tail.length = 8 →
      Overlooked (mark colon leading ++ groupsText head ++ colon :: colon ::
        (mark colon third ++ groupsText tail ++ mark colon trailing))

/-! ## How groups are read -/

/-- The fields of groups, behind an empty one if there is a colon before them. -/
def groupFields (empty : Bool) (groups : List Group) : List (List Byte) :=
  if empty then [] :: groups.map Group.digits else groups.map Group.digits

/-- The same before `::`, where nothing is an empty field as well. -/
def headFields (empty : Bool) (groups : List Group) : List (List Byte) :=
  if groups = [] then [[]] else groupFields empty groups

variable {empty trailing : Bool} {groups groups' : List Group}

theorem length_groupFields : (groupFields empty groups).length = empty.toNat + groups.length := by
  cases empty <;> simp [groupFields, Nat.add_comm]

theorem length_headFields (h : empty = true → groups ≠ []) :
    (headFields empty groups).length = max 1 (empty.toNat + groups.length) := by
  by_cases hnil : groups = []
  · have hempty : empty = false := by
      cases empty with
      | false => rfl
      | true => exact absurd hnil (h rfl)
    simp [headFields, hnil, hempty]
  · have hpos : 0 < groups.length := List.length_pos_iff.mpr hnil
    rw [headFields, if_neg hnil, length_groupFields]
    omega

theorem isField_nil : IsField [] := ⟨by simp, by simp⟩

theorem isField_of_mem_groupFields {f : List Byte} (h : f ∈ groupFields empty groups) :
    IsField f := by
  have hgroups : ∀ f ∈ groups.map Group.digits, IsField f := by
    rintro f hmem
    obtain ⟨g, -, rfl⟩ := List.mem_map.mp hmem
    exact g.isField
  cases empty with
  | false => exact hgroups f h
  | true =>
      rcases List.mem_cons.mp h with rfl | hmem
      · exact isField_nil
      · exact hgroups f hmem

theorem isField_of_mem_headFields {f : List Byte} (h : f ∈ headFields empty groups) :
    IsField f := by
  rw [headFields] at h
  split at h
  · rw [List.mem_singleton.mp h]
    exact isField_nil
  · exact isField_of_mem_groupFields h

theorem group_fields (groups : List Group) : ∀ f ∈ groups.map Group.digits, f ≠ [] ∧ colon ∉ f := by
  intro f hmem
  obtain ⟨g, -, rfl⟩ := List.mem_map.mp hmem
  exact ⟨g.nonempty, g.isField.colon_notMem⟩

theorem mark_groupsText (h : empty = true → groups ≠ []) :
    mark colon empty ++ groupsText groups = joined colon (groupFields empty groups) := by
  cases empty with
  | false => rfl
  | true =>
      rw [groupFields, if_pos rfl, Fields.joined_cons (by simpa using h rfl)]
      rfl

theorem reads_part (empty trailing : Bool) (groups : List Group)
    (h : trailing = true → groups ≠ []) :
    Reads colon (mark colon empty ++ groupsText groups ++ mark colon trailing)
      (groupFields empty groups) none := by
  cases groups with
  | nil =>
      have htrailing : trailing = false := by
        cases trailing with
        | false => rfl
        | true => exact absurd rfl (h rfl)
      subst htrailing
      cases empty with
      | false => exact .nil
      | true => exact .single (f := []) (by simp) (by simp) .nil
  | cons g groups =>
      rw [mark_groupsText (by simp)]
      obtain ⟨hg, hgroups⟩ := List.forall_mem_cons.mp (group_fields (g :: groups))
      cases empty with
      | false => exact Fields.reads_joined trailing hg.2 hgroups (Or.inl hg.1)
      | true =>
          exact Fields.reads_joined trailing (by simp) (List.forall_mem_cons.mpr ⟨hg, hgroups⟩)
            (Or.inr (Or.inl (by simp)))

theorem reads_head {s : List Byte} {tail : List (List Byte)} (empty : Bool) (groups : List Group)
    (h : empty = true → groups ≠ []) (hs : Reads colon s tail none) :
    Reads colon (mark colon empty ++ groupsText groups ++ colon :: colon :: s)
      (headFields empty groups) (some tail) := by
  rw [mark_groupsText h]
  cases groups with
  | nil =>
      cases empty with
      | false => exact .double (f := []) (by simp) hs
      | true => exact absurd rfl (h rfl)
  | cons g groups =>
      obtain ⟨hg, hgroups⟩ := List.forall_mem_cons.mp (group_fields (g :: groups))
      cases empty with
      | false => exact Reads.before hg.2 hgroups hs
      | true => exact Reads.before (by simp) (List.forall_mem_cons.mpr ⟨hg, hgroups⟩) hs

/-! ## What the fields denote -/

theorem fieldsBytes_map (groups : List Group) :
    fieldsBytes (groups.map Group.digits) = groupsBytes groups := by
  rw [fieldsBytes, List.flatMap_map]
  rfl

theorem fieldsBytes_headFields {n : ℕ} (h : (headFields false groups).length ≤ n) :
    fieldsBytes (headFields false groups) ++
        List.replicate (2 * (n - (headFields false groups).length)) 0 =
      groupsBytes groups ++ List.replicate (2 * (n - groups.length)) 0 := by
  by_cases hnil : groups = []
  · subst hnil
    have hlength : (headFields false []).length = 1 := rfl
    rw [hlength] at h ⊢
    obtain ⟨n, rfl⟩ := Nat.exists_eq_add_of_le' h
    rw [Nat.add_sub_cancel, List.length_nil, Nat.sub_zero, Nat.mul_add, Nat.add_comm,
      List.replicate_add]
    rfl
  · rw [headFields, if_neg hnil, groupFields, if_neg Bool.false_ne_true, fieldsBytes_map,
      List.length_map]

theorem reads_groups (groups : List Group) :
    Reads colon (groupsText groups) (groupFields false groups) none := by
  have h := reads_part false false groups (by simp)
  rwa [Fields.mark_false, List.nil_append, List.append_nil] at h

/-- An address is read group by group. -/
theorem Rfc4291.reads {t a : List Byte} (h : Rfc4291 t a) :
    ∃ head tail, Reads colon t head tail ∧ (∀ f ∈ head ++ tail.getD [], IsField f) ∧
      fieldsAddress head tail = some a := by
  cases h with
  | full groups hcount =>
      refine ⟨groupFields false groups, none, reads_groups groups, fun f hf => ?_, ?_⟩
      · rw [Option.getD_none, List.append_nil] at hf
        exact isField_of_mem_groupFields hf
      · rw [fieldsAddress, if_pos (by rw [length_groupFields, hcount]; rfl)]
        exact congrArg some (fieldsBytes_map groups)
  | compressed head tail hcount =>
      have htail : (groupFields false tail).length = tail.length := by
        rw [length_groupFields, Bool.toNat_false, Nat.zero_add]
      have hlength : (headFields false head).length + tail.length ≤ 8 := by
        rw [length_headFields (by simp), Bool.toNat_false]
        omega
      refine ⟨headFields false head, some (groupFields false tail),
        reads_head false head (by simp) (reads_groups tail), fun f hf => ?_, ?_⟩
      · rcases List.mem_append.mp hf with hf | hf
        · exact isField_of_mem_headFields hf
        · exact isField_of_mem_groupFields hf
      · have hzeros := fieldsBytes_headFields (Nat.le_sub_of_add_le hlength)
        rw [Nat.sub_sub, Nat.sub_sub, Nat.add_comm, Nat.add_comm tail.length head.length] at hzeros
        rw [fieldsAddress, htail, if_pos hlength, hzeros]
        exact congrArg some (congrArg _ (fieldsBytes_map tail))

/-! ## The texts beside the addresses -/

theorem Overlooked.reads {t : List Byte} (h : Overlooked t) :
    ∃ head tail a, Reads colon t head tail ∧ (∀ f ∈ head ++ tail.getD [], IsField f) ∧
      fieldsAddress head tail = some a := by
  cases h with
  | plain leading trailing groups hcount hextra =>
      have hne : groups ≠ [] := by
        rintro rfl
        cases leading <;> simp at hcount
      refine ⟨groupFields leading groups, none, _,
        reads_part leading trailing groups fun _ => hne, fun f hf => ?_,
        if_pos (length_groupFields.trans hcount)⟩
      rw [Option.getD_none, List.append_nil] at hf
      exact isField_of_mem_groupFields hf
  | compressed leading third trailing head tail hleading htrailing hcount hextra =>
      refine ⟨headFields leading head, some (groupFields third tail), _,
        reads_head leading head hleading (reads_part third trailing tail htrailing),
        fun f hf => ?_, if_pos ?_⟩
      · rcases List.mem_append.mp hf with hf | hf
        · exact isField_of_mem_headFields hf
        · exact isField_of_mem_groupFields hf
      · rwa [length_headFields hleading, length_groupFields]

theorem groupFields_eq_iff :
    groupFields empty groups = groupFields false groups' ↔
      empty = false ∧ groups.map Group.digits = groups'.map Group.digits := by
  cases empty with
  | false => exact (and_iff_right rfl).symm
  | true =>
      refine iff_of_false (fun h => ?_) fun h => Bool.noConfusion h.1
      have hmem : [] ∈ groups'.map Group.digits := by
        rw [show groups'.map Group.digits = _ from h.symm]
        exact List.mem_cons_self
      exact (group_fields groups' _ hmem).1 rfl

theorem headFields_eq_iff (h : empty = true → groups ≠ []) :
    headFields empty groups = headFields false groups' ↔
      empty = false ∧ groups.map Group.digits = groups'.map Group.digits := by
  have hcons : ∀ {e : Bool} {gs : List Group}, gs ≠ [] → groupFields e gs ≠ [[]] := by
    intro e gs hne heq
    obtain ⟨g, gs, rfl⟩ := List.exists_cons_of_ne_nil hne
    cases e with
    | false => exact g.nonempty (List.cons.inj heq).1
    | true => cases (List.cons.inj heq).2
  by_cases hnil : groups = []
  · have hempty : empty = false := by
      cases empty with
      | false => rfl
      | true => exact absurd hnil (h rfl)
    subst hnil hempty
    by_cases hnil' : groups' = []
    · subst hnil'
      exact iff_of_true rfl ⟨rfl, rfl⟩
    · refine iff_of_false (fun heq => ?_) fun heq => hnil' ?_
      · rw [headFields, if_pos rfl, headFields, if_neg hnil'] at heq
        exact hcons hnil' heq.symm
      · exact List.map_eq_nil_iff.mp heq.2.symm
  · rw [headFields, if_neg hnil]
    by_cases hnil' : groups' = []
    · subst hnil'
      refine iff_of_false (hcons hnil) fun heq => hnil ?_
      exact List.map_eq_nil_iff.mp heq.2
    · rw [headFields, if_neg hnil']
      exact groupFields_eq_iff

theorem groupsText_congr (h : groups.map Group.digits = groups'.map Group.digits) :
    groupsText groups = groupsText groups' := congrArg (joined colon) h

/-- None of them is an address: it would be read in another way. -/
theorem Overlooked.not_rfc {t a : List Byte} (h : Overlooked t) : ¬ Rfc4291 t a := by
  intro haddress
  generalize hs : t = s at haddress
  cases h with
  | plain leading trailing groups hcount hextra =>
      have hne : groups ≠ [] := by
        rintro rfl
        cases leading <;> simp at hcount
      have hreads := reads_part leading trailing groups fun _ => hne
      rw [hs] at hreads
      cases haddress with
      | full groups' =>
          obtain ⟨hfields, -⟩ := hreads.unique (reads_groups groups')
          obtain ⟨rfl, hsame⟩ := groupFields_eq_iff.mp hfields
          rw [groupsText_congr hsame, hextra.resolve_left Bool.false_ne_true] at hs
          simpa using congrArg List.length hs
      | compressed head' tail' =>
          have hreads' := reads_head false head' (by simp) (reads_groups tail')
          cases (hreads.unique (by simpa using hreads')).2
  | compressed leading third trailing head tail hleading htrailing hcount hextra =>
      have hreads := reads_head leading head hleading (reads_part third trailing tail htrailing)
      rw [hs] at hreads
      cases haddress with
      | full groups' => cases (hreads.unique (reads_groups groups')).2
      | compressed head' tail' hcount' =>
          have hreads' := reads_head false head' (by simp) (reads_groups tail')
          obtain ⟨hfirst, hsecond⟩ := hreads.unique (by simpa using hreads')
          obtain ⟨rfl, hhead⟩ := (headFields_eq_iff hleading).mp hfirst
          obtain ⟨rfl, htail⟩ := groupFields_eq_iff.mp (Option.some.inj hsecond)
          have hfewer : head.length + tail.length ≤ 7 := by
            have h₁ := congrArg List.length hhead
            have h₂ := congrArg List.length htail
            simp only [List.length_map] at h₁ h₂
            omega
          have htrue : trailing = true := by
            rcases hextra with h | h | h | h
            · cases h
            · cases h
            · exact h
            · omega
          rw [groupsText_congr hhead, groupsText_congr htail, htrue] at hs
          simpa using congrArg List.length hs

/-! ## What else is read -/

theorem exists_groups {fs : List (List Byte)} (h : ∀ f ∈ fs, f ≠ [] ∧ IsField f) :
    ∃ groups : List Group, fs = groups.map Group.digits := by
  induction fs with
  | nil => exact ⟨[], rfl⟩
  | cons f fs ih =>
      obtain ⟨⟨hne, hf⟩, hfs⟩ := List.forall_mem_cons.mp h
      obtain ⟨groups, rfl⟩ := ih hfs
      exact ⟨⟨f, hne, hf⟩ :: groups, rfl⟩

theorem exists_groupFields {f : List Byte} {fs : List (List Byte)}
    (hfields : ∀ g ∈ f :: fs, IsField g) (hfs : ∀ g ∈ fs, g ≠ []) :
    ∃ empty groups, f :: fs = groupFields empty groups ∧ (groups = [] → f = [] ∧ fs = []) := by
  obtain ⟨hf, hrest⟩ := List.forall_mem_cons.mp hfields
  obtain ⟨groups, rfl⟩ := exists_groups fun g hg => ⟨hfs g hg, hrest g hg⟩
  by_cases hnil : f = []
  · subst hnil
    exact ⟨true, groups, rfl, fun h => ⟨rfl, by rw [h]; rfl⟩⟩
  · exact ⟨false, ⟨f, hnil, hf⟩ :: groups, rfl, by simp⟩

theorem exists_part {t : List Byte} {fs : List (List Byte)}
    (h : Reads colon t fs none) (hfields : ∀ f ∈ fs, IsField f) :
    ∃ empty groups trailing, (trailing = true → groups ≠ []) ∧ fs = groupFields empty groups ∧
      t = mark colon empty ++ groupsText groups ++ mark colon trailing := by
  rcases h.part with ⟨rfl, rfl⟩ | ⟨f, gs, trailing, rfl, -, hgs, hsome, rfl⟩
  · exact ⟨false, [], false, by simp, rfl, rfl⟩
  · obtain ⟨empty, groups, heq, hnil⟩ := exists_groupFields hfields fun g hg => (hgs g hg).1
    by_cases hgroups : groups = []
    · -- Nothing but a colon.
      obtain ⟨rfl, rfl⟩ := hnil hgroups
      have htrailing : trailing = true := by simpa using hsome
      exact ⟨true, [], false, by simp, rfl, by rw [htrailing]; rfl⟩
    · refine ⟨empty, groups, trailing, fun _ => hgroups, heq, ?_⟩
      rw [heq, mark_groupsText fun _ => hgroups]

theorem exists_parts {t : List Byte} {fs ts : List (List Byte)}
    (h : Reads colon t fs (some ts)) (hfields : ∀ f ∈ fs, IsField f) :
    ∃ empty groups rest, (empty = true → groups ≠ []) ∧ fs = headFields empty groups ∧
      t = mark colon empty ++ groupsText groups ++ colon :: colon :: rest ∧
      Reads colon rest ts none := by
  obtain ⟨f, gs, rest, rfl, -, hgs, rfl, hrest⟩ := h.parts
  obtain ⟨empty, groups, heq, hnil⟩ := exists_groupFields hfields fun g hg => (hgs g hg).1
  by_cases hgroups : groups = []
  · -- Nothing stands before `::`.
    obtain ⟨rfl, rfl⟩ := hnil hgroups
    exact ⟨false, [], rest, by simp, rfl, rfl, hrest⟩
  · refine ⟨empty, groups, rest, fun _ => hgroups, ?_, ?_, hrest⟩
    · rw [heq, headFields, if_neg hgroups]
    · rw [heq, mark_groupsText fun _ => hgroups]

/-- What is read is an address, or a text with a colon too many. -/
theorem rfc_or_overlooked {t a : List Byte} {head : List (List Byte)}
    {tail : Option (List (List Byte))} (h : Reads colon t head tail)
    (hfields : ∀ f ∈ head ++ tail.getD [], IsField f) (ha : fieldsAddress head tail = some a) :
    (∃ a, Rfc4291 t a) ∨ Overlooked t := by
  cases tail with
  | none =>
      obtain ⟨leading, groups, trailing, -, rfl, rfl⟩ :=
        exists_part h fun f hf => hfields f (List.mem_append_left _ hf)
      have hcount : leading.toNat + groups.length = 8 := by
        by_contra hne
        simp [fieldsAddress, length_groupFields, hne] at ha
      by_cases hextra : leading = true ∨ trailing = true
      · exact Or.inr (.plain leading trailing groups hcount hextra)
      · rw [not_or, Bool.not_eq_true, Bool.not_eq_true] at hextra
        obtain ⟨rfl, rfl⟩ := hextra
        rw [Bool.toNat_false, Nat.zero_add] at hcount
        rw [Fields.mark_false, List.nil_append, List.append_nil]
        exact Or.inl ⟨_, .full groups hcount⟩
  | some tail =>
      obtain ⟨leading, head, rest, hleading, rfl, rfl, hrest⟩ :=
        exists_parts h fun f hf => hfields f (List.mem_append_left _ hf)
      obtain ⟨third, tail, trailing, htrailing, rfl, rfl⟩ :=
        exists_part hrest fun f hf => hfields f (List.mem_append_right _ hf)
      have hcount : max 1 (leading.toNat + head.length) + (third.toNat + tail.length) ≤ 8 := by
        by_contra hne
        simp [fieldsAddress, length_groupFields, length_headFields hleading, hne] at ha
      by_cases hextra :
          leading = true ∨ third = true ∨ trailing = true ∨ head.length + tail.length = 8
      · exact Or.inr
          (.compressed leading third trailing head tail hleading htrailing hcount hextra)
      · simp only [not_or, Bool.not_eq_true] at hextra
        obtain ⟨rfl, rfl, rfl, hfewer⟩ := hextra
        simp only [Bool.toNat_false, Nat.zero_add] at hcount
        simp only [Fields.mark_false, List.nil_append, List.append_nil]
        exact Or.inl ⟨_, .compressed head tail (by omega)⟩

/-! ## The parser and the grammar -/

structure CString (platform : Platform) where
  chars : List Byte
  nonzero : ∀ c ∈ chars, c ≠ 0
  fits : chars.length < 2 ^ (8 * platform.sizeofPointer)

namespace CString

variable {platform : Platform}

def memory (s : CString platform) (beyond : List Byte) : List Byte := s.chars ++ 0 :: beyond

theorem strlen_memory (s : CString platform) (beyond : List Byte) :
    platform.strlen (s.memory beyond) = lenOf platform s.chars.length :=
  platform_strlen_of_text fun hzero => s.nonzero 0 hzero rfl

def parse (s : CString platform) (beyond : List Byte) (dest : Memory Byte) : Bool × Memory Byte :=
  stoip6 (s.memory beyond) (lenOf platform s.chars.length) dest

variable {s : CString platform} {a : List Byte}

theorem parse_of_rfc (hlength : s.chars.length < 40) (ha : Rfc4291 s.chars a) (beyond : List Byte)
    (dest : Memory Byte) :
    (s.parse beyond dest).1 = true ∧ (s.parse beyond dest).2.load 0 16 = a := by
  obtain ⟨head, tail, hreads, hfields, hbytes⟩ := ha.reads
  exact stoip6_of_reads hreads s.nonzero hlength (stops_zero beyond) hfields hbytes

theorem parse_of_overlooked (hlength : s.chars.length < 40) (h : Overlooked s.chars)
    (beyond : List Byte) (dest : Memory Byte) : (s.parse beyond dest).1 = true := by
  obtain ⟨head, tail, a, hreads, hfields, hbytes⟩ := h.reads
  exact (stoip6_of_reads hreads s.nonzero hlength (stops_zero beyond) hfields hbytes).1

theorem rfc_of_parse (hlength : s.chars.length < 40) (hover : ¬ Overlooked s.chars)
    {beyond : List Byte} {dest : Memory Byte} (h : (s.parse beyond dest).1 = true) :
    ∃ a, Rfc4291 s.chars a := by
  obtain ⟨head, tail, a, hreads, hfields, hbytes⟩ :=
    reads_of_stoip6 s.nonzero hlength (stops_zero beyond) h
  exact (rfc_or_overlooked hreads hfields hbytes).resolve_right hover

theorem parse_long (hlength : 40 ≤ s.chars.length) (beyond : List Byte) (dest : Memory Byte) :
    (s.parse beyond dest).1 = false := by
  have hlong : (lenOf platform s.chars.length).toNat ≥ 40 := by
    rw [lenOf, BitVec.toNat_ofNat, Nat.mod_eq_of_lt s.fits]
    exact hlength
  rw [parse, stoip6, if_pos hlong]
  rfl

end CString

/-- What an answer for a text should be, and the bytes at `dest` then. -/
def Answers (t : List Byte) (answer : Bool) (dest : List Byte) : Prop :=
  (answer = true ↔ t.length ≤ 39 ∧ ∃ a, Rfc4291 t a) ∧
    (answer = true → Rfc4291 t dest) ∧ (answer = false → dest = List.replicate 16 0)

/-- `stoip6` answers as the grammar says, on every platform and for every string, unless the
string has at most 39 characters and is one of those with a colon or a group too many. -/
theorem stoip6_answers_iff (platform : Platform) (s : CString platform) (beyond : List Byte)
    (dest : Memory Byte) :
    let out := stoip6 (s.memory beyond) (platform.strlen (s.memory beyond)) dest
    Answers s.chars out.1 (out.2.load 0 16) ↔ ¬ (s.chars.length ≤ 39 ∧ Overlooked s.chars) := by
  dsimp only
  rw [s.strlen_memory]
  change Answers s.chars (s.parse beyond dest).1 ((s.parse beyond dest).2.load 0 16) ↔ _
  rcases Nat.lt_or_ge s.chars.length 40 with hlength | hlength
  · have hfits : s.chars.length ≤ 39 := Nat.le_of_lt_succ hlength
    constructor
    · rintro ⟨-, htrue, -⟩ ⟨-, hover⟩
      exact hover.not_rfc (htrue (CString.parse_of_overlooked hlength hover beyond dest))
    · intro hnot
      have hover : ¬ Overlooked s.chars := fun h => hnot ⟨hfits, h⟩
      refine ⟨⟨fun h => ⟨hfits, CString.rfc_of_parse hlength hover h⟩, ?_⟩, ?_, load_of_error⟩
      · rintro ⟨-, a, ha⟩
        exact (CString.parse_of_rfc hlength ha beyond dest).1
      · intro h
        obtain ⟨a, ha⟩ := CString.rfc_of_parse hlength hover h
        rwa [(CString.parse_of_rfc hlength ha beyond dest).2]
  · have hfalse := CString.parse_long hlength beyond dest
    have hlong : ¬ s.chars.length ≤ 39 := Nat.not_le_of_lt hlength
    refine iff_of_true ⟨⟨?_, ?_⟩, ?_, load_of_error⟩ fun h => hlong h.1
    · intro h
      cases hfalse.symm.trans h
    · exact fun h => absurd h.1 hlong
    · intro h
      cases hfalse.symm.trans h

/-- `:1:2:3:4:5:6:7` is taken, for 0:1:2:3:4:5:6:7. -/
theorem leadingColon_not_answered : ¬ ∀ (platform : Platform) (s : CString platform)
    (beyond : List Byte) (dest : Memory Byte),
    let out := stoip6 (s.memory beyond) (platform.strlen (s.memory beyond)) dest
    Answers s.chars out.1 (out.2.load 0 16) := by
  intro h
  let fields : List (List Byte) := [[0x31], [0x32], [0x33], [0x34], [0x35], [0x36], [0x37]]
  let s : CString .target := ⟨colon :: joined colon fields, by decide, by decide⟩
  have hanswers := h .target s [] fun _ => 0
  obtain ⟨-, a, ha⟩ := hanswers.1.mp (by decide)
  obtain ⟨groups, hgroups⟩ := exists_groups (show ∀ f ∈ fields, f ≠ [] ∧ IsField f by decide)
  have htext : mark colon true ++ groupsText groups ++ mark colon false = s.chars := by
    rw [groupsText, ← hgroups]
    rfl
  have hcount : groups.length = 7 := by simpa [fields] using (congrArg List.length hgroups).symm
  have hover : Overlooked (mark colon true ++ groupsText groups ++ mark colon false) :=
    .plain true false groups (by rw [hcount]; rfl) (Or.inl rfl)
  rw [htext] at hover
  exact hover.not_rfc ha

end OpenIotSdk.Netsocket
