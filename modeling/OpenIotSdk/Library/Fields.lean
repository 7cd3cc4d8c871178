import Mathlib.Data.List.Basic

/-! # Fields between separators

A text of fields, with a separator between one and the next. Where two separators stand in a row
the text goes over to its second part. A field may be empty. -/

namespace Fields

variable {α : Type*}

/-- How a text is read: the fields before two separators in a row, and those behind them if there
are two in a row. A separator at the end of a part is skipped. -/
inductive Reads (sep : α) : List α → List (List α) → Option (List (List α)) → Prop where
  | nil : Reads sep [] [] none
  | last {f} : f ≠ [] → sep ∉ f → Reads sep f [f] none
  | single {f s head tail} : sep ∉ f → s.head? ≠ some sep → Reads sep s head tail →
      Reads sep (f ++ sep :: s) (f :: head) tail
  | double {f s tail} : sep ∉ f → Reads sep s tail none →
      Reads sep (f ++ sep :: sep :: s) [f] (some tail)

variable {sep : α}

/-- The fields with a separator between one and the next. -/
def joined (sep : α) : List (List α) → List α
  | [] => []
  | [f] => f
  | f :: g :: fs => f ++ sep :: joined sep (g :: fs)

theorem joined_cons {f : List α} {fs : List (List α)} (h : fs ≠ []) :
    joined sep (f :: fs) = f ++ sep :: joined sep fs := by
  cases fs with
  | nil => exact absurd rfl h
  | cons g fs => rfl

theorem mem_joined {x : α} (hx : x ≠ sep) {fs : List (List α)} :
    x ∈ joined sep fs ↔ ∃ f ∈ fs, x ∈ f := by
  induction fs with
  | nil => simp [joined]
  | cons f fs ih =>
      by_cases hnil : fs = []
      · simp [hnil, joined]
      · rw [joined_cons hnil, List.mem_append, List.mem_cons, or_iff_right hx, ih,
          List.exists_mem_cons_iff]

/-- A separator that is there or not. -/
def mark (sep : α) (there : Bool) : List α := if there then [sep] else []

@[simp] theorem mark_true : mark sep true = [sep] := rfl

@[simp] theorem mark_false : mark sep false = [] := rfl

/-- Fields that do not begin with an empty one do not begin with a separator. -/
theorem joined_head {g : List α} {fs : List (List α)} {s : List α} (hg : g ≠ [])
    (hsep : sep ∉ g) : (joined sep (g :: fs) ++ s).head? ≠ some sep := by
  obtain ⟨x, g, rfl⟩ := List.exists_cons_of_ne_nil hg
  have hx : x ≠ sep := fun h => hsep (by simp [h])
  cases fs <;> simp [joined, hx]

/-- Where the first field of a text ends. -/
theorem first_field (sep : α) (s : List α) :
    sep ∉ s ∨ (∃ f r, s = f ++ sep :: r ∧ sep ∉ f ∧ r.head? ≠ some sep) ∨
      ∃ f r, s = f ++ sep :: sep :: r ∧ sep ∉ f := by
  by_cases hmem : sep ∈ s
  · obtain ⟨f, r, rfl, hf⟩ := List.eq_append_cons_of_mem hmem
    by_cases hr : r.head? = some sep
    · obtain ⟨r', rfl⟩ := List.head?_eq_some_iff.mp hr
      exact Or.inr (Or.inr ⟨f, r', rfl, hf⟩)
    · exact Or.inr (Or.inl ⟨f, r, rfl, hf, hr⟩)
  · exact Or.inl hmem

/-! ## Texts that are read -/

/-- A part of the text, whose first field may be empty unless there is nothing else. -/
theorem reads_joined {f : List α} {fs : List (List α)} (trailing : Bool) (hf : sep ∉ f)
    (hfs : ∀ g ∈ fs, g ≠ [] ∧ sep ∉ g) (hsome : f ≠ [] ∨ fs ≠ [] ∨ trailing = true) :
    Reads sep (joined sep (f :: fs) ++ mark sep trailing) (f :: fs) none := by
  induction fs generalizing f with
  | nil =>
      cases trailing with
      | true => exact .single hf (by simp) .nil
      | false =>
          rw [mark_false, List.append_nil]
          exact .last (hsome.resolve_right (by simp)) hf
  | cons g fs ih =>
      obtain ⟨hg, hsep⟩ := hfs g (by simp)
      have hrest := ih hsep (fun g' h => hfs g' (by simp [h])) (Or.inl hg)
      rw [joined, List.append_assoc, List.cons_append]
      exact .single hf (joined_head hg hsep) hrest

/-- The first part, before the second one. -/
theorem Reads.before {f : List α} {fs tail : List (List α)} {s : List α} (hf : sep ∉ f)
    (hfs : ∀ g ∈ fs, g ≠ [] ∧ sep ∉ g) (h : Reads sep s tail none) :
    Reads sep (joined sep (f :: fs) ++ sep :: sep :: s) (f :: fs) (some tail) := by
  induction fs generalizing f with
  | nil => exact .double hf h
  | cons g fs ih =>
      obtain ⟨hg, hsep⟩ := hfs g (by simp)
      rw [joined, List.append_assoc, List.cons_append]
      exact .single hf (joined_head hg hsep) (ih hsep fun g' h => hfs g' (by simp [h]))

/-! ## What has been read -/

/-- A part that has been read has a first field and fields that are not empty, or nothing. -/
theorem Reads.part {s : List α} {fs : List (List α)} (h : Reads sep s fs none) :
    (s = [] ∧ fs = []) ∨ ∃ f gs trailing, fs = f :: gs ∧ sep ∉ f ∧ (∀ g ∈ gs, g ≠ [] ∧ sep ∉ g) ∧
      (f ≠ [] ∨ gs ≠ [] ∨ trailing = true) ∧ s = joined sep fs ++ mark sep trailing := by
  generalize htail : (none : Option (List (List α))) = tail at h
  induction h with
  | nil => exact Or.inl ⟨rfl, rfl⟩
  | @last f hne hf =>
      exact Or.inr ⟨f, [], false, rfl, hf, by simp, Or.inl hne, by simp [joined]⟩
  | @single f s head tail hf hs _ ih =>
      right
      rcases ih htail with ⟨rfl, rfl⟩ | ⟨g, gs, trailing, rfl, hg, hgs, -, rfl⟩
      · exact ⟨f, [], true, rfl, hf, by simp, by simp, rfl⟩
      · have hne : g ≠ [] := by
          rintro rfl
          cases gs with
          | nil => cases trailing <;> simp_all [joined]
          | cons g' gs => simp [joined] at hs
        refine ⟨f, g :: gs, trailing, rfl, hf, List.forall_mem_cons.mpr ⟨⟨hne, hg⟩, hgs⟩,
          by simp, ?_⟩
        rw [joined, List.append_assoc, List.cons_append]
  | double => cases htail

/-- The fields of the first part, and the rest that the second part has been read from. -/
theorem Reads.parts {s : List α} {fs tail : List (List α)} (h : Reads sep s fs (some tail)) :
    ∃ f gs rest, fs = f :: gs ∧ sep ∉ f ∧ (∀ g ∈ gs, g ≠ [] ∧ sep ∉ g) ∧
      s = joined sep fs ++ sep :: sep :: rest ∧ Reads sep rest tail none := by
  generalize htail : some tail = tail' at h
  induction h with
  | nil | last => cases htail
  | @single f s head tail hf hs _ ih =>
      obtain ⟨g, gs, rest, rfl, hg, hgs, rfl, hrest⟩ := ih htail
      have hne : g ≠ [] := by
        rintro rfl
        cases gs <;> simp [joined] at hs
      refine ⟨f, g :: gs, rest, rfl, hf, List.forall_mem_cons.mpr ⟨⟨hne, hg⟩, hgs⟩, ?_, hrest⟩
      rw [joined, List.append_assoc, List.cons_append]
  | @double f s tail' hf hrest =>
      cases htail
      exact ⟨f, [], s, rfl, hf, by simp, rfl, hrest⟩

/-! ## A text is read in one way -/

/-- The first field goes to the first separator. -/
theorem field_unique {f g q r : List α} (hf : sep ∉ f) (hg : sep ∉ g)
    (hq : ∀ x ∈ q.head?, x = sep) (hr : ∀ x ∈ r.head?, x = sep) (h : f ++ q = g ++ r) :
    f = g ∧ q = r := by
  induction f generalizing g with
  | nil =>
      cases g with
      | nil => exact ⟨rfl, h⟩
      | cons x g =>
          subst h
          exact absurd (hq x rfl) fun hx => hg (by simp [hx])
  | cons x f ih =>
      cases g with
      | nil =>
          subst h
          exact absurd (hr x rfl) fun hx => hf (by simp [hx])
      | cons y g =>
          obtain ⟨rfl, hrest⟩ := List.cons.inj h
          obtain ⟨rfl, rfl⟩ := ih (List.not_mem_of_not_mem_cons hf)
            (List.not_mem_of_not_mem_cons hg) hrest
          exact ⟨rfl, rfl⟩

theorem Reads.unique {s : List α} {fs gs : List (List α)} {t u : Option (List (List α))}
    (h : Reads sep s fs t) (h' : Reads sep s gs u) : fs = gs ∧ t = u := by
  induction h generalizing gs u with
  | nil =>
      generalize hs : [] = s' at h'
      cases h' with
      | nil => exact ⟨rfl, rfl⟩
      | last hne => exact absurd hs.symm hne
      | single | double => simp at hs
  | @last f hne hf =>
      generalize hs : f = s' at h'
      cases h' with
      | nil => exact absurd hs hne
      | last => exact ⟨rfl, rfl⟩
      | single | double => simp [hs] at hf
  | @single f s head tail hf hhead _ ih =>
      generalize hs : f ++ sep :: s = s' at h'
      cases h' with
      | nil => simp at hs
      | last _ hg => simp [← hs] at hg
      | single hg _ hrest =>
          obtain ⟨rfl, heq⟩ := field_unique hf hg (by simp) (by simp) hs
          cases heq
          obtain ⟨rfl, rfl⟩ := ih hrest
          exact ⟨rfl, rfl⟩
      | double hg =>
          obtain ⟨rfl, heq⟩ := field_unique hf hg (by simp) (by simp) hs
          cases heq
          simp at hhead
  | @double f s tail hf _ ih =>
      generalize hs : f ++ sep :: sep :: s = s' at h'
      cases h' with
      | nil => simp at hs
      | last _ hg => simp [← hs] at hg
      | single hg hhead =>
          obtain ⟨rfl, heq⟩ := field_unique hf hg (by simp) (by simp) hs
          cases heq
          simp at hhead
      | double hg hrest =>
          obtain ⟨rfl, heq⟩ := field_unique hf hg (by simp) (by simp) hs
          cases heq
          obtain ⟨rfl, -⟩ := ih hrest
          exact ⟨rfl, rfl⟩

end Fields
