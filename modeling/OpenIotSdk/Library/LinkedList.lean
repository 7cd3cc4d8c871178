import Mathlib.Data.List.Nodup
import Mathlib.Logic.Function.Basic

/-! # Linked lists in a heap

Each node has a link to the next one, or none. A list of nodes is spelled by the links from a
pointer on. -/

namespace LinkedList

variable {ρ : Type*} {next next' : ρ → Option ρ} {p : Option ρ} {r x : ρ} {l l' : List ρ}

/-- From `p` on, the links lead through exactly the nodes of the list. -/
def Spells (next : ρ → Option ρ) : Option ρ → List ρ → Prop
  | p, [] => p = none
  | p, r :: l => p = some r ∧ Spells next (next r) l

/-- From `p` on, the links lead to `r`. -/
inductive Reaches (next : ρ → Option ρ) : Option ρ → ρ → Prop
  | here (r : ρ) : Reaches next (some r) r
  | there {r x : ρ} : Reaches next (next r) x → Reaches next (some r) x

/-- The links of the nodes decide. -/
theorem Spells.congr (h : Spells next p l) (heq : ∀ r ∈ l, next' r = next r) :
    Spells next' p l := by
  induction l generalizing p with
  | nil => exact h
  | cons r l ih =>
      refine ⟨h.1, ?_⟩
      rw [heq r List.mem_cons_self]
      exact ih h.2 fun x hx => heq x (List.mem_cons_of_mem r hx)

theorem Spells.unique (h : Spells next p l) (h' : Spells next p l') : l = l' := by
  induction l generalizing p l' with
  | nil =>
      cases l' with
      | nil => rfl
      | cons r l' => cases h.symm.trans h'.1
  | cons r l ih =>
      cases l' with
      | nil => cases h.1.symm.trans h'
      | cons r' l' =>
          cases h.1.symm.trans h'.1
          rw [ih h.2 h'.2]

theorem Spells.reaches_iff (h : Spells next p l) : Reaches next p x ↔ x ∈ l := by
  induction l generalizing p with
  | nil =>
      rw [show p = none from h]
      exact iff_of_false nofun List.not_mem_nil
  | cons r l ih =>
      rw [h.1, List.mem_cons, ← ih h.2]
      constructor
      · intro hreaches
        cases hreaches with
        | here => exact Or.inl rfl
        | there hnext => exact Or.inr hnext
      · rintro (rfl | hnext)
        · exact .here x
        · exact .there hnext

/-- A list that is spelled from its node on. -/
theorem Spells.suffix (h : Spells next p (l ++ r :: l')) : Spells next (some r) (r :: l') := by
  induction l generalizing p with
  | nil => exact ⟨rfl, h.2⟩
  | cons x l ih => exact ih h.2

/-- It ends, so it does not come back to a node. -/
theorem Spells.nodup (h : Spells next p l) : l.Nodup := by
  induction l generalizing p with
  | nil => exact List.nodup_nil
  | cons r l ih =>
      refine List.nodup_cons.mpr ⟨fun hmem => ?_, ih h.2⟩
      obtain ⟨front, rest, rfl⟩ := List.append_of_mem hmem
      have hsame : r :: rest = r :: (front ++ r :: rest) :=
        Spells.unique (Spells.suffix h.2) ⟨rfl, h.2⟩
      have hlength := congrArg List.length hsame
      simp only [List.length_cons, List.length_append] at hlength
      omega

theorem Spells.last (h : Spells next p (l ++ [r])) : next r = none :=
  h.suffix.2

/-- A new node is linked to the last one. -/
theorem Spells.snoc (h : Spells next p (l ++ [r])) (hx : x ∉ l ++ [r])
    (hlink : next' r = some x) (hend : next' x = none)
    (heq : ∀ y, y ≠ r → y ≠ x → next' y = next y) : Spells next' p (l ++ [r] ++ [x]) := by
  have hnodup := h.nodup
  induction l generalizing p with
  | nil => exact ⟨h.1, hlink, hend⟩
  | cons y l ih =>
      obtain ⟨hy, hnodup⟩ := List.nodup_cons.mp hnodup
      have hne : y ≠ r := fun hyr => hy (by simp [hyr])
      have hne' : y ≠ x := fun hyx => hx (by simp [hyx])
      refine ⟨h.1, ?_⟩
      rw [heq y hne hne']
      exact ih h.2 (fun hmem => hx (List.mem_cons_of_mem y hmem)) hnodup

end LinkedList
