import Mathlib.Data.List.Count
import Mathlib.Data.List.Perm.Basic
import Mathlib.Logic.Function.Basic

/-! # Ledgers of issued resources

A resource gets a fresh number when it is issued, and is settled when it is given back.
Until then somebody holds it. -/

structure Ledger where
  issued : ℕ -- how many resources were issued, and so the number of the next one
  settled : ℕ → ℕ -- how often each resource was settled

namespace Ledger

def empty : Ledger := ⟨0, fun _ => 0⟩

/-- The resource `l.issued` is issued. -/
def issue (l : Ledger) : Ledger := { l with issued := l.issued + 1 }

def settle (l : Ledger) (id : ℕ) : Ledger :=
  { l with settled := Function.update l.settled id (l.settled id + 1) }

/-- Each resource that was issued was settled once or is held once, and no other one is. -/
def Balanced (l : Ledger) (held : List ℕ) : Prop :=
  ∀ id, l.settled id + held.count id = if id < l.issued then 1 else 0

variable {l : Ledger} {id : ℕ} {held held' : List ℕ}

theorem balanced_empty : empty.Balanced [] :=
  fun _ => rfl

theorem Balanced.perm (h : l.Balanced held) (hp : held'.Perm held) : l.Balanced held' := by
  intro id
  rw [hp.count_eq]
  exact h id

theorem Balanced.issue (h : l.Balanced held) (hp : held'.Perm (l.issued :: held)) :
    l.issue.Balanced held' := by
  intro id
  have hid := h id
  rw [hp.count_eq, List.count_cons]
  simp only [Ledger.issue]
  by_cases heq : l.issued = id
  · subst heq
    rw [if_neg (Nat.lt_irrefl _)] at hid
    simp
    omega
  · have hlt : id < l.issued + 1 ↔ id < l.issued := by omega
    simpa [heq, hlt] using hid

theorem Balanced.settle (h : l.Balanced held) (hp : held.Perm (id :: held')) :
    (l.settle id).Balanced held' := by
  intro x
  have hx := h x
  rw [hp.count_eq, List.count_cons] at hx
  refine Eq.trans ?_ hx
  simp only [Ledger.settle, Function.update_apply]
  by_cases heq : x = id
  · simp [heq]
    omega
  · simp [heq, Ne.symm heq]

/-- The last holder gets the resource. -/
theorem Balanced.issue_last (h : l.Balanced (held ++ [])) :
    l.issue.Balanced (held ++ [l.issued]) := by
  rw [List.append_nil] at h
  exact h.issue (List.perm_append_singleton l.issued held)

theorem Balanced.settle_last (h : l.Balanced (held ++ [id])) :
    (l.settle id).Balanced (held ++ []) := by
  rw [List.append_nil]
  exact h.settle (List.perm_append_singleton id held)

/-- A resource that nobody holds any more was settled exactly once. -/
theorem Balanced.settled_eq_one (h : l.Balanced held) (hid : id < l.issued) (hn : id ∉ held) :
    l.settled id = 1 := by
  have hcount := h id
  rwa [List.count_eq_zero_of_not_mem hn, if_pos hid] at hcount

theorem Balanced.settled_le_one (h : l.Balanced held) (id : ℕ) : l.settled id ≤ 1 := by
  have hcount := h id
  split at hcount <;> omega

/-- What was issued since `l` is settled once by `l'`, and nothing else was settled. -/
structure Returned (l l' : Ledger) : Prop where
  later : l.issued ≤ l'.issued
  settled : ∀ id, l'.settled id =
    l.settled id + if l.issued ≤ id ∧ id < l'.issued then 1 else 0

theorem Returned.refl (l : Ledger) : l.Returned l where
  later := Nat.le_refl _
  settled id := by
    have hnone : ¬ (l.issued ≤ id ∧ id < l.issued) := fun h => Nat.not_le.mpr h.2 h.1
    rw [if_neg hnone, Nat.add_zero]

/-- A resource may be issued before and settled after. -/
theorem Returned.bracket {l' : Ledger} (h : l.issue.Returned l') :
    l.Returned (l'.settle l.issued) := by
  have hlater : l.issued + 1 ≤ l'.issued := h.later
  refine ⟨Nat.le_of_succ_le hlater, ?_⟩
  intro id
  have hid : l'.settled id = l.settled id + if l.issued + 1 ≤ id ∧ id < l'.issued then 1 else 0 :=
    h.settled id
  change Function.update l'.settled l.issued (l'.settled l.issued + 1) id =
    l.settled id + if l.issued ≤ id ∧ id < l'.issued then 1 else 0
  rw [Function.update_apply]
  by_cases heq : id = l.issued
  · subst heq
    rw [if_neg (fun h => Nat.not_succ_le_self _ h.1), Nat.add_zero] at hid
    rw [if_pos rfl, if_pos ⟨Nat.le_refl _, hlater⟩, hid]
  · rw [if_neg heq, hid]
    congr 1
    exact if_congr (by omega) rfl rfl

/-- Whoever forgets a resource leaves the ledger unbalanced. -/
theorem Balanced.not_forget (h : l.Balanced held) (hp : held.Perm (id :: held')) :
    ¬ l.Balanced held' := by
  intro h'
  have hcount := (h id).trans (h' id).symm
  rw [hp.count_eq, List.count_cons_self] at hcount
  omega

end Ledger
