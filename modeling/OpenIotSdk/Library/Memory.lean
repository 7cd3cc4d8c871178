import Mathlib.Data.List.Basic
import Mathlib.Data.Nat.Basic

/-! # Byte-addressed memory

A memory gives each address its content. Lists of bytes are loaded from it and stored to it, and
what is stored in one region does not show in another one. -/

/-- The addresses from `start` on. -/
structure Region where
  start : ℕ
  size : ℕ

namespace Region

def Contains (r : Region) (x : ℕ) : Prop := r.start ≤ x ∧ x < r.start + r.size

/-- `r` is a part of `whole`. -/
def Within (r whole : Region) : Prop :=
  whole.start ≤ r.start ∧ r.start + r.size ≤ whole.start + whole.size

def Disjoint (r r' : Region) : Prop :=
  r.start + r.size ≤ r'.start ∨ r'.start + r'.size ≤ r.start

variable {r r' whole whole' : Region} {x : ℕ}

theorem Within.trans (h : r.Within r') (h' : r'.Within whole) : r.Within whole :=
  ⟨Nat.le_trans h'.1 h.1, Nat.le_trans h.2 h'.2⟩

theorem Disjoint.symm (h : r.Disjoint r') : r'.Disjoint r := Or.symm h

theorem Disjoint.mono (h : whole.Disjoint whole') (hr : r.Within whole) (hr' : r'.Within whole') :
    r.Disjoint r' :=
  h.imp (fun hle => Nat.le_trans hr.2 (Nat.le_trans hle hr'.1))
    fun hle => Nat.le_trans hr'.2 (Nat.le_trans hle hr.1)

theorem Disjoint.not_contains (h : r.Disjoint r') (hx : r.Contains x) : ¬ r'.Contains x := by
  dsimp only [Disjoint, Contains] at *
  omega

/-- The next multiple of an alignment. -/
theorem dvd_add_sub_mod {align : ℕ} (h : 0 < align) (x : ℕ) : align ∣ x + (align - x % align) := by
  have hmod := Nat.mod_lt x h
  have hdiv := Nat.div_add_mod' x align
  refine ⟨x / align + 1, ?_⟩
  rw [Nat.mul_add, Nat.mul_one, Nat.mul_comm align]
  omega

end Region

def Memory (β : Type*) := ℕ → β

namespace Memory

variable {β : Type*} {m : Memory β} {a n i x : ℕ} {bytes : List β}

/-- The bytes from `a` on. -/
def load (m : Memory β) (a : ℕ) : ℕ → List β
  | 0 => []
  | n + 1 => m a :: m.load (a + 1) n

/-- The bytes are written from `a` on. -/
def store (m : Memory β) (a : ℕ) (bytes : List β) : Memory β := fun x =>
  if a ≤ x then bytes.getD (x - a) (m x) else m x

@[simp] theorem length_load : (m.load a n).length = n := by
  induction n generalizing a with
  | zero => rfl
  | succ n ih => rw [load, List.length_cons, ih]

theorem getElem?_load (h : i < n) : (m.load a n)[i]? = some (m (a + i)) := by
  induction n generalizing a i with
  | zero => cases h
  | succ n ih =>
      cases i with
      | zero => rfl
      | succ i =>
          rw [load, List.getElem?_cons_succ, ih (Nat.lt_of_succ_lt_succ h), Nat.add_right_comm,
            Nat.add_assoc]

theorem getElem?_load_of_le (h : n ≤ i) : (m.load a n)[i]? = none :=
  List.getElem?_eq_none (by rwa [length_load])

/-- What was stored is there. -/
theorem store_add {byte : β} (h : bytes[i]? = some byte) : m.store a bytes (a + i) = byte := by
  rw [store, if_pos (Nat.le_add_right a i), Nat.add_sub_cancel_left, List.getD_eq_getElem?_getD, h]
  rfl

/-- Outside the region, nothing has changed. -/
theorem store_outside (h : ¬ (Region.mk a bytes.length).Contains x) : m.store a bytes x = m x := by
  rw [store]
  split
  · next hle =>
      have hbeyond : bytes.length ≤ x - a := by
        dsimp only [Region.Contains] at h
        omega
      rw [List.getD_eq_getElem?_getD, List.getElem?_eq_none hbeyond]
      rfl
  · rfl

variable {m' : Memory β} {b k : ℕ}

theorem load_add : m.load a (n + k) = m.load a n ++ m.load (a + n) k := by
  induction n generalizing a with
  | zero => simp [load]
  | succ n ih =>
      rw [Nat.add_right_comm, load, load, ih, List.cons_append, Nat.add_right_comm, Nat.add_assoc]

theorem load_congr (h : ∀ i < n, m (a + i) = m' (b + i)) : m.load a n = m'.load b n := by
  refine List.ext_getElem? fun i => ?_
  by_cases hi : i < n
  · rw [getElem?_load hi, getElem?_load hi, h i hi]
  · rw [getElem?_load_of_le (Nat.le_of_not_lt hi), getElem?_load_of_le (Nat.le_of_not_lt hi)]

/-- A list of bytes is what is loaded as soon as each of them is in its place. -/
theorem load_eq_of_reads (h : ∀ i byte, bytes[i]? = some byte → m (a + i) = byte) :
    m.load a bytes.length = bytes := by
  refine List.ext_getElem? fun i => ?_
  by_cases hi : i < bytes.length
  · rw [getElem?_load hi, List.getElem?_eq_getElem hi, h i _ (List.getElem?_eq_getElem hi)]
  · rw [List.getElem?_eq_none (Nat.le_of_not_lt hi),
      getElem?_load_of_le (Nat.le_of_not_lt hi)]

theorem load_store (h : bytes.length = n) : (m.store a bytes).load a n = bytes := by
  rw [← h]
  exact load_eq_of_reads fun _ _ hread => store_add hread

/-- What is stored last is loaded from where it begins. -/
theorem load_store_add {front : List β} (hk : front.length = k) (hn : bytes.length = n) :
    (m.store a (front ++ bytes)).load (a + k) n = bytes := by
  rw [← hn]
  refine load_eq_of_reads fun i byte hread => ?_
  rw [Nat.add_assoc]
  apply store_add
  rw [List.getElem?_append_right (by omega), hk, Nat.add_sub_cancel_left, hread]

/-- What is stored elsewhere is not loaded. -/
theorem load_store_of_disjoint (h : (Region.mk a bytes.length).Disjoint ⟨b, n⟩) :
    (m.store a bytes).load b n = m.load b n := by
  refine load_congr fun i hi => store_outside fun hin => ?_
  exact h.not_contains hin ⟨Nat.le_add_right b i, Nat.add_lt_add_left hi b⟩

/-- Stored behind what is loaded. -/
theorem load_store_append :
    (m.store (a + n) bytes).load a (n + bytes.length) = m.load a n ++ bytes := by
  rw [load_add, load_store rfl, load_store_of_disjoint (Or.inr (Nat.le_refl _))]

end Memory
