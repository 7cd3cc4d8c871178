import OpenIotSdk.Library.Memory
import Mathlib.Algebra.BigOperators.Group.List.Basic
import Mathlib.Algebra.GroupWithZero.Nat
import Mathlib.Data.List.Forall2

/-! # Scattered data

Data that lies in several regions of a memory, one piece behind the other. -/

namespace Memory

variable {β : Type*}

/-- What lies in the regions. -/
def gather (m : Memory β) (regions : List Region) : List β :=
  regions.flatMap fun r => m.load r.start r.size

/-- The data goes to the regions; each one is filled before the next one is begun. -/
def scatter (m : Memory β) : List Region → List β → Memory β
  | [], _ => m
  | r :: regions, data =>
      (m.store r.start (data.take r.size)).scatter regions (data.drop r.size)

/-- How much the regions hold. -/
def room (regions : List Region) : ℕ := (regions.map Region.size).sum

variable {m : Memory β} {q r : Region} {regions : List Region} {data : List β} {a n : ℕ}

@[simp] theorem gather_nil : m.gather [] = [] := rfl

theorem gather_cons : m.gather (r :: regions) = m.load r.start r.size ++ m.gather regions :=
  List.flatMap_cons

@[simp] theorem room_nil : room [] = 0 := rfl

theorem room_cons : room (r :: regions) = r.size + room regions := by
  rw [room, List.map_cons, List.sum_cons, room]

@[simp] theorem length_gather : (m.gather regions).length = room regions := by
  induction regions with
  | nil => rfl
  | cons r regions ih => rw [gather_cons, List.length_append, length_load, ih, room_cons]

@[simp] theorem store_nil : m.store a [] = m := by
  funext x
  simp [store]

@[simp] theorem scatter_nil : m.scatter regions [] = m := by
  induction regions with
  | nil => rfl
  | cons r regions ih => rw [scatter, List.take_nil, List.drop_nil, store_nil, ih]

/-- What is stored covers the beginning of what is loaded. -/
theorem load_store_of_le (h : data.length ≤ n) :
    (m.store a data).load a n = data ++ (m.load a n).drop data.length := by
  obtain ⟨k, rfl⟩ := Nat.exists_eq_add_of_le h
  rw [load_add, load_add, load_store rfl, load_store_of_disjoint (Or.inl (Nat.le_refl _)),
    List.drop_left' length_load]

/-! ## Other regions -/

theorem load_scatter (h : ∀ r ∈ regions, r.Disjoint q) :
    (m.scatter regions data).load q.start q.size = m.load q.start q.size := by
  induction regions generalizing m data with
  | nil => rfl
  | cons r regions ih =>
      obtain ⟨hr, hregions⟩ := List.forall_mem_cons.mp h
      rw [scatter, ih hregions, load_store_of_disjoint]
      refine hr.mono ⟨Nat.le_refl _, ?_⟩ ⟨Nat.le_refl _, Nat.le_refl _⟩
      exact Nat.add_le_add_left (List.length_take_le _ _) _

theorem gather_store (h : ∀ q ∈ regions, (Region.mk a data.length).Disjoint q) :
    (m.store a data).gather regions = m.gather regions := by
  induction regions with
  | nil => rfl
  | cons q regions ih =>
      obtain ⟨hq, hregions⟩ := List.forall_mem_cons.mp h
      rw [gather_cons, gather_cons, load_store_of_disjoint hq, ih hregions]

/-! ## The data -/

/-- What is scattered over disjoint regions is gathered again, with what it has not covered. -/
theorem gather_scatter (hd : regions.Pairwise Region.Disjoint)
    (hroom : data.length ≤ room regions) :
    (m.scatter regions data).gather regions = data ++ (m.gather regions).drop data.length := by
  induction regions generalizing m data with
  | nil =>
      rw [List.length_eq_zero_iff.mp (Nat.le_zero.mp hroom)]
      rfl
  | cons r regions ih =>
      obtain ⟨hr, hregions⟩ := List.pairwise_cons.mp hd
      have hother : (m.store r.start (data.take r.size)).gather regions = m.gather regions := by
        refine gather_store fun q hq => ?_
        refine (hr q hq).mono ⟨Nat.le_refl _, ?_⟩ ⟨Nat.le_refl _, Nat.le_refl _⟩
        exact Nat.add_le_add_left (List.length_take_le _ _) _
      rw [room_cons] at hroom
      have hrest : (data.drop r.size).length ≤ room regions := by
        rw [List.length_drop]
        omega
      rw [scatter, gather_cons, load_scatter fun q hq => (hr q hq).symm, ih hregions hrest, hother,
        gather_cons, load_store_of_le (List.length_take_le _ _)]
      rcases Nat.le_total data.length r.size with hle | hle
      · -- The first region holds all the data.
        rw [List.take_of_length_le hle, List.drop_eq_nil_of_le hle, List.drop_append_of_le_length
          (by rwa [length_load])]
        simp
      · have hfull : (m.load r.start r.size).drop r.size = [] :=
          List.drop_eq_nil_of_le (Nat.le_of_eq length_load)
        have hover : (m.load r.start r.size).drop data.length = [] :=
          List.drop_eq_nil_of_le (by rwa [length_load])
        rw [List.length_take_of_le hle, hfull, List.append_nil, List.length_drop, ← List.append_assoc,
          List.take_append_drop, List.drop_append, length_load, hover, List.nil_append]

theorem gather_scatter_of_room (hd : regions.Pairwise Region.Disjoint)
    (hroom : data.length = room regions) : (m.scatter regions data).gather regions = data := by
  have hover : (m.gather regions).drop data.length = [] :=
    List.drop_eq_nil_of_le (Nat.le_of_eq (length_gather.trans hroom.symm))
  rw [gather_scatter hd (Nat.le_of_eq hroom), hover, List.append_nil]

/-! ## Parts of regions -/

variable {parts wholes : List Region}

theorem exists_within (h : List.Forall₂ Region.Within parts wholes) :
    ∀ r ∈ parts, ∃ w ∈ wholes, r.Within w := by
  induction h with
  | nil => exact fun _ hr => nomatch hr
  | cons hw _ ih =>
      refine List.forall_mem_cons.mpr ⟨⟨_, List.mem_cons_self, hw⟩, fun r hr => ?_⟩
      obtain ⟨w, hmem, hwithin⟩ := ih r hr
      exact ⟨w, List.mem_cons_of_mem _ hmem, hwithin⟩

/-- Parts of disjoint regions are disjoint. -/
theorem pairwise_disjoint_of_within (h : List.Forall₂ Region.Within parts wholes)
    (hd : wholes.Pairwise Region.Disjoint) : parts.Pairwise Region.Disjoint := by
  induction h with
  | nil => exact .nil
  | cons hw htail ih =>
      obtain ⟨hhead, hd⟩ := List.pairwise_cons.mp hd
      refine List.pairwise_cons.mpr ⟨fun r hr => ?_, ih hd⟩
      obtain ⟨w, hmem, hwithin⟩ := exists_within htail r hr
      exact (hhead w hmem).mono hw hwithin

end Memory
