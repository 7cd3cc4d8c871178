import OpenIotSdk.Library.Ledger

/-! # Blocks of memory

`malloc` hands out blocks of arbitrary contents: a pointer in one is not assigned until the
program writes it. -/

/-- A pointer in a block. -/
structure Pointer where
  value : Option ℕ -- the number of a block, or null
  assigned : Bool

/-- The blocks, and how often a pointer was read that was not assigned. -/
structure Blocks where
  ledger : Ledger
  unassignedReads : ℕ

namespace Blocks

def malloc (m : Blocks) (succeeds : Bool) : Option ℕ × Blocks :=
  if succeeds then (some m.ledger.issued, { m with ledger := m.ledger.issue }) else (none, m)

def free (m : Blocks) (id : ℕ) : Blocks := { m with ledger := m.ledger.settle id }

def read (m : Blocks) (p : Pointer) : Blocks :=
  { m with unassignedReads := m.unassignedReads + if p.assigned then 0 else 1 }

/-- A pointer is read, and its block is freed unless it is null. -/
def release (m : Blocks) (p : Pointer) : Blocks :=
  match p.value with
  | some id => (m.read p).free id
  | none => m.read p

/-- What was allocated since `m` is freed again, each block once, and no pointer was read that was
not assigned. -/
structure Undone (m m' : Blocks) : Prop where
  returned : m.ledger.Returned m'.ledger
  reads : m'.unassignedReads = m.unassignedReads

variable {m m' : Blocks} {p : Pointer}

@[simp] theorem free_unassignedReads (m : Blocks) (id : ℕ) :
    (m.free id).unassignedReads = m.unassignedReads := rfl

theorem release_unassignedReads (m : Blocks) (p : Pointer) :
    (m.release p).unassignedReads = m.unassignedReads + if p.assigned then 0 else 1 := by
  unfold release
  cases p.value with
  | none => rfl
  | some id => rfl

theorem release_assigned (m : Blocks) (id : ℕ) : m.release ⟨some id, true⟩ = m.free id := rfl

theorem release_null (m : Blocks) : m.release ⟨none, true⟩ = m := rfl

theorem Undone.refl (m : Blocks) : m.Undone m := ⟨.refl _, rfl⟩

/-- A block may be allocated before and freed after. -/
theorem Undone.free (h : Undone { m with ledger := m.ledger.issue } m') :
    m.Undone (m'.free m.ledger.issued) :=
  ⟨h.returned.bracket, h.reads⟩

end Blocks
