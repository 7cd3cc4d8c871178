import OpenIotSdk.Model.Azure.SocketIoAllocation
import OpenIotSdk.Verification.SocketIo.Integrity

/-! # Failed allocations of the socket adapter

What a failing call allocated, it frees. Only the exit of `socketio_create` may find a host's name
that was not assigned. -/

namespace OpenIotSdk.SocketIo.Allocation

variable {api : SinglyLinkedList ℕ} {β : Type} {config : Option SocketIoConfig}
  {contents : Option ℕ × Option ℕ} {s : State api β} {buffer : List β} {onSendComplete : Option ℕ}
  {m : Blocks}

def CreateReplies.Fails (replies : CreateReplies) : Prop :=
  (replies.ret && replies.pendingIoList && replies.hostname) = false

def AddReplies.Fails (replies : AddReplies) : Prop :=
  (replies.pendingSocketIo && replies.bytes && replies.item) = false

/-- The call reports a failure and frees what it allocated. -/
structure CreateUndone (m : Blocks) (r : Option (Created api β) × Blocks) : Prop where
  failed : r.1 = none
  undone : m.Undone r.2

/-- The call reports a failure, frees what it allocated and leaves the instance and its queue. -/
structure AddUndone (s : State api β) (m : Blocks) (r : Added api β) : Prop where
  failed : r.ok = false
  state : r.state = s
  undone : m.Undone r.blocks

/-! ## `socketio_create` -/

/-- Without a list, the exit reads the host's name as `malloc` left it. -/
theorem createFailed_reads (id : ℕ) {fields : SocketIoInstance}
    (h : fields.hostname.assigned = false) :
    m.unassignedReads <
      (createFailed (some (id, fields)) m : Option (Created api β) × Blocks).2.unassignedReads := by
  have hhostname : (m.release fields.hostname).unassignedReads = m.unassignedReads + 1 := by
    rw [Blocks.release_unassignedReads, h]
    rfl
  change _ < ((m.release fields.hostname).release fields.pendingIoList).unassignedReads
  rw [Blocks.release_unassignedReads, hhostname]
  omega

/-- Without a host's name, the list and the instance are freed. -/
theorem createFailed_undone (m : Blocks) :
    CreateUndone m (createFailed (some (m.ledger.issued,
      ⟨⟨none, true⟩, ⟨some m.ledger.issue.issued, true⟩⟩))
      { m with ledger := m.ledger.issue.issue } : Option (Created api β) × Blocks) where
  failed := rfl
  undone := by
    dsimp only [createFailed]
    rw [Blocks.release_null, Blocks.release_assigned]
    exact (Blocks.Undone.refl _).free.free

/-- The call is undone unless it has an instance and no list. -/
theorem socketioCreate_undone_iff {replies : CreateReplies} (h : replies.Fails) :
    CreateUndone m (socketioCreate api β config replies contents m) ↔
      config = none ∨ replies.ret = false ∨ replies.pendingIoList = true := by
  cases config with
  | none => exact iff_of_true ⟨rfl, .refl m⟩ (Or.inl rfl)
  | some config =>
      obtain ⟨ret, list, hostname⟩ := replies
      cases ret with
      | false => exact iff_of_true ⟨rfl, .refl m⟩ (Or.inr (Or.inl rfl))
      | true =>
          cases list with
          | false =>
              refine iff_of_false ?_ (by simp)
              intro hundone
              let fields : SocketIoInstance := ⟨⟨contents.1, false⟩, ⟨none, true⟩⟩
              have hreads : m.unassignedReads < (createFailed (some (m.ledger.issued, fields))
                  { m with ledger := m.ledger.issue } :
                    Option (Created api β) × Blocks).2.unassignedReads :=
                createFailed_reads (m := { m with ledger := m.ledger.issue }) m.ledger.issued rfl
              exact absurd hundone.undone.reads hreads.ne'
          | true =>
              have hnone : hostname = false := h
              subst hnone
              exact iff_of_true (createFailed_undone m) (Or.inr (Or.inr rfl))

/-! ## `add_pending_io` -/

theorem setEntry_none {id : ℕ} (h : s.heap id = none) : s.setEntry id none = s := by
  unfold State.setEntry
  rw [Function.update_eq_self_iff.mpr h.symm]

/-- An entry that was not in use is taken out again. -/
theorem setEntry_setEntry_none {id : ℕ} (h : s.heap id = none) (e : PendingSocketIo β) :
    (s.setEntry id (some e)).setEntry id none = s := by
  refine Eq.trans ?_ (setEntry_none h)
  unfold State.setEntry
  simp only [Function.update_idem]

theorem addPendingIo_undone {replies : AddReplies} (h : replies.Fails)
    (hfresh : s.fresh (some m.ledger.issued) = true) :
    AddUndone s m (addPendingIo s buffer onSendComplete replies m) := by
  have hheap : s.heap m.ledger.issued = none := by
    simp only [State.fresh, Bool.and_eq_true, Option.isNone_iff_eq_none] at hfresh
    exact hfresh.1
  obtain ⟨entry, bytes, item⟩ := replies
  cases entry with
  | false => exact ⟨rfl, rfl, .refl m⟩
  | true =>
      cases bytes with
      | false =>
          exact ⟨rfl, setEntry_none hheap, (Blocks.Undone.refl _).free⟩
      | true =>
          have hitem : item = false := h
          subst hitem
          exact ⟨rfl, setEntry_setEntry_none hheap _, (Blocks.Undone.refl _).free.free⟩

/-- Where nothing fails, the buffer is queued. -/
theorem addPendingIo_state {replies : AddReplies} (h : ¬ replies.Fails) :
    (addPendingIo s buffer onSendComplete replies m).state =
      s.addPendingIo buffer onSendComplete m.ledger.issued := by
  obtain ⟨entry, bytes, item⟩ := replies
  simp only [AddReplies.Fails, Bool.not_eq_false, Bool.and_eq_true] at h
  obtain ⟨⟨rfl, rfl⟩, rfl⟩ := h
  rfl

/-! ## Failures -/

/-- Every failing call is undone, but `socketio_create` without a list. -/
theorem failures_iff {created : CreateReplies} {added : AddReplies} (hcreated : created.Fails)
    (hadded : added.Fails) (hfresh : s.fresh (some m.ledger.issued) = true) :
    (CreateUndone m (socketioCreate api β config created contents m) ↔
      config = none ∨ created.ret = false ∨ created.pendingIoList = true) ∧
    AddUndone s m (addPendingIo s buffer onSendComplete added m) :=
  ⟨socketioCreate_undone_iff hcreated, addPendingIo_undone hadded hfresh⟩

def noBlocks : Blocks := ⟨.empty, 0⟩

theorem failures_iff_listless :
    (CreateUndone noBlocks (socketioCreate lists Bool (some ⟨"host", 443⟩) ⟨true, false, true⟩
        (some 7, none) noBlocks) ↔
      (some ⟨"host", 443⟩ : Option SocketIoConfig) = none ∨
        (⟨true, false, true⟩ : CreateReplies).ret = false ∨
        (⟨true, false, true⟩ : CreateReplies).pendingIoList = true) ∧
    AddUndone (init lists Bool true true) noBlocks (addPendingIo (init lists Bool true true) [true]
      none ⟨true, true, false⟩ noBlocks) :=
  failures_iff rfl rfl (by decide)

/-- The name of the host is whatever the block held, here a block of another owner. -/
theorem listless_not_undone :
    ¬ ∀ (config : Option SocketIoConfig) (created : CreateReplies)
      (contents : Option ℕ × Option ℕ) (m : Blocks), created.Fails →
      CreateUndone m (socketioCreate lists Bool config created contents m) := by
  intro h
  have hundone := h (some ⟨"host", 443⟩) ⟨true, false, true⟩ (some 7, none) noBlocks rfl
  have hreads := hundone.undone.reads
  revert hreads
  decide

end OpenIotSdk.SocketIo.Allocation
