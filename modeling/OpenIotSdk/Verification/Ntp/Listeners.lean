import OpenIotSdk.Library.LinkedList
import OpenIotSdk.Library.Transition
import OpenIotSdk.Model.Ntp.Listeners

/-! # The listeners of the NTP client

The list spells the registered listeners as long as no block is freed, and each block that
`malloc` gives is as if it were zeroed. -/

namespace OpenIotSdk.Ntp.Registry

open LinkedList Transition

variable {β γ : Type*}

def next (s : Registry β γ) (r : Ref) : Option Ref := (s.node r).next

/-- What a call or an update does. -/
structure Faithful (s : Registry β γ) (a : Action β γ) (t : Registry β γ) : Prop where
  invoked : a = .update → t.invoked = s.registered
  notifies : t.notify = t.registered
  freed : t.misfreed = []
  reachable : ∀ address, Reaches t.next (some .head) (.block address) → address ∈ t.live

/-- A block that is allocated has no callback, and no context either if none is registered; and
the list is cleared only while no block belongs to it. -/
structure Prepared (s : Registry β γ) (a : Action β γ) : Prop where
  add : ∀ state callback context acquire release block blocks,
    a = .add state (some callback) context acquire release (block :: blocks) →
    state ≠ .uninitialised → acquire = 0 → s.registered ≠ [] →
      block.contents.cb = none ∧ (context = none → block.contents.ctx = none)
  clear : ∀ state acquire release, a = .clear state acquire release →
    state ≠ .uninitialised → acquire = 0 → s.next .head = none

/-! ## The invariant -/

structure Lists (s : Registry β γ) (l : List Ref) : Prop where
  spells : Spells s.next (some .head) l
  live : ∀ address, .block address ∈ l → address ∈ s.live
  length : l.length ≤ s.mallocs + 1

def entry (s : Registry β γ) (r : Ref) : Option β × Option γ := ((s.node r).cb, (s.node r).ctx)

/-- What a registered pair looks like in a node. -/
def stored (pair : β × Option γ) : Option β × Option γ := (some pair.1, pair.2)

/-- The list spells what is registered; an empty one has a node without a callback. -/
structure Proper (s : Registry β γ) : Prop where
  misfreed : s.misfreed = []
  nodes : (s.registered = [] ∧ s.Lists [.head] ∧ s.entry .head = (none, none)) ∨
    ∃ l r, s.Lists (l ++ [r]) ∧ (l ++ [r]).map s.entry = s.registered.map stored

variable {s t : Registry β γ} {l : List Ref} {r : Ref}

theorem proper_new (heap : ℕ → Listener β γ) : (new heap).Proper :=
  ⟨rfl, Or.inl ⟨rfl, ⟨⟨rfl, rfl⟩, by simp, by simp⟩, rfl⟩⟩

theorem entry_cb {pair : β × Option γ} (h : s.entry r = stored pair) :
    (s.node r).cb = some pair.1 ∧ (s.node r).ctx = pair.2 :=
  Prod.ext_iff.mp h

/-! ## Updates -/

/-- An update invokes what the nodes store. -/
theorem notifyFrom_eq {p : Option Ref} {pairs : List (β × Option γ)} {fuel : ℕ}
    (h : Spells s.next p l) (hentries : l.map s.entry = pairs.map stored)
    (hfuel : l.length ≤ fuel) : s.notifyFrom fuel p = pairs := by
  induction l generalizing p pairs fuel with
  | nil =>
      rw [show p = none from h, List.map_eq_nil_iff.mp hentries.symm]
      cases fuel <;> rfl
  | cons r l ih =>
      cases pairs with
      | nil => cases hentries
      | cons pair pairs =>
          cases fuel with
          | zero => cases hfuel
          | succ fuel =>
              obtain ⟨hentry, hentries⟩ := List.cons.inj hentries
              obtain ⟨hcb, hctx⟩ := entry_cb hentry
              rw [h.1, notifyFrom, hcb, hctx]
              exact congrArg (pair :: ·) (ih h.2 hentries (Nat.le_of_succ_le_succ hfuel))

theorem Proper.notify (h : s.Proper) : s.notify = s.registered := by
  obtain ⟨hnone, hl, hentry⟩ | ⟨l, r, hl, hentries⟩ := h.nodes
  · have hcb : (s.node .head).cb = none := congrArg Prod.fst hentry
    rw [hnone, Registry.notify, notifyFrom, hcb]
  · exact notifyFrom_eq hl.spells hentries hl.length

/-! ## A new node -/

@[simp] theorem set_node_self (s : Registry β γ) (r : Ref) (listener : Listener β γ) :
    (s.set r listener).node r = listener :=
  Function.update_self ..

theorem set_node_of_ne {x : Ref} (h : x ≠ r) (listener : Listener β γ) :
    (s.set r listener).node x = s.node x :=
  Function.update_of_ne h ..

section Extend

variable {block : Block β γ}

theorem extend_node_new (s : Registry β γ) (r : Ref) (block : Block β γ)
    (h : r ≠ .block block.address) :
    (s.extend r block).node (.block block.address) = { block.contents with next := none } := by
  rw [extend, setNext, set_node_self, setNext, set_node_of_ne h.symm, malloc]
  simp

theorem extend_node_last (s : Registry β γ) (block : Block β γ) (h : r ≠ .block block.address) :
    (s.extend r block).node r = { s.node r with next := some (.block block.address) } := by
  rw [extend, setNext, set_node_of_ne h, setNext, set_node_self, malloc]
  simp only [set_node_of_ne h]

theorem extend_node_of_ne {x : Ref} (s : Registry β γ) (block : Block β γ) (h : x ≠ r)
    (hnew : x ≠ .block block.address) : (s.extend r block).node x = s.node x := by
  rw [extend, setNext, set_node_of_ne hnew, setNext, set_node_of_ne h, malloc]
  simp only [set_node_of_ne hnew]

theorem Lists.extend (h : s.Lists (l ++ [r])) (hfresh : block.address ∉ s.live) :
    (s.extend r block).Lists (l ++ [r] ++ [.block block.address]) ∧
      (l ++ [r]).map (s.extend r block).entry = (l ++ [r]).map s.entry ∧
      (s.extend r block).entry (.block block.address) =
        (block.contents.cb, block.contents.ctx) := by
  have hnew : .block block.address ∉ l ++ [r] := fun hmem => hfresh (h.live _ hmem)
  have hlast : r ≠ .block block.address := by
    rintro rfl
    exact hnew (by simp)
  refine ⟨⟨?_, ?_, ?_⟩, ?_, ?_⟩
  · refine h.spells.snoc hnew ?_ ?_ ?_
    · rw [next, extend_node_last s block hlast]
    · rw [next, extend_node_new s r block hlast]
    · intro y hy hy'
      rw [next, next, extend_node_of_ne s block hy hy']
  · intro address hmem
    rcases List.mem_append.mp hmem with hold | hadded
    · exact Finset.mem_insert_of_mem (h.live address hold)
    · cases List.mem_singleton.mp hadded
      exact Finset.mem_insert_self ..
  · have hlength := h.length
    rw [List.length_append, List.length_singleton]
    exact Nat.add_le_add_right hlength 1
  · refine List.map_congr_left fun x hx => ?_
    rw [entry, entry]
    by_cases hxr : x = r
    · rw [hxr, extend_node_last s block hlast]
    · rw [extend_node_of_ne s block hxr fun hxb => hnew (hxb ▸ hx)]
  · rw [entry, extend_node_new s r block hlast]

end Extend

/-! ## `iotNtpClientAddListener` -/

theorem findEnd_past {x : Ref} {fuel : ℕ} (blocks : List (Block β γ))
    (h : Spells s.next (some x) (l ++ [r])) (hcb : ∀ y ∈ l, (s.node y).cb ≠ none) :
    findEnd (l.length + fuel) blocks x s = findEnd fuel blocks r s := by
  induction l generalizing x with
  | nil =>
      cases h.1
      rw [List.length_nil, Nat.zero_add]
  | cons y l ih =>
      cases h.1
      obtain ⟨z, hz⟩ : ∃ z, s.next y = some z := by
        cases l with
        | nil => exact ⟨_, h.2.1⟩
        | cons z l => exact ⟨_, h.2.1⟩
      have hlink : (s.node y).next = some z := hz
      have hcalled : (s.node y).cb.isNone = false :=
        Option.isNone_eq_false_iff.mpr (Option.ne_none_iff_isSome.mp (hcb y List.mem_cons_self))
      rw [List.length_cons, Nat.add_right_comm]
      simp only [findEnd, hcalled, hlink, Bool.false_eq_true, if_false]
      exact ih (hz ▸ h.2) fun x hx => hcb x (List.mem_cons_of_mem y hx)

theorem findEnd_here {fuel : ℕ} {blocks : List (Block β γ)} (hcb : (s.node r).cb = none) :
    findEnd (fuel + 1) blocks r s = some (s, r) := by
  simp [findEnd, hcb]

/-- At the last node, a block is allocated. -/
theorem findEnd_extend {fuel : ℕ} {block : Block β γ} {blocks : List (Block β γ)}
    (hcb : (s.node r).cb ≠ none) (hnext : s.next r = none) :
    findEnd (fuel + 1) (block :: blocks) r s =
      if block.address ∈ s.live then none
      else findEnd fuel blocks (.block block.address) (s.extend r block) := by
  have hcalled : (s.node r).cb.isNone = false :=
    Option.isNone_eq_false_iff.mpr (Option.ne_none_iff_isSome.mp hcb)
  have hlink : (s.node r).next = none := hnext
  simp only [findEnd, hcalled, hlink, Bool.false_eq_true, if_false]

/-- What a block holds, as `malloc` gives it. -/
def found (block : Block β γ) : Option β × Option γ :=
  (block.contents.cb, block.contents.ctx)

/-- From the last node on, the loop goes past each block that has a callback already. -/
theorem findEnd_spec {fuel : ℕ} {blocks : List (Block β γ)} {x : Ref} (h : s.Lists (l ++ [r]))
    (hcb : (s.node r).cb ≠ none) (hf : findEnd fuel blocks r s = some (t, x)) :
    ∃ front block rest l', blocks = front ++ block :: rest ∧ block.contents.cb = none ∧
      (∀ b ∈ front, b.contents.cb ≠ none) ∧ t.Lists (l' ++ [x]) ∧
      l'.map t.entry = (l ++ [r]).map s.entry ++ front.map found ∧
      t.entry x = found block ∧ t.registered = s.registered ∧ t.misfreed = s.misfreed := by
  induction blocks generalizing fuel s l r with
  | nil =>
      cases fuel with
      | zero => cases hf
      | succ fuel =>
          have hcalled : (s.node r).cb.isNone = false :=
            Option.isNone_eq_false_iff.mpr (Option.ne_none_iff_isSome.mp hcb)
          have hlink : (s.node r).next = none := h.spells.last
          simp only [findEnd, hcalled, hlink, Bool.false_eq_true, if_false] at hf
          cases hf
  | cons block blocks ih =>
      cases fuel with
      | zero => cases hf
      | succ fuel =>
          rw [findEnd_extend hcb h.spells.last] at hf
          obtain ⟨hfresh, hf⟩ := Option.ite_none_left_eq_some.mp hf
          obtain ⟨hlists, hentries, hentry⟩ := h.extend hfresh
          have hcontents : ((s.extend r block).node (.block block.address)).cb =
              block.contents.cb := congrArg Prod.fst hentry
          by_cases hnone : block.contents.cb = none
          · cases fuel with
            | zero => cases hf
            | succ fuel =>
                rw [findEnd_here (hcontents.trans hnone)] at hf
                cases hf
                exact ⟨[], block, blocks, l ++ [r], rfl, hnone, by simp, hlists, by simpa using hentries,
                  hentry, rfl, rfl⟩
          · obtain ⟨front, last, rest, l', rfl, hlast, hfront, ht, hmap, hx, hregistered, hmisfreed⟩ :=
              ih hlists (hcontents ▸ hnone) hf
            refine ⟨block :: front, last, rest, l', rfl, hlast, ?_, ht, ?_, hx, hregistered, hmisfreed⟩
            · intro b hb
              rcases List.mem_cons.mp hb with rfl | hb
              · exact hnone
              · exact hfront b hb
            · rw [hmap, List.map_append, hentries, List.map_singleton, hentry, List.append_assoc]
              rfl

theorem exists_stored {front : List (Block β γ)} (h : ∀ b ∈ front, b.contents.cb ≠ none) :
    ∃ pairs : List (β × Option γ), front.map found = pairs.map stored := by
  induction front with
  | nil => exact ⟨[], rfl⟩
  | cons b front ih =>
      obtain ⟨pairs, hpairs⟩ := ih fun b' hb => h b' (List.mem_cons_of_mem b hb)
      obtain ⟨cb, hcb⟩ := Option.ne_none_iff_exists'.mp (h b List.mem_cons_self)
      refine ⟨(cb, b.contents.ctx) :: pairs, ?_⟩
      rw [List.map_cons, List.map_cons, hpairs, found, hcb]
      rfl

theorem Lists.set (h : s.Lists (l ++ [r])) (cb : Option β) (ctx : Option γ) :
    (s.set r { s.node r with cb := cb, ctx := ctx }).Lists (l ++ [r]) ∧
      (l ++ [r]).map (s.set r { s.node r with cb := cb, ctx := ctx }).entry =
        l.map s.entry ++ [(cb, ctx)] := by
  have hnot : r ∉ l := fun hmem =>
    (List.nodup_append.mp h.spells.nodup).2.2 r hmem r (List.mem_singleton_self r) rfl
  refine ⟨⟨h.spells.congr fun x _ => ?_, h.live, h.length⟩, ?_⟩
  · rw [next, next]
    by_cases hx : x = r
    · rw [hx, set_node_self]
    · rw [set_node_of_ne hx]
  · rw [List.map_append, List.map_singleton]
    congr 1
    · refine List.map_congr_left fun x hx => ?_
      have hne : x ≠ r := by
        rintro rfl
        exact hnot hx
      rw [entry, entry, set_node_of_ne hne]
    · rw [entry, set_node_self]

/-- What the list spells after a listener has been added: `pairs` and `ctx` come out of the
blocks. -/
structure Added (s : Registry β γ) (callback : β) (context : Option γ) (blocks : List (Block β γ))
    (pairs : List (β × Option γ)) (ctx : Option γ) (t : Registry β γ) : Prop where
  misfreed : t.misfreed = []
  registered : t.registered = s.registered ++ [(callback, context)]
  nodes : ∃ l r, t.Lists (l ++ [r]) ∧ (l ++ [r]).map t.entry =
    (s.registered ++ pairs ++ [(callback, context.or ctx)]).map stored
  block : (s.registered = [] ∧ pairs = [] ∧ ctx = none) ∨
    (s.registered ≠ [] ∧ ∃ block rest, blocks = block :: rest ∧
      (pairs = [] ↔ block.contents.cb = none) ∧ (pairs = [] → ctx = block.contents.ctx))

theorem called_of_entries (hentries : l.map s.entry = s.registered.map stored) :
    ∀ r ∈ l, (s.node r).cb ≠ none := by
  intro r hr hnone
  obtain ⟨pair, -, hpair⟩ := List.mem_map.mp (hentries ▸ List.mem_map_of_mem hr)
  cases hnone.symm.trans (entry_cb hpair.symm).1

/-- The loop ends at the node for the new listener. -/
theorem Proper.findEnd (h : s.Proper) {blocks : List (Block β γ)} {x : Ref}
    (hf : Registry.findEnd (s.mallocs + blocks.length + 1) blocks .head s = some (t, x)) :
    ∃ l pairs ctx, t.Lists (l ++ [x]) ∧ t.misfreed = [] ∧ t.registered = s.registered ∧
      (t.node x).ctx = ctx ∧ l.map t.entry = (s.registered ++ pairs).map stored ∧
      ((s.registered = [] ∧ pairs = [] ∧ ctx = none) ∨
        (s.registered ≠ [] ∧ ∃ block rest, blocks = block :: rest ∧
          (pairs = [] ↔ block.contents.cb = none) ∧
          (pairs = [] → ctx = block.contents.ctx))) := by
  obtain ⟨hnone, hl, hentry⟩ | ⟨l, r, hl, hentries⟩ := h.nodes
  · rw [findEnd_here (congrArg Prod.fst hentry)] at hf
    cases hf
    exact ⟨[], [], none, hl, h.misfreed, rfl, congrArg Prod.snd hentry, by rw [hnone]; rfl,
      Or.inl ⟨hnone, rfl, rfl⟩⟩
  · have hcb := called_of_entries hentries
    have hne : s.registered ≠ [] := by
      intro hnone
      rw [hnone] at hentries
      exact absurd (List.map_eq_nil_iff.mp hentries) (by simp)
    have hlength := hl.length
    rw [List.length_append, List.length_singleton] at hlength
    obtain ⟨fuel, hfuel⟩ : ∃ fuel, s.mallocs + blocks.length + 1 = l.length + fuel :=
      ⟨s.mallocs + blocks.length + 1 - l.length, by omega⟩
    rw [hfuel, findEnd_past blocks hl.spells fun y hy => hcb y (List.mem_append_left _ hy)] at hf
    obtain ⟨front, block, rest, l', rfl, hblock, hfront, ht, hmap, hx, hregistered, hmisfreed⟩ :=
      findEnd_spec hl (hcb r (by simp)) hf
    obtain ⟨pairs, hpairs⟩ := exists_stored hfront
    refine ⟨l', pairs, block.contents.ctx, ht, hmisfreed.trans h.misfreed, hregistered,
      congrArg Prod.snd hx, ?_, Or.inr ⟨hne, ?_⟩⟩
    · rw [hmap, hentries, hpairs, List.map_append]
    · cases front with
      | nil =>
          have hempty : pairs = [] := List.map_eq_nil_iff.mp hpairs.symm
          exact ⟨block, rest, rfl, iff_of_true hempty hblock, fun _ => rfl⟩
      | cons b front =>
          have hfull : pairs ≠ [] := by
            rintro rfl
            cases hpairs
          exact ⟨b, front ++ block :: rest, rfl,
            iff_of_false hfull (hfront b List.mem_cons_self), fun hempty => absurd hempty hfull⟩

/-- One block without a callback is all that the loop can need. -/
theorem Proper.findEnd_ne_none (h : s.Proper) {block : Block β γ} (blocks : List (Block β γ))
    (hfresh : block.address ∉ s.live) (hclean : block.contents.cb = none) :
    Registry.findEnd (s.mallocs + (block :: blocks).length + 1) (block :: blocks) .head s ≠
      none := by
  obtain ⟨-, hl, hentry⟩ | ⟨l, r, hl, hentries⟩ := h.nodes
  · rw [findEnd_here (congrArg Prod.fst hentry)]
    nofun
  · have hcb := called_of_entries hentries
    have hlength := hl.length
    rw [List.length_append, List.length_singleton] at hlength
    obtain ⟨fuel, hfuel⟩ :
        ∃ fuel, s.mallocs + (block :: blocks).length + 1 = l.length + (fuel + 1 + 1) :=
      ⟨s.mallocs + blocks.length - l.length, by rw [List.length_cons]; omega⟩
    have hnew := (hl.extend hfresh).2.2
    rw [hfuel, findEnd_past _ hl.spells fun y hy => hcb y (List.mem_append_left _ hy),
      findEnd_extend (hcb r (by simp)) hl.spells.last, if_neg hfresh,
      findEnd_here ((congrArg Prod.fst hnew).trans hclean)]
    nofun

/-- A listener is added, or the call fails and changes nothing but its result. -/
theorem Proper.add (h : s.Proper) {state : ClientState} {callback : Option β}
    {context : Option γ} {acquire release : ℤ} {blocks : List (Block β γ)}
    (hs : s.iotNtpClientAddListener state callback context acquire release blocks = some t) :
    (∃ result, t = s.ret result ∧
      (callback = none ∨ state = .uninitialised ∨ acquire ≠ 0)) ∨
    (state ≠ .uninitialised ∧ acquire = 0 ∧ ∃ cb pairs ctx, callback = some cb ∧
      Added s cb context blocks pairs ctx t) := by
  cases callback with
  | none =>
      cases hs
      exact Or.inl ⟨_, rfl, Or.inl rfl⟩
  | some cb =>
      dsimp only [iotNtpClientAddListener] at hs
      by_cases hstate : state = .uninitialised
      · rw [if_pos hstate] at hs
        cases hs
        exact Or.inl ⟨_, rfl, Or.inr (Or.inl hstate)⟩
      · rw [if_neg hstate] at hs
        by_cases hacquire : acquire = 0
        · rw [if_neg (not_not.mpr hacquire)] at hs
          obtain ⟨⟨u, x⟩, hf, rfl⟩ := Option.map_eq_some_iff.mp hs
          obtain ⟨l, pairs, ctx, hu, hmisfreed, hregistered, hctx, hentries, hblock⟩ := h.findEnd hf
          obtain ⟨hlists, hmap⟩ := hu.set (some cb) (context.or (u.node x).ctx)
          have hspelled : (s.registered ++ pairs ++ [(cb, context.or ctx)]).map stored =
              l.map u.entry ++ [(some cb, context.or (u.node x).ctx)] := by
            rw [List.map_append, hentries, hctx]
            rfl
          exact Or.inr ⟨hstate, hacquire, cb, pairs, ctx, rfl, hmisfreed,
            congrArg (· ++ [(cb, context)]) hregistered,
            ⟨l, x, ⟨hlists.spells, hlists.live, hlists.length⟩, hmap.trans hspelled.symm⟩, hblock⟩
        · rw [if_pos hacquire] at hs
          cases hs
          exact Or.inl ⟨_, rfl, Or.inr (Or.inr hacquire)⟩

section Added

variable {callback : β} {context ctx : Option γ} {blocks : List (Block β γ)}
  {pairs : List (β × Option γ)}

theorem Added.notify (h : Added s callback context blocks pairs ctx t) :
    t.notify = s.registered ++ pairs ++ [(callback, context.or ctx)] := by
  obtain ⟨l, r, hl, hentries⟩ := h.nodes
  exact notifyFrom_eq hl.spells hentries hl.length

theorem Added.notifies_iff (h : Added s callback context blocks pairs ctx t) :
    t.notify = t.registered ↔ pairs = [] ∧ context.or ctx = context := by
  rw [h.notify, h.registered, List.append_assoc, List.append_cancel_left_eq]
  cases pairs with
  | nil => simp
  | cons pair pairs =>
      refine iff_of_false (fun heq => ?_) fun heq => absurd heq.1 (List.cons_ne_nil _ _)
      have hlength := congrArg List.length heq
      simp at hlength

theorem Added.proper (h : Added s callback context blocks pairs ctx t)
    (hok : t.notify = t.registered) : t.Proper := by
  obtain ⟨l, r, hl, hentries⟩ := h.nodes
  rw [← h.notify, hok] at hentries
  exact ⟨h.misfreed, Or.inr ⟨l, r, hl, hentries⟩⟩

theorem Added.block_iff (h : Added s callback context blocks pairs ctx t) :
    (pairs = [] ∧ context.or ctx = context) ↔
      (s.registered ≠ [] → ∀ block rest, blocks = block :: rest →
        block.contents.cb = none ∧ (context = none → block.contents.ctx = none)) := by
  have hor : context.or ctx = context ↔ (context = none → ctx = none) := by
    cases context <;> simp
  rw [hor]
  obtain ⟨hnone, hpairs, hctx⟩ | ⟨hne, block, rest, rfl, hcb, hctx⟩ := h.block
  · exact iff_of_true ⟨hpairs, fun _ => hctx⟩ fun hne => absurd hnone hne
  · constructor
    · rintro ⟨hpairs, hnull⟩ - block' rest' heq
      cases heq
      exact ⟨hcb.mp hpairs, fun hcontext => (hctx hpairs).symm.trans (hnull hcontext)⟩
    · intro hblock
      obtain ⟨hclean, hnull⟩ := hblock hne block rest rfl
      have hpairs := hcb.mpr hclean
      exact ⟨hpairs, fun hcontext => (hctx hpairs).trans (hnull hcontext)⟩

end Added

/-! ## `iotNtpClientClearListeners` -/

theorem freeAll_misfreed {fuel : ℕ} (h : s.misfreed ≠ []) : (freeAll fuel r s).misfreed ≠ [] := by
  induction fuel generalizing s r with
  | zero => exact h
  | succ fuel ih =>
      rw [freeAll]
      split
      · exact h
      · apply ih
        cases r with
        | head => nofun
        | block address =>
            dsimp only [free]
            split
            · exact h
            · nofun

theorem Lists.alone (h : s.Lists l) (hnext : s.next .head = none) : l = [.head] :=
  h.spells.unique ⟨rfl, hnext⟩

/-- The list is cleared, or the call fails and changes nothing but its result. -/
theorem clear_cases (s : Registry β γ) (state : ClientState) (acquire release : ℤ) :
    (∃ result, s.iotNtpClientClearListeners state acquire release = s.ret result ∧
      (state = .uninitialised ∨ acquire ≠ 0)) ∨
    (state ≠ .uninitialised ∧ acquire = 0 ∧ ∃ result,
      s.iotNtpClientClearListeners state acquire release =
        { freeAll (s.mallocs + 1) .head (s.set .head { s.node .head with cb := none, ctx := none })
          with registered := [] }.ret result) := by
  dsimp only [iotNtpClientClearListeners]
  by_cases hstate : state = .uninitialised
  · rw [if_pos hstate]
    exact Or.inl ⟨_, rfl, Or.inl hstate⟩
  · rw [if_neg hstate]
    by_cases hacquire : acquire = 0
    · rw [if_neg (not_not.mpr hacquire)]
      exact Or.inr ⟨hstate, hacquire, _, rfl⟩
    · rw [if_pos hacquire]
      exact Or.inl ⟨_, rfl, Or.inr hacquire⟩

/-- Without blocks, the static node is all there is to clear. -/
theorem Proper.clear (h : s.Proper) (hnext : s.next .head = none) (result : Result) :
    ({ freeAll (s.mallocs + 1) .head (s.set .head { s.node .head with cb := none, ctx := none })
      with registered := [] }.ret result).Proper := by
  have hl : s.Lists [.head] := by
    obtain ⟨-, hl, -⟩ | ⟨l, r, hl, -⟩ := h.nodes
    · exact hl
    · rwa [hl.alone hnext] at hl
  obtain ⟨hlists, hmap⟩ := Lists.set (l := []) hl none none
  have hlink : ((s.set .head { s.node .head with cb := none, ctx := none }).node .head).next =
      none := by
    rw [set_node_self]
    exact hnext
  rw [freeAll, hlink]
  exact ⟨h.misfreed, Or.inl ⟨rfl, ⟨hlists.spells, hlists.live, hlists.length⟩,
    (List.cons.inj hmap).1⟩⟩

/-- With one, the static node is passed to `free`. -/
theorem clear_misfreed (hnext : s.next .head ≠ none) :
    (freeAll (s.mallocs + 1) .head
      (s.set .head { s.node .head with cb := none, ctx := none })).misfreed ≠ [] := by
  obtain ⟨r, hr⟩ := Option.ne_none_iff_exists'.mp hnext
  have hlink : ((s.set .head { s.node .head with cb := none, ctx := none }).node .head).next =
      some r := by
    rw [set_node_self]
    exact hr
  rw [freeAll, hlink]
  exact freeAll_misfreed (List.cons_ne_nil _ _)

/-! ## Runs -/

theorem Proper.reachable (h : s.Proper) {address : ℕ}
    (hreaches : Reaches s.next (some .head) (.block address)) : address ∈ s.live := by
  obtain ⟨-, hl, -⟩ | ⟨l, r, hl, -⟩ := h.nodes
  · exact hl.live address (hl.spells.reaches_iff.mp hreaches)
  · exact hl.live address (hl.spells.reaches_iff.mp hreaches)

theorem Proper.congr (h : s.Proper) (invoked : List (β × Option γ)) (result : Result) :
    { s with invoked := invoked, result := result }.Proper := by
  refine ⟨h.misfreed, ?_⟩
  obtain ⟨hnone, hl, hentry⟩ | ⟨l, r, hl, hentries⟩ := h.nodes
  · exact Or.inl ⟨hnone, ⟨hl.spells, hl.live, hl.length⟩, hentry⟩
  · exact Or.inr ⟨l, r, ⟨hl.spells, hl.live, hl.length⟩, hentries⟩

theorem Proper.ret (h : s.Proper) (result : Result) : (s.ret result).Proper :=
  h.congr s.invoked result

theorem Proper.step {a : Action β γ} (h : s.Proper) (hok : Prepared s a)
    (hs : step s a = some t) : t.Proper := by
  cases a with
  | add state callback context acquire release blocks =>
      obtain ⟨result, rfl, -⟩ | ⟨hstate, hacquire, cb, pairs, ctx, rfl, hadded⟩ := h.add hs
      · exact h.ret result
      · refine hadded.proper (hadded.notifies_iff.mpr (hadded.block_iff.mpr ?_))
        rintro hne block rest rfl
        exact hok.add state cb context acquire release block rest rfl hstate hacquire hne
  | clear state acquire release =>
      cases hs
      obtain ⟨result, heq, -⟩ | ⟨hstate, hacquire, result, heq⟩ :=
        s.clear_cases state acquire release
      · rw [heq]
        exact h.ret result
      · rw [heq]
        exact h.clear (hok.clear state acquire release rfl hstate hacquire) result
  | update =>
      cases hs
      exact h.congr s.notify s.result

theorem Proper.faithful {a : Action β γ} (h : s.Proper) (hok : Prepared s a)
    (hs : Registry.step s a = some t) : Faithful s a t := by
  have ht := h.step hok hs
  refine ⟨?_, ht.notify, ht.misfreed, fun _ => ht.reachable⟩
  rintro rfl
  cases hs
  exact h.notify

theorem Proper.not_faithful {a : Action β γ} (h : s.Proper) (hs : Registry.step s a = some t)
    (hok : ¬ Prepared s a) : ¬ Faithful s a t := by
  intro hfaithful
  refine hok ⟨?_, ?_⟩
  · rintro state callback context acquire release block blocks rfl hstate hacquire hne
    have hadd : s.iotNtpClientAddListener state (some callback) context acquire release
        (block :: blocks) = some t := hs
    obtain ⟨result, rfl, hfail⟩ | ⟨-, -, cb, pairs, ctx, heq, hadded⟩ := h.add hadd
    · rcases hfail with hnone | hun | hfail
      · cases hnone
      · exact absurd hun hstate
      · exact absurd hacquire hfail
    · cases heq
      exact hadded.block_iff.mp (hadded.notifies_iff.mp hfaithful.notifies) hne block blocks rfl
  · rintro state acquire release rfl hstate hacquire
    cases hs
    by_contra hnext
    obtain ⟨-, -, hfail⟩ | ⟨-, -, result, heq⟩ := s.clear_cases state acquire release
    · rcases hfail with hun | hfail
      · exact hstate hun
      · exact hfail hacquire
    · have hfreed := hfaithful.freed
      rw [heq] at hfreed
      exact clear_misfreed hnext hfreed

/-- Whatever the calls, the updates between them and the blocks that `malloc` gives: each update
invokes exactly what is registered, and only blocks are freed, exactly if each block that is
allocated is as if it were zeroed, and the list is cleared only while it has no blocks. -/
theorem faithful_iff_prepared (heap : ℕ → Listener β γ) (acts : List (Action β γ)) :
    Steps step Faithful (new heap) acts ↔ Meets step Prepared (new heap) acts := by
  apply steps_iff_meets Proper
  · exact fun _ _ _ h hok hs => h.step hok hs
  · exact fun _ _ _ h hok hs => h.faithful hok hs
  · exact fun _ _ _ h hs hok => h.not_faithful hs hok
  · exact proper_new heap

/-- Two listeners are added, with a zeroed block for the second one, and the list is cleared. -/
theorem secondListener_not_faithful :
    ¬ ∀ (heap : ℕ → Listener ℕ ℕ) acts, Steps step Faithful (new heap) acts := by
  intro h
  have hsteps := h (fun _ => ⟨none, none, none⟩)
    ([.add .stopped (some 1) none 0 0 [], .add .stopped (some 2) none 0 0 [⟨0, ⟨none, none, none⟩⟩]] ++
      [.clear .stopped 0 0])
  have hfreed := (hsteps.last rfl rfl).freed
  cases hfreed

end OpenIotSdk.Ntp.Registry
