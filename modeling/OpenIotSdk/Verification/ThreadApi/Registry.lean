import OpenIotSdk.Library.LinkedList
import OpenIotSdk.Library.Transition
import OpenIotSdk.Model.Azure.ThreadApi

/-! # The list of the thread contexts

Contexts are only ever appended as they should be. A context that is destroyed leaves a pointer to
it behind, wherever it stands in the list. -/

namespace OpenIotSdk.ThreadApi

open LinkedList Transition

namespace State

def next (s : State) (c : ℕ) : Option ℕ := (s.context c).next

def prev (s : State) (c : ℕ) : Option ℕ := (s.context c).prev

/-- The links spell the contexts from both ends, and lead nowhere else. -/
structure WellFormed (s : State) : Prop where
  spells : ∃ l, Spells s.next s.head l ∧ Spells s.prev s.last l.reverse ∧ l.Perm s.contexts
  reachable : ∀ c, Reaches s.next s.head c ∨ Reaches s.prev s.last c → c ∈ s.contexts

/-- The context of the thread is the first one in the list with its id. -/
def Traceable (s : State) (thread : ℕ) : Prop :=
  ∃ front rest, s.contexts = front ++ (s.thread thread).context :: rest ∧
    (s.context (s.thread thread).context).threadId = some thread ∧
    ∀ c ∈ front, (s.context c).threadId ≠ some thread

end State

/-- What a step leaves behind, and what a thread that exits finds. -/
structure Registered (s : State) (a : Action) (t : State) : Prop where
  wellFormed : t.WellFormed
  found : ∀ thread res, a = .exit thread res → (s.thread thread).context ∈ s.contexts →
    t.found = some (s.thread thread).context

def Destroys (s : State) : Action → Prop
  | .queueNew _ created => created = false
  | .threadNew c created status => created = none ∧ ((s.context c).queue = none ∨ status = 0)
  | .join _ status deleted => status = 0 ∧ deleted = 0
  | .create .. | .store _ | .exit .. | .returns .. | .put .. => False

/-- No context is destroyed, and a thread that exits can be told from the others. -/
structure Preserved (s : State) (a : Action) : Prop where
  keeps : ¬ Destroys s a
  exit : ∀ thread res, a = .exit thread res → (s.thread thread).context ∈ s.contexts →
    s.Traceable thread

namespace State

/-! ## The invariant -/

structure Linked (s : State) : Prop where
  next : Spells s.next s.head s.contexts
  prev : Spells s.prev s.last s.contexts.reverse
  length : s.contexts.length ≤ s.callocs
  staged : ∀ c, s.stage c ≠ .failed → c ∈ s.contexts

variable {s t : State} {c thread : ℕ}

theorem linked_init : init.Linked :=
  ⟨rfl, rfl, Nat.le_refl 0, fun _ h => absurd rfl h⟩

theorem Linked.wellFormed (h : s.Linked) : s.WellFormed := by
  refine ⟨⟨s.contexts, h.next, h.prev, .refl _⟩, fun c hreaches => ?_⟩
  rcases hreaches with hreaches | hreaches
  · exact h.next.reaches_iff.mp hreaches
  · exact List.mem_reverse.mp (h.prev.reaches_iff.mp hreaches)

theorem Linked.congr (h : s.Linked)
    (hlinks : t.next = s.next ∧ t.prev = s.prev ∧ t.head = s.head ∧ t.last = s.last)
    (hcontexts : t.contexts = s.contexts ∧ t.callocs = s.callocs)
    (hstaged : ∀ c, t.stage c ≠ .failed → c ∈ s.contexts) : t.Linked := by
  obtain ⟨hnext, hprev, hhead, hlast⟩ := hlinks
  obtain ⟨hcontexts, hcallocs⟩ := hcontexts
  refine ⟨?_, ?_, ?_, ?_⟩
  · rw [hnext, hhead, hcontexts]
    exact h.next
  · rw [hprev, hlast, hcontexts]
    exact h.prev
  · rw [hcontexts, hcallocs]
    exact h.length
  · rw [hcontexts]
    exact hstaged

theorem modify_self (s : State) (c : ℕ) (f : Context → Context) :
    (s.modify c f).context c = f (s.context c) :=
  Function.update_self ..

theorem modify_of_ne {x : ℕ} (s : State) (h : x ≠ c) (f : Context → Context) :
    (s.modify c f).context x = s.context x :=
  Function.update_of_ne h ..

theorem modify_links {f : Context → Context}
    (hf : ∀ context, (f context).next = context.next ∧ (f context).prev = context.prev)
    (s : State) (c : ℕ) : (s.modify c f).next = s.next ∧ (s.modify c f).prev = s.prev := by
  constructor
  · funext x
    rw [next, next]
    by_cases hx : x = c
    · rw [hx, modify_self, (hf _).1]
    · rw [modify_of_ne s hx]
  · funext x
    rw [prev, prev]
    by_cases hx : x = c
    · rw [hx, modify_self, (hf _).2]
    · rw [modify_of_ne s hx]

theorem Linked.modify (h : s.Linked) {f : Context → Context}
    (hf : ∀ context, (f context).next = context.next ∧ (f context).prev = context.prev) (c : ℕ) :
    (s.modify c f).Linked := by
  obtain ⟨hnext, hprev⟩ := modify_links hf s c
  exact h.congr ⟨hnext, hprev, rfl, rfl⟩ ⟨rfl, rfl⟩ h.staged

theorem Linked.setQueue (h : s.Linked) (c : ℕ) (queue : Option (Option ℤ)) :
    (s.setQueue c queue).Linked :=
  h.modify (f := fun context => { context with queue := queue }) (fun _ => ⟨rfl, rfl⟩) c

theorem Linked.setThreadId (h : s.Linked) (c : ℕ) (threadId : Option ℕ) :
    (s.setThreadId c threadId).Linked :=
  h.modify (f := fun context => { context with threadId := threadId }) (fun _ => ⟨rfl, rfl⟩) c

theorem setQueue_prev (s : State) (c : ℕ) (queue : Option (Option ℤ)) :
    (s.setQueue c queue).prev = s.prev :=
  (modify_links (f := fun context => { context with queue := queue }) (fun _ => ⟨rfl, rfl⟩) s c).2

theorem setThreadId_prev (s : State) (c : ℕ) (threadId : Option ℕ) :
    (s.setThreadId c threadId).prev = s.prev :=
  (modify_links (f := fun context => { context with threadId := threadId })
    (fun _ => ⟨rfl, rfl⟩) s c).2

theorem setThreadId_queue (s : State) (c : ℕ) (threadId : Option ℕ) :
    ((s.setThreadId c threadId).context c).queue = (s.context c).queue := by
  rw [setThreadId, modify_self]

theorem Linked.setStage (h : s.Linked) (hc : c ∈ s.contexts) (stage : Stage) :
    (s.setStage c stage).Linked := by
  refine h.congr ⟨rfl, rfl, rfl, rfl⟩ ⟨rfl, rfl⟩ fun x hx => ?_
  by_cases hxc : x = c
  · rw [hxc]
    exact hc
  · have hstage : (s.setStage c stage).stage x = s.stage x := Function.update_of_ne hxc ..
    exact h.staged x (hstage ▸ hx)

theorem Linked.setPc (h : s.Linked) (thread : ℕ) (pc : Pc) : (s.setPc thread pc).Linked :=
  h.congr ⟨rfl, rfl, rfl, rfl⟩ ⟨rfl, rfl⟩ h.staged

theorem Linked.ret (h : s.Linked) (result : Result) : (s.ret result).Linked :=
  h.congr ⟨rfl, rfl, rfl, rfl⟩ ⟨rfl, rfl⟩ h.staged

/-! ## A new context -/

theorem link_links (s : State) {last : ℕ} (hlast : s.last = some last) (hne : last ≠ c) :
    ((s.calloc c).link c).next c = none ∧ ((s.calloc c).link c).prev c = some last ∧
      ((s.calloc c).link c).next last = some c ∧
      ((s.calloc c).link c).prev last = s.prev last ∧
      ∀ x, x ≠ last → x ≠ c → ((s.calloc c).link c).context x = s.context x := by
  have hlink : (s.calloc c).link c = { ((s.calloc c).modify c fun context =>
      { context with prev := some last }).modify last fun context =>
        { context with next := some c } with last := some c } := by
    rw [link, show (s.calloc c).last = some last from hlast]
  have hother : ∀ x, x ≠ c → (s.calloc c).context x = s.context x := fun x hx =>
    Function.update_of_ne hx ..
  have hnew : (s.calloc c).context c = .zero := Function.update_self ..
  rw [hlink]
  simp only [next, prev]
  refine ⟨?_, ?_, ?_, ?_, fun x hx hxc => ?_⟩
  · rw [modify_of_ne _ hne.symm, modify_self, hnew]
    rfl
  · rw [modify_of_ne _ hne.symm, modify_self]
  · rw [modify_self]
  · rw [modify_self, modify_of_ne _ hne, hother last hne]
  · rw [modify_of_ne _ hx, modify_of_ne _ hxc, hother x hxc]

theorem link_contexts (s : State) (c : ℕ) :
    ((s.calloc c).link c).contexts = s.contexts ++ [c] ∧
      ((s.calloc c).link c).callocs = s.callocs + 1 ∧ ((s.calloc c).link c).last = some c ∧
      ((s.calloc c).link c).stage = s.stage ∧
      (s.last ≠ none → ((s.calloc c).link c).head = s.head) := by
  dsimp only [link]
  cases hlast : (s.calloc c).last with
  | some last => exact ⟨rfl, rfl, rfl, rfl, fun _ => rfl⟩
  | none => exact ⟨rfl, rfl, rfl, rfl, fun hne => absurd hlast hne⟩

theorem Linked.link (h : s.Linked) (hc : c ∉ s.contexts) : ((s.calloc c).link c).Linked := by
  obtain ⟨hcontexts, hcallocs, hlast', hstage, hhead⟩ := s.link_contexts c
  have hlength : ((s.calloc c).link c).contexts.length ≤ ((s.calloc c).link c).callocs := by
    rw [hcontexts, hcallocs, List.length_append]
    exact Nat.add_le_add_right h.length 1
  have hstaged : ∀ x, ((s.calloc c).link c).stage x ≠ .failed →
      x ∈ ((s.calloc c).link c).contexts := by
    intro x hx
    rw [hstage] at hx
    rw [hcontexts]
    exact List.mem_append_left _ (h.staged x hx)
  cases hlast : s.last with
  | none =>
      have hprev := h.prev
      rw [hlast] at hprev
      have hempty : s.contexts = [] := List.reverse_eq_nil_iff.mp (hprev.unique rfl)
      have hlink : (s.calloc c).link c = { s.calloc c with head := some c, last := some c } := by
        rw [State.link, show (s.calloc c).last = none from hlast]
      have hnew : (s.calloc c).context c = .zero := Function.update_self ..
      refine ⟨?_, ?_, hlength, hstaged⟩
      · rw [hcontexts, hempty, hlink]
        exact ⟨rfl, congrArg Context.next hnew⟩
      · rw [hcontexts, hempty, hlink]
        exact ⟨rfl, congrArg Context.prev hnew⟩
  | some last =>
      have hprev := h.prev
      rw [hlast] at hprev
      obtain ⟨l, hl⟩ : ∃ l, s.contexts = l ++ [last] := by
        cases hreverse : s.contexts.reverse with
        | nil =>
            rw [hreverse] at hprev
            cases hprev
        | cons r l =>
            rw [hreverse] at hprev
            cases hprev.1
            exact ⟨l.reverse, by rw [← List.reverse_cons, ← hreverse, List.reverse_reverse]⟩
      have hmem : last ∈ s.contexts := by simp [hl]
      have hne : last ≠ c := by
        rintro rfl
        exact hc hmem
      obtain ⟨hnext, hback, hlink, hkept, hothers⟩ := s.link_links hlast hne
      refine ⟨?_, ?_, hlength, hstaged⟩
      · have hspells := h.next
        rw [hl] at hspells
        rw [hcontexts, hhead (by simp [hlast]), hl]
        refine hspells.snoc (hl ▸ hc) hlink hnext fun x hx hxc => ?_
        rw [State.next, hothers x hx hxc, State.next]
      · rw [hcontexts, hlast', List.reverse_append, List.reverse_singleton, List.singleton_append]
        refine ⟨rfl, ?_⟩
        rw [hback]
        refine hprev.congr fun x hx => ?_
        have hxc : x ≠ c := by
          rintro rfl
          exact hc (List.mem_reverse.mp hx)
        by_cases hxlast : x = last
        · rw [hxlast, hkept]
        · rw [State.prev, hothers x hxlast hxc, State.prev]

/-! ## The end of a context -/

/-- The links back, and the last pointer, are as they were. -/
theorem destroy_links (s : State) (c : ℕ) {status : ℤ}
    (h : (s.context c).queue = none ∨ status = 0) :
    (s.destroyThreadContext c status).prev = s.prev ∧
      (s.destroyThreadContext c status).last = s.last ∧
      (s.destroyThreadContext c status).contexts = s.contexts.erase c := by
  have hgone : ¬ ((s.context c).queue ≠ none ∧ status ≠ 0) := fun hkept =>
    h.elim hkept.1 hkept.2
  dsimp only [destroyThreadContext]
  rw [if_neg hgone]
  cases hprev : (s.context c).prev with
  | none => exact ⟨rfl, rfl, rfl⟩
  | some prev =>
      refine ⟨?_, rfl, rfl⟩
      funext x
      simp only [State.prev, ret]
      by_cases hx : x = prev
      · rw [hx, modify_self]
      · rw [modify_of_ne s hx]

/-- The context is still where it was, from the last one back. -/
theorem Linked.not_wellFormed (h : s.Linked) (hc : c ∈ s.contexts)
    (ht : t.prev = s.prev ∧ t.last = s.last ∧ t.contexts = s.contexts.erase c) :
    ¬ t.WellFormed := by
  obtain ⟨hprev, hlast, hcontexts⟩ := ht
  intro hwell
  obtain ⟨l, -, hback, hperm⟩ := hwell.spells
  rw [hprev, hlast] at hback
  have hlength := hperm.length_eq
  rw [List.reverse_inj.mp (hback.unique h.prev), hcontexts, List.length_erase_of_mem hc] at hlength
  have hpos := List.length_pos_of_mem hc
  omega

/-! ## The context of a thread -/

/-- The search is that of the list. -/
theorem search_eq {p : Option ℕ} {l : List ℕ} {fuel : ℕ} (h : Spells s.next p l)
    (hfuel : l.length ≤ fuel) :
    s.search thread fuel p = l.find? fun c => (s.context c).threadId = some thread := by
  induction l generalizing p fuel with
  | nil =>
      rw [show p = none from h]
      cases fuel <;> rfl
  | cons c l ih =>
      cases fuel with
      | zero => cases hfuel
      | succ fuel =>
          rw [h.1, search]
          by_cases hid : (s.context c).threadId = some thread
          · rw [if_pos hid, List.find?_cons_of_pos (by simpa using hid)]
          · rw [if_neg hid, List.find?_cons_of_neg (by simpa using hid)]
            exact ih h.2 (Nat.le_of_succ_le_succ hfuel)

theorem Linked.found_iff (h : s.Linked) :
    s.getCurrentThreadContext thread = some (s.thread thread).context ↔ s.Traceable thread := by
  rw [getCurrentThreadContext, search_eq h.next h.length, List.find?_eq_some_iff_append]
  constructor
  · rintro ⟨hid, front, rest, heq, hfront⟩
    exact ⟨front, rest, heq, by simpa using hid, fun c hc => by simpa using hfront c hc⟩
  · rintro ⟨front, rest, heq, hid, hfront⟩
    exact ⟨by simpa using hid, front, rest, heq, fun c hc => by simpa using hfront c hc⟩

/-! ## Steps -/

theorem Linked.create (h : s.Linked) {handle : Bool} {func arg block : Option ℕ}
    (hs : s.create handle func arg block = some t) : t.Linked := by
  dsimp only [State.create] at hs
  by_cases hargs : handle = false ∨ func = none
  · rw [if_pos hargs] at hs
    cases hs
    exact h.ret .invalidArg
  · rw [if_neg hargs] at hs
    cases block with
    | none =>
        cases hs
        exact h.ret .noMemory
    | some c =>
        obtain ⟨hc, hs⟩ := Option.ite_none_left_eq_some.mp hs
        cases hs
        refine Linked.setStage ((h.link hc).modify
          (f := fun context => { context with func := func, arg := arg }) (fun _ => ⟨rfl, rfl⟩) c)
          ?_ .queueNew
        change c ∈ ((s.calloc c).link c).contexts
        rw [(s.link_contexts c).1]
        simp

/-- A context whose queue is not deleted stays. -/
theorem Linked.destroy_failed (h : s.Linked) {status : ℤ}
    (hkept : ¬ ((s.context c).queue = none ∨ status = 0)) :
    (s.destroyThreadContext c status).Linked := by
  rw [destroyThreadContext, if_pos (not_or.mp hkept)]
  exact h.ret _

theorem Linked.threadNew (h : s.Linked) (hc : c ∈ s.contexts) {created : Option ℕ} {status : ℤ}
    (hok : ¬ (created = none ∧ ((s.context c).queue = none ∨ status = 0)))
    (hs : s.threadNew c created status = some t) : t.Linked := by
  cases created with
  | some thread =>
      obtain ⟨-, hs⟩ := Option.ite_none_right_eq_some.mp hs
      cases hs
      have hthread :
          { s with thread := Function.update s.thread thread ⟨c, .running⟩ }.Linked :=
        h.congr ⟨rfl, rfl, rfl, rfl⟩ ⟨rfl, rfl⟩ h.staged
      exact hthread.setStage hc (.store thread)
  | none =>
      cases hs
      have hfailed := (h.setThreadId c none).setStage hc .failed
      refine (hfailed.destroy_failed fun hdestroyed => hok ⟨rfl, ?_⟩).ret .error
      rw [← s.setThreadId_queue c none]
      exact hdestroyed

theorem Linked.queuePut (h : s.Linked) {res : ℤ} (hs : s.queuePut thread c res = some t) :
    t.Linked := by
  obtain ⟨-, hs⟩ := Option.ite_none_right_eq_some.mp hs
  cases hs
  exact (h.setQueue c _).setPc thread .none

theorem Linked.put (h : s.Linked) {status : ℤ} (hs : s.put thread status = some t) :
    t.Linked := by
  dsimp only [State.put] at hs
  cases hpc : (s.thread thread).pc with
  | exiting c res =>
      rw [hpc] at hs
      dsimp only at hs
      split at hs
      · exact h.queuePut hs
      · cases hs
        exact h.setPc thread .running
  | returning res =>
      rw [hpc] at hs
      dsimp only at hs
      split at hs
      · exact h.queuePut hs
      · cases hs
        exact h.setPc thread .none
  | none | running =>
      rw [hpc] at hs
      cases hs

/-- A join takes the result of the thread and destroys its context, or fails. -/
theorem join_cases {status deleted : ℤ} (hs : s.join c status deleted = some t) :
    (status ≠ 0 ∧ t = s.ret (osStatusToThreadapiResult status)) ∨
    (status = 0 ∧ c ∈ s.contexts ∧
      t = (s.setQueue c (some none)).destroyThreadContext c deleted) := by
  rw [State.join] at hs
  obtain ⟨⟨-, hc⟩, hs⟩ := Option.ite_none_right_eq_some.mp hs
  by_cases hstatus : status = 0
  · rw [if_pos hstatus] at hs
    cases hqueue : (s.context c).queue with
    | none =>
        rw [hqueue] at hs
        cases hs
    | some item =>
        cases item with
        | none =>
            rw [hqueue] at hs
            cases hs
        | some res =>
            rw [hqueue] at hs
            cases hs
            exact Or.inr ⟨hstatus, hc, rfl⟩
  · rw [if_neg hstatus] at hs
    cases hs
    exact Or.inl ⟨hstatus, rfl⟩

theorem Linked.join (h : s.Linked) {status deleted : ℤ} (hok : ¬ (status = 0 ∧ deleted = 0))
    (hs : s.join c status deleted = some t) : t.Linked := by
  obtain ⟨-, rfl⟩ | ⟨hstatus, -, rfl⟩ := join_cases hs
  · exact h.ret _
  · apply (h.setQueue c (some none)).destroy_failed
    rw [State.setQueue, modify_self]
    rintro (hnone | hdeleted)
    · cases hnone
    · exact hok ⟨hstatus, hdeleted⟩

theorem Linked.exit (h : s.Linked) (thread : ℕ) (res : ℤ) : (s.exit thread res).Linked := by
  have hfound : { s with found := s.getCurrentThreadContext thread }.Linked :=
    h.congr ⟨rfl, rfl, rfl, rfl⟩ ⟨rfl, rfl⟩ h.staged
  dsimp only [State.exit]
  split
  · exact hfound.setPc thread _
  · exact hfound

theorem Linked.step {a : Action} (h : s.Linked) (hok : ¬ Destroys s a)
    (hs : ThreadApi.step s a = some t) : t.Linked := by
  cases a with
  | create handle func arg block => exact h.create hs
  | queueNew c created =>
      obtain ⟨hstage, hs⟩ := Option.ite_none_right_eq_some.mp hs
      cases hs
      have hcreated : created = true := Bool.not_eq_false _ ▸ hok
      have hc := h.staged c (by rw [hstage]; nofun)
      rw [queueNew, if_pos hcreated]
      exact (h.setQueue c (some none)).setStage hc .threadNew
  | threadNew c created status =>
      obtain ⟨hstage, hs⟩ := Option.ite_none_right_eq_some.mp hs
      exact h.threadNew (h.staged c (by rw [hstage]; nofun)) hok hs
  | store c =>
      dsimp only [ThreadApi.step] at hs
      cases hstage : s.stage c with
      | store thread =>
          rw [hstage] at hs
          cases hs
          have hc := h.staged c (by rw [hstage]; nofun)
          exact ((h.setThreadId c (some thread)).setStage hc .returned).ret .ok
      | _ =>
          rw [hstage] at hs
          cases hs
  | exit thread res =>
      obtain ⟨-, hs⟩ := Option.ite_none_right_eq_some.mp hs
      cases hs
      exact h.exit thread res
  | returns thread res =>
      obtain ⟨-, hs⟩ := Option.ite_none_right_eq_some.mp hs
      cases hs
      exact h.setPc thread (.returning res)
  | put thread status => exact h.put hs
  | join c status deleted => exact h.join hok hs

/-- Where a context is destroyed, a pointer to it stays in the list. -/
theorem Linked.destroys {a : Action} (h : s.Linked) (hs : ThreadApi.step s a = some t)
    (hbad : Destroys s a) : ¬ t.WellFormed := by
  cases a with
  | queueNew c created =>
      obtain ⟨hstage, hs⟩ := Option.ite_none_right_eq_some.mp hs
      cases hs
      have hc := h.staged c (by rw [hstage]; nofun)
      rw [queueNew, if_neg (Bool.eq_false_iff.mp hbad)]
      exact h.not_wellFormed hc ((s.setStage c .failed).destroy_links c (Or.inr rfl))
  | threadNew c created status =>
      obtain ⟨hstage, hs⟩ := Option.ite_none_right_eq_some.mp hs
      obtain ⟨rfl, hdestroyed⟩ := hbad
      cases hs
      have hc := h.staged c (by rw [hstage]; nofun)
      rw [← s.setThreadId_queue c none] at hdestroyed
      obtain ⟨hprev, hlast, hcontexts⟩ :=
        ((s.setThreadId c none).setStage c .failed).destroy_links c hdestroyed
      exact h.not_wellFormed hc ⟨hprev.trans (s.setThreadId_prev c none), hlast, hcontexts⟩
  | join c status deleted =>
      obtain ⟨hne, -⟩ | ⟨-, hc, rfl⟩ := join_cases hs
      · exact absurd hbad.1 hne
      · obtain ⟨hprev, hlast, hcontexts⟩ :=
          (s.setQueue c (some none)).destroy_links c (Or.inr hbad.2)
        exact h.not_wellFormed hc ⟨hprev.trans (s.setQueue_prev c _), hlast, hcontexts⟩
  | create handle func arg block => exact hbad.elim
  | store c => exact hbad.elim
  | exit thread res => exact hbad.elim
  | returns thread res => exact hbad.elim
  | put thread status => exact hbad.elim

theorem exit_found (s : State) (thread : ℕ) (res : ℤ) :
    (s.exit thread res).found = s.getCurrentThreadContext thread := by
  dsimp only [State.exit]
  split <;> rfl

end State

/-! ## Runs -/

open State

variable {s t : State} {a : Action}

/-- A thread that exits finds its own context exactly if it can be told from the others. -/
theorem found_iff (h : s.Linked) {thread : ℕ} {res : ℤ}
    (hs : step s (.exit thread res) = some t) :
    t.found = some (s.thread thread).context ↔ s.Traceable thread := by
  obtain ⟨-, hs⟩ := Option.ite_none_right_eq_some.mp hs
  cases hs
  rw [exit_found]
  exact h.found_iff

/-- Whatever the order of the calls, the starts and the ends of the threads: the list is well
formed, and a thread that exits finds its own context, exactly if no context is ever destroyed, and
the id of each thread that exits is in its own context and in none before it. -/
theorem registered_iff_preserved (acts : List Action) :
    Steps step Registered init acts ↔ Meets step Preserved init acts := by
  apply steps_iff_meets Linked
  · exact fun _ _ _ h hok hs => h.step hok.keeps hs
  · intro s a t h hok hs
    refine ⟨(h.step hok.keeps hs).wellFormed, ?_⟩
    rintro thread res rfl hlive
    exact (found_iff h hs).mpr (hok.exit thread res rfl hlive)
  · intro s a t h hs hok hregistered
    refine hok ⟨fun hbad => h.destroys hs hbad hregistered.wellFormed, ?_⟩
    rintro thread res rfl hlive
    exact (found_iff h hs).mp (hregistered.found thread res rfl hlive)
  · exact linked_init

/-- A thread is created, returns and is joined. -/
theorem joined_not_registered : ¬ ∀ acts, Steps step Registered init acts := by
  intro h
  have hsteps := h ([.create true (some 1) none (some 8), .queueNew 8 true, .threadNew 8 (some 3) 0,
    .store 8, .returns 3 0, .put 3 0] ++ [.join 8 0 0])
  have hmem := (hsteps.last rfl rfl).wellFormed.reachable 8 (Or.inl (.here 8))
  cases hmem

end OpenIotSdk.ThreadApi
