import OpenIotSdk.Library.Transition
import Mathlib.Data.List.Basic
import Mathlib.Logic.Function.Basic

/-! # Taking turns

Callers share a component behind one lock. A call is a script of operations; where the scripts
leave the component at rest before they release the lock, the calls are served one after the
other, whatever the interleaving. -/

namespace Turns

/-- One operation of a caller. -/
inductive Op (κ σ : Type*) where
  | lock
  | unlock
  | enter (call : κ) -- the component takes the call
  | work (stop : σ → Bool) -- the caller works on the component until `stop`

/-- A component with the scripts of its calls. -/
structure Component (κ σ α ε : Type*) where
  recursive : Bool -- the lock can be taken again by its holder
  script : κ → List (Op κ σ)
  enter : κ → σ → Option σ
  work : σ → α → Option σ
  environment : σ → ε → Option σ

structure State (ι κ σ : Type*) where
  lock : Option (ι × ℕ) -- its holder, and how often it was taken again
  script : ι → List (Op κ σ) -- what is left of the caller's script
  inner : σ
  entered : List (ι × κ) -- the calls that the component has taken, in order

inductive Action (ι κ α ε : Type*) where
  | call (i : ι) (call : κ)
  | advance (i : ι) (a : Option α) -- the caller runs its next operation
  | environment (e : ε)

variable {ι κ σ α ε : Type*} [DecidableEq ι]

def init (inner : σ) : State ι κ σ := ⟨none, fun _ => [], inner, []⟩

namespace State

variable (s : State ι κ σ)

/-- How often the caller holds the lock. -/
def holds (i : ι) : ℕ :=
  match s.lock with
  | none => 0
  | some (j, again) => if j = i then again + 1 else 0

/-- What is left of the caller's script is `ops`. -/
def goto (i : ι) (ops : List (Op κ σ)) : State ι κ σ :=
  { s with script := Function.update s.script i ops }

/-- The lock as `i` takes it, if it does not have to wait. -/
def take (recursive : Bool) (i : ι) : Option (ι × ℕ) :=
  match s.lock with
  | none => some (i, 0)
  | some (j, again) => if j = i ∧ recursive = true then some (i, again + 1) else none

/-- The lock as `i` releases it; only its holder can. -/
def release (i : ι) : Option (ι × ℕ) :=
  match s.lock with
  | none => none
  | some (j, again) =>
      if j = i then (match again with
        | 0 => none
        | again + 1 => some (i, again))
      else some (j, again)

end State

variable (c : Component κ σ α ε)

/-- One operation of `i`. -/
def advance (s : State ι κ σ) (i : ι) (a : Option α) : Option (State ι κ σ) :=
  match s.script i, a with
  | .lock :: ops, none =>
      (s.take c.recursive i).map fun lock => { s with lock := some lock }.goto i ops
  | .unlock :: ops, none => some ({ s with lock := s.release i }.goto i ops)
  | .enter call :: ops, none =>
      (c.enter call s.inner).map fun inner =>
        { s with inner := inner, entered := s.entered ++ [(i, call)] }.goto i ops
  | .work stop :: ops, none => if stop s.inner then some (s.goto i ops) else none
  | .work stop :: _, some a =>
      if stop s.inner then none
      else (c.work s.inner a).map fun inner => { s with inner := inner }
  | _, _ => none

def step (s : State ι κ σ) (a : Action ι κ α ε) : Option (State ι κ σ) :=
  match a with
  | .call i call => if (s.script i).isEmpty then some (s.goto i (c.script call)) else none
  | .advance i a => advance c s i a
  | .environment e => (c.environment s.inner e).map fun inner => { s with inner := inner }

/-! ## Orderly scripts -/

/-- The script works on the component only under the lock, which it holds `depth` times, and
releases it at the end; it finds the component at rest unless `busy`, and leaves it so. -/
def Orderly (rest : σ → Prop) : (depth : ℕ) → (busy : Bool) → List (Op κ σ) → Prop
  | depth, _, [] => depth = 0
  | depth, busy, .lock :: ops => Orderly rest (depth + 1) busy ops
  | 0, _, .unlock :: _ => False
  | depth + 1, busy, .unlock :: ops => (depth = 0 → busy = false) ∧ Orderly rest depth busy ops
  | depth, busy, .enter _ :: ops => depth ≠ 0 ∧ busy = false ∧ Orderly rest depth true ops
  | depth, busy, .work stop :: ops =>
      depth ≠ 0 ∧ busy = true ∧
        (Orderly rest depth true ops ∨
          (∀ inner, stop inner = true → rest inner) ∧ Orderly rest depth false ops)

/-- What the rule asks of a component, whose state means `acc` after the calls that it took. -/
structure Serves (acc : List κ → σ → Prop) (rest : σ → Prop) : Prop where
  script : ∀ call, Orderly rest 0 false (c.script call)
  enter : ∀ calls s call t, acc calls s → rest s → c.enter call s = some t →
    acc (calls ++ [call]) t
  work : ∀ calls s a t, acc calls s → c.work s a = some t → acc calls t
  environment : ∀ calls s e t, acc calls s → c.environment s e = some t → acc calls t
  still : ∀ s e t, rest s → c.environment s e = some t → rest t

/-! ## The rule -/

/-- The component has taken a call of `i`, and no other one since. -/
def Last (s : State ι κ σ) (i : ι) : Prop := ∃ before call, s.entered = before ++ [(i, call)]

/-- A caller stands in an orderly script. -/
def Stands (rest : σ → Prop) (s : State ι κ σ) (i : ι) : Prop :=
  ∃ busy, Orderly rest (s.holds i) busy (s.script i) ∧
    (busy = true → s.holds i ≠ 0 ∧ Last s i) ∧ (busy = false → s.holds i ≠ 0 → rest s.inner)

structure Inv (acc : List κ → σ → Prop) (rest : σ → Prop) (s : State ι κ σ) : Prop where
  served : acc (s.entered.map Prod.snd) s.inner
  free : s.lock = none → rest s.inner
  stands : ∀ i, Stands rest s i

variable {c} {acc : List κ → σ → Prop} {rest : σ → Prop} {s t : State ι κ σ} {i j : ι}

/-- Only one caller holds the lock. -/
theorem holds_eq_zero (hne : j ≠ i) (hi : s.holds i ≠ 0) : s.holds j = 0 := by
  cases hlock : s.lock with
  | none => simp [State.holds, hlock]
  | some holder =>
      obtain ⟨k, again⟩ := holder
      simp only [State.holds, hlock] at hi ⊢
      by_cases hk : k = i
      · rw [if_neg (hk ▸ hne.symm)]
      · exact absurd (if_neg hk) hi

theorem holds_eq_zero_of_free (hfree : s.lock = none) (i : ι) : s.holds i = 0 := by
  simp [State.holds, hfree]

@[simp] theorem lock_goto (ops : List (Op κ σ)) : (s.goto i ops).lock = s.lock := rfl

@[simp] theorem holds_goto (ops : List (Op κ σ)) : (s.goto i ops).holds j = s.holds j := rfl

theorem script_goto (ops : List (Op κ σ)) : (s.goto i ops).script i = ops :=
  Function.update_self ..

theorem script_goto_of_ne (hne : j ≠ i) (ops : List (Op κ σ)) :
    (s.goto i ops).script j = s.script j :=
  Function.update_of_ne hne ..

/-- A caller that does not hold the lock stands where it stood, whatever the others do. -/
theorem Stands.frame (h : Stands rest s j) (hscript : t.script j = s.script j)
    (hs : s.holds j = 0) (ht : t.holds j = 0) : Stands rest t j := by
  obtain ⟨busy, hord, hbusy, _⟩ := h
  refine ⟨busy, ?_, fun hb => absurd hs (hbusy hb).1, fun _ hne => absurd ht hne⟩
  rw [ht, hscript, ← hs]
  exact hord

/-- The holder changes the component; the others stand where they stood. -/
theorem forall_stands (h : ∀ j, Stands rest s j) (hi : s.holds i ≠ 0)
    (hholds : ∀ j, j ≠ i → t.holds j = 0) (hscript : ∀ j, j ≠ i → t.script j = s.script j)
    (hself : Stands rest t i) : ∀ j, Stands rest t j := by
  intro j
  by_cases hj : j = i
  · rw [hj]
    exact hself
  · exact (h j).frame (hscript j hj) (holds_eq_zero hj hi) (hholds j hj)

theorem lock_ne_none (hi : s.holds i ≠ 0) : s.lock ≠ none :=
  fun hfree => hi (holds_eq_zero_of_free hfree i)

/-! ### Operations -/

theorem Inv.lock (h : Inv acc rest s) {ops : List (Op κ σ)} (hops : s.script i = .lock :: ops)
    {taken : ι × ℕ} (htake : s.take c.recursive i = some taken) :
    Inv acc rest ({ s with lock := some taken }.goto i ops) := by
  obtain ⟨busy, hord, hbusy, hrest⟩ := h.stands i
  rw [hops] at hord
  cases hlock : s.lock with
  | none =>
      have hzero := holds_eq_zero_of_free hlock
      simp only [State.take, hlock, Option.some.injEq] at htake
      subst htake
      refine ⟨h.served, nofun, fun j => ?_⟩
      by_cases hj : j = i
      · subst hj
        have hheld : ({ s with lock := some (j, 0) }.goto j ops).holds j = 1 := by
          simp [State.holds]
        refine ⟨busy, ?_, fun hb => absurd (hzero j) (hbusy hb).1, fun _ _ => h.free hlock⟩
        rw [script_goto, hheld]
        rw [hzero] at hord
        exact hord
      · refine (h.stands j).frame (script_goto_of_ne hj ops) (hzero j) ?_
        simp [State.holds, Ne.symm hj]
  | some holder =>
      obtain ⟨k, again⟩ := holder
      simp only [State.take, hlock] at htake
      split at htake
      · next hk =>
          obtain ⟨rfl, -⟩ := hk
          cases htake
          have hheld : s.holds k = again + 1 := by simp [State.holds, hlock]
          have hheld' : ({ s with lock := some (k, again + 1) }.goto k ops).holds k =
              again + 2 := by
            simp [State.holds]
          rw [hheld] at hord hbusy hrest
          refine ⟨h.served, nofun, forall_stands h.stands (i := k) (by omega) ?_ ?_ ?_⟩
          · intro j hj
            simp [State.holds, Ne.symm hj]
          · exact fun j hj => script_goto_of_ne hj ops
          · refine ⟨busy, ?_, fun hb => ⟨by omega, (hbusy hb).2⟩, fun hb _ => hrest hb (by omega)⟩
            rw [script_goto, hheld']
            exact hord
      · cases htake

theorem Inv.unlock (h : Inv acc rest s) {ops : List (Op κ σ)}
    (hops : s.script i = .unlock :: ops) :
    Inv acc rest ({ s with lock := s.release i }.goto i ops) := by
  obtain ⟨busy, hord, hbusy, hrest⟩ := h.stands i
  rw [hops] at hord
  cases hheld : s.holds i with
  | zero =>
      rw [hheld] at hord
      exact hord.elim
  | succ depth =>
      rw [hheld] at hord
      obtain ⟨hlast, hord⟩ := hord
      have hne : s.holds i ≠ 0 := by omega
      obtain ⟨holder, hlock⟩ := Option.ne_none_iff_exists'.mp (lock_ne_none hne)
      obtain ⟨k, again⟩ := holder
      have hk : k = i := by
        by_contra hk
        simp [State.holds, hlock, hk] at hheld
      subst hk
      have hagain : again = depth := by simpa [State.holds, hlock] using hheld
      subst hagain
      have hrelease : ({ s with lock := s.release k }.goto k ops).holds k = again := by
        cases again <;> simp [State.holds, State.release, hlock]
      refine ⟨h.served, ?_, forall_stands h.stands hne ?_ ?_ ?_⟩
      · intro hfree
        cases again with
        | zero => exact hrest (hlast rfl) hne
        | succ again => simp [State.goto, State.release, hlock] at hfree
      · intro j hj
        cases again <;> simp [State.holds, State.release, hlock, Ne.symm hj]
      · exact fun j hj => script_goto_of_ne hj ops
      · refine ⟨busy, ?_, ?_, fun hb _ => hrest hb hne⟩
        · rw [script_goto, hrelease]
          exact hord
        · intro hb
          refine ⟨fun hzero => ?_, (hbusy hb).2⟩
          rw [hrelease] at hzero
          simp [hlast hzero] at hb

theorem Inv.enter (hc : Serves c acc rest) (h : Inv acc rest s) {call : κ}
    {ops : List (Op κ σ)} (hops : s.script i = .enter call :: ops) {inner : σ}
    (henter : c.enter call s.inner = some inner) :
    Inv acc rest ({ s with inner := inner, entered := s.entered ++ [(i, call)] }.goto i ops) := by
  obtain ⟨busy, hord, hbusy, hrest⟩ := h.stands i
  rw [hops] at hord
  obtain ⟨hne, hidle, hord⟩ : s.holds i ≠ 0 ∧ busy = false ∧ Orderly rest (s.holds i) true ops := by
    cases hheld : s.holds i <;> rw [hheld] at hord <;> exact hord
  refine ⟨?_, fun hfree => absurd hfree (lock_ne_none hne), ?_⟩
  · change acc (List.map Prod.snd (s.entered ++ [(i, call)])) _
    rw [List.map_append]
    exact hc.enter _ _ call _ h.served (hrest hidle hne) henter
  · refine forall_stands h.stands hne (fun j hj => holds_eq_zero hj hne)
      (fun j hj => script_goto_of_ne hj ops)
      ⟨true, ?_, fun _ => ⟨hne, s.entered, call, rfl⟩, nofun⟩
    rw [script_goto]
    exact hord

theorem Inv.stopped (h : Inv acc rest s) {stop : σ → Bool} {ops : List (Op κ σ)}
    (hops : s.script i = .work stop :: ops) (hstop : stop s.inner = true) :
    Inv acc rest (s.goto i ops) := by
  obtain ⟨busy, hord, hbusy, hrest⟩ := h.stands i
  rw [hops] at hord
  obtain ⟨hne, hb, hord⟩ : s.holds i ≠ 0 ∧ busy = true ∧
      (Orderly rest (s.holds i) true ops ∨
        (∀ inner, stop inner = true → rest inner) ∧ Orderly rest (s.holds i) false ops) := by
    cases hheld : s.holds i <;> rw [hheld] at hord <;> exact hord
  refine ⟨h.served, fun hfree => absurd hfree (lock_ne_none hne), ?_⟩
  refine forall_stands h.stands hne (fun j hj => holds_eq_zero hj hne)
    (fun j hj => script_goto_of_ne hj ops) ?_
  rcases hord with hord | ⟨hdone, hord⟩
  · refine ⟨true, ?_, fun _ => hbusy hb, nofun⟩
    rw [script_goto]
    exact hord
  · refine ⟨false, ?_, nofun, fun _ _ => hdone _ hstop⟩
    rw [script_goto]
    exact hord

theorem Inv.work (hc : Serves c acc rest) (h : Inv acc rest s) {stop : σ → Bool}
    {ops : List (Op κ σ)} (hops : s.script i = .work stop :: ops) {a : α} {inner : σ}
    (hwork : c.work s.inner a = some inner) : Inv acc rest { s with inner := inner } := by
  obtain ⟨busy, hord, hbusy, -⟩ := h.stands i
  have hstand := hord
  rw [hops] at hord
  obtain ⟨hne, hb⟩ : s.holds i ≠ 0 ∧ busy = true := by
    cases hheld : s.holds i <;> rw [hheld] at hord <;> exact ⟨hord.1, hord.2.1⟩
  refine ⟨hc.work _ _ _ _ h.served hwork, fun hfree => absurd hfree (lock_ne_none hne), ?_⟩
  refine forall_stands h.stands hne (fun j hj => holds_eq_zero hj hne) (fun _ _ => rfl)
    ⟨busy, hstand, hbusy, ?_⟩
  simp [hb]

theorem Inv.advance (hc : Serves c acc rest) (h : Inv acc rest s) {a : Option α}
    (ht : advance c s i a = some t) : Inv acc rest t := by
  simp only [Turns.advance] at ht
  split at ht
  · next hops =>
      obtain ⟨taken, htake, rfl⟩ := Option.map_eq_some_iff.mp ht
      exact h.lock hops htake
  · next hops =>
      cases ht
      exact h.unlock hops
  · next hops =>
      obtain ⟨inner, henter, rfl⟩ := Option.map_eq_some_iff.mp ht
      exact h.enter hc hops henter
  · next hops =>
      split at ht
      · next hstop =>
          cases ht
          exact h.stopped hops hstop
      · cases ht
  · next hops =>
      split at ht
      · cases ht
      · obtain ⟨inner, hwork, rfl⟩ := Option.map_eq_some_iff.mp ht
        exact h.work hc hops hwork
  · cases ht

theorem Inv.call (hc : Serves c acc rest) (h : Inv acc rest s) (hidle : s.script i = [])
    (call : κ) : Inv acc rest (s.goto i (c.script call)) := by
  obtain ⟨busy, hord, -, -⟩ := h.stands i
  have hzero : s.holds i = 0 := by
    rw [hidle] at hord
    cases hheld : s.holds i with
    | zero => rfl
    | succ depth =>
        rw [hheld] at hord
        exact absurd hord (Nat.succ_ne_zero depth)
  refine ⟨h.served, h.free, fun j => ?_⟩
  by_cases hj : j = i
  · subst hj
    refine ⟨false, ?_, nofun, fun _ hne => absurd hzero hne⟩
    rw [script_goto, holds_goto, hzero]
    exact hc.script call
  · obtain ⟨busy, hord, hbusy, hrest⟩ := h.stands j
    refine ⟨busy, ?_, hbusy, hrest⟩
    rw [script_goto_of_ne hj, holds_goto]
    exact hord

theorem Inv.environment (hc : Serves c acc rest) (h : Inv acc rest s) {e : ε} {inner : σ}
    (henv : c.environment s.inner e = some inner) : Inv acc rest { s with inner := inner } := by
  refine ⟨hc.environment _ _ _ _ h.served henv,
    fun hfree => hc.still _ _ _ (h.free hfree) henv, fun j => ?_⟩
  obtain ⟨busy, hord, hbusy, hrest⟩ := h.stands j
  exact ⟨busy, hord, hbusy, fun hb hne => hc.still _ _ _ (hrest hb hne) henv⟩

theorem Inv.step (hc : Serves c acc rest) (h : Inv acc rest s) {a : Action ι κ α ε}
    (ht : step c s a = some t) : Inv acc rest t := by
  cases a with
  | call i call =>
      simp only [Turns.step] at ht
      split at ht
      · next hidle =>
          cases ht
          exact h.call hc (List.isEmpty_iff.mp hidle) call
      · cases ht
  | advance i a => exact h.advance hc ht
  | environment e =>
      obtain ⟨inner, henv, rfl⟩ := Option.map_eq_some_iff.mp ht
      exact h.environment hc henv

theorem inv_init {inner : σ} (hacc : acc [] inner) (hrest : rest inner) :
    Inv acc rest (init inner : State ι κ σ) :=
  ⟨hacc, fun _ => hrest, fun _ => ⟨false, rfl, nofun, fun _ _ => hrest⟩⟩

/-- The component is where the calls, one after the other, have brought it. -/
theorem serial (hc : Serves c acc rest) {inner : σ} (hacc : acc [] inner) (hrest : rest inner)
    {p : State ι κ σ → Prop} (hp : ∀ s, Inv acc rest s → p s) (acts : List (Action ι κ α ε)) :
    Transition.Always (step c) p (init inner) acts :=
  Transition.Always.of_inductive (Inv acc rest) (fun _ _ _ h ht => h.step hc ht) hp
    (inv_init hacc hrest) acts

/-- While the component is not at rest, the holder of the lock works on the last call. -/
theorem Inv.current (h : Inv acc rest s) (hrest : ¬ rest s.inner) :
    ∃ i, s.holds i ≠ 0 ∧ Last s i := by
  obtain ⟨⟨i, again⟩, hlock⟩ := Option.ne_none_iff_exists'.mp (mt h.free hrest)
  have hi : s.holds i ≠ 0 := by simp [State.holds, hlock]
  obtain ⟨busy, -, hbusy, hidle⟩ := h.stands i
  cases busy with
  | true => exact ⟨i, hbusy rfl⟩
  | false => exact absurd (hidle rfl hi) hrest

/-- The holder of the lock is within a call, and no one else is past its first `lock`. -/
def Exclusive (s : State ι κ σ) : Prop :=
  ∀ i, s.holds i ≠ 0 →
    s.script i ≠ [] ∧ ∀ j, j ≠ i → s.script j = [] ∨ ∃ ops, s.script j = .lock :: ops

theorem Inv.exclusive (h : Inv acc rest s) : Exclusive s := by
  intro i hi
  constructor
  · intro hnil
    obtain ⟨busy, hord, -, -⟩ := h.stands i
    rw [hnil] at hord
    cases hheld : s.holds i with
    | zero => exact hi hheld
    | succ depth =>
        rw [hheld] at hord
        exact absurd hord (Nat.succ_ne_zero depth)
  · intro j hj
    obtain ⟨busy, hord, -, -⟩ := h.stands j
    rw [holds_eq_zero hj hi] at hord
    match hscript : s.script j with
    | [] => exact .inl rfl
    | .lock :: ops => exact .inr ⟨ops, rfl⟩
    | .unlock :: ops => exact ((hscript ▸ hord : Orderly rest 0 busy (.unlock :: ops))).elim
    | .enter call :: ops =>
        exact absurd rfl (hscript ▸ hord : Orderly rest 0 busy (.enter call :: ops)).1
    | .work stop :: ops =>
        exact absurd rfl (hscript ▸ hord : Orderly rest 0 busy (.work stop :: ops)).1

end Turns
