import OpenIotSdk.Library.Transition
import Mathlib.Logic.Function.Basic

/-! # Families of components over a shared state

Each step is one of one component, which reads and writes its own state and the shared one.
What a component keeps by itself, the whole family keeps. -/

namespace Family

open Transition

variable {ι γ σ α : Type*} [DecidableEq ι] (act : γ → σ → α → Option (γ × σ))

/-- One component takes a step. -/
def step (s : γ × (ι → σ)) (a : ι × α) : Option (γ × (ι → σ)) :=
  (act s.1 (s.2 a.1) a.2).map fun t => (t.1, Function.update s.2 a.1 t.2)

/-- A condition on one component, for the component that takes a step. -/
def At (ok : γ → σ → α → Prop) (s : γ × (ι → σ)) (a : ι × α) : Prop := ok s.1 (s.2 a.1) a.2

/-- What a step means for the component that takes it. -/
def Moves (q : γ → σ → α → σ → Prop) (s : γ × (ι → σ)) (a : ι × α) (t : γ × (ι → σ)) : Prop :=
  q s.1 (s.2 a.1) a.2 (t.2 a.1)

instance {ok : γ → σ → α → Prop} [hok : ∀ c x a, Decidable (ok c x a)] (s : γ × (ι → σ))
    (a : ι × α) : Decidable (At ok s a) :=
  hok s.1 (s.2 a.1) a.2

variable {act} {ok : γ → σ → α → Prop} {inv p : σ → Prop}

theorem step_eq_some {s t : γ × (ι → σ)} {a : ι × α} :
    step act s a = some t ↔
      ∃ c x, act s.1 (s.2 a.1) a.2 = some (c, x) ∧ t = (c, Function.update s.2 a.1 x) := by
  rw [step, Option.map_eq_some_iff]
  constructor
  · rintro ⟨⟨c, x⟩, hact, rfl⟩
    exact ⟨c, x, hact, rfl⟩
  · rintro ⟨c, x, hact, rfl⟩
    exact ⟨(c, x), hact, rfl⟩

/-- An invariant of each component is one of the family. -/
theorem forall_step (hstep : ∀ c x a c' x', inv x → ok c x a → act c x a = some (c', x') → inv x')
    {s t : γ × (ι → σ)} {a : ι × α} (hs : ∀ i, inv (s.2 i)) (hok : At ok s a)
    (ht : step act s a = some t) : ∀ i, inv (t.2 i) := by
  obtain ⟨c, x, hact, rfl⟩ := step_eq_some.mp ht
  apply (Function.forall_update_iff s.2 fun _ y => inv y).mpr
  exact ⟨hstep _ _ _ _ _ (hs a.1) hok hact, fun i _ => hs i⟩

/-- Safety of every component, when every forbidden step breaks it in its component. -/
theorem always_iff_meets
    (hstep : ∀ c x a c' x', inv x → ok c x a → act c x a = some (c', x') → inv x')
    (hp : ∀ x, inv x → p x)
    (hbad : ∀ c x a c' x', inv x → act c x a = some (c', x') → ¬ ok c x a → ¬ p x')
    {s : γ × (ι → σ)} (hs : ∀ i, inv (s.2 i)) (acts : List (ι × α)) :
    Always (step act) (fun s => ∀ i, p (s.2 i)) s acts ↔ Meets (step act) (At ok) s acts := by
  apply Transition.always_iff_meets (fun s => ∀ i, inv (s.2 i))
  · exact fun _ _ _ h hok ht => forall_step hstep h hok ht
  · exact fun _ h i => hp _ (h i)
  · intro s a t h ht hn hall
    obtain ⟨c, x, hact, rfl⟩ := step_eq_some.mp ht
    have hx := hall a.1
    simp only [Function.update_self] at hx
    exact hbad _ _ _ _ _ (h a.1) hact hn hx
  · exact hs

theorem always_of_meets
    (hstep : ∀ c x a c' x', inv x → ok c x a → act c x a = some (c', x') → inv x')
    (hp : ∀ x, inv x → p x) {s : γ × (ι → σ)} (hs : ∀ i, inv (s.2 i)) {acts : List (ι × α)}
    (hm : Meets (step act) (At ok) s acts) :
    Always (step act) (fun s => ∀ i, p (s.2 i)) s acts :=
  Always.of_invariant (fun s => ∀ i, inv (s.2 i))
    (fun _ _ _ h hok ht => forall_step hstep h hok ht) (fun _ h i => hp _ (h i)) hs hm

theorem steps_of_meets {q : γ → σ → α → σ → Prop}
    (hstep : ∀ c x a c' x', inv x → ok c x a → act c x a = some (c', x') → inv x')
    (hq : ∀ c x a c' x', inv x → ok c x a → act c x a = some (c', x') → q c x a x')
    {s : γ × (ι → σ)} (hs : ∀ i, inv (s.2 i)) {acts : List (ι × α)}
    (hm : Meets (step act) (At ok) s acts) : Steps (step act) (Moves q) s acts := by
  apply Steps.of_invariant (fun s => ∀ i, inv (s.2 i)) _ _ hs hm
  · exact fun _ _ _ h hok ht => forall_step hstep h hok ht
  · intro s a t h hok ht
    obtain ⟨c, x, hact, rfl⟩ := step_eq_some.mp ht
    simp only [Moves, Function.update_self]
    exact hq _ _ _ _ _ (h a.1) hok hact

end Family
