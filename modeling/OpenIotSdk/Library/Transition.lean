import Mathlib.Data.List.Basic
import Mathlib.Order.Basic

/-! # Guarded runs of a step function

A system is a partial step function; an action that is not enabled ends the run.
Safety is stated over every state a run visits, and an exact condition over every
step it takes. -/

namespace Transition

variable {σ α : Type*} (step : σ → α → Option σ)

/-- The state reached by a list of actions, if each of them is enabled in turn. -/
def run : σ → List α → Option σ
  | s, [] => some s
  | s, a :: acts => (step s a).bind fun t => run t acts

/-- `p` holds in every state the run visits, the first one included. -/
def Always (p : σ → Prop) : σ → List α → Prop
  | s, [] => p s
  | s, a :: acts => p s ∧ ∀ t, step s a = some t → Always p t acts

/-- Every step the run takes starts in a state where `ok` allows its action. -/
def Meets (ok : σ → α → Prop) : σ → List α → Prop
  | _, [] => True
  | s, a :: acts => ∀ t, step s a = some t → ok s a ∧ Meets ok t acts

/-- Every step the run takes satisfies `q`. -/
def Steps (q : σ → α → σ → Prop) : σ → List α → Prop
  | _, [] => True
  | s, a :: acts => ∀ t, step s a = some t → q s a t ∧ Steps q t acts

/-- One action is repeated until `done`. -/
def runUntil (done : σ → Bool) (a : α) : (fuel : ℕ) → σ → Option σ
  | 0, _ => none
  | fuel + 1, s => if done s then some s else (step s a).bind (runUntil done a fuel)

variable {step} {p : σ → Prop} {ok : σ → α → Prop} {q : σ → α → σ → Prop}

@[simp] theorem run_nil (s : σ) : run step s [] = some s := rfl

theorem run_cons {s t : σ} {a : α} (h : step s a = some t) (acts : List α) :
    run step s (a :: acts) = run step t acts := by
  simp [run, h]

/-- A run with one more step. -/
theorem run_snoc {s t u : σ} {acts : List α} {a : α} (hr : run step s acts = some t)
    (hu : step t a = some u) : run step s (acts ++ [a]) = some u := by
  induction acts generalizing s with
  | nil =>
      cases hr
      exact (run_cons hu []).trans (run_nil u)
  | cons b acts ih =>
      obtain ⟨v, hv, hr⟩ := Option.bind_eq_some_iff.mp hr
      exact (run_cons hv _).trans (ih hr)

/-- `Always` speaks about exactly the states reached by the prefixes of the run. -/
theorem always_iff_prefixes {s : σ} {acts : List α} :
    Always step p s acts ↔
      ∀ front t, front <+: acts → run step s front = some t → p t := by
  induction acts generalizing s with
  | nil =>
      constructor
      · intro h front t hf hr
        rw [List.prefix_nil.mp hf, run_nil] at hr
        cases hr
        exact h
      · intro h
        exact h [] s List.prefix_rfl rfl
  | cons a acts ih =>
      constructor
      · rintro ⟨hs, hrest⟩ front t hf hr
        cases front with
        | nil => cases hr; exact hs
        | cons b front =>
            obtain ⟨rfl, hrest'⟩ := List.cons_prefix_cons.mp hf
            obtain ⟨u, hu, hr⟩ := Option.bind_eq_some_iff.mp hr
            exact ih.mp (hrest u hu) front t hrest' hr
      · intro h
        refine ⟨h [] s (List.nil_prefix) rfl, ?_⟩
        intro t ht
        apply ih.mpr
        intro front u hf hr
        exact h (a :: front) u (List.cons_prefix_cons.mpr ⟨rfl, hf⟩)
          ((run_cons ht front).trans hr)

/-- Two conditions on one run are met together. -/
theorem Meets.and {ok' : σ → α → Prop} {s : σ} {acts : List α} (h : Meets step ok s acts)
    (h' : Meets step ok' s acts) : Meets step (fun s a => ok s a ∧ ok' s a) s acts := by
  induction acts generalizing s with
  | nil => trivial
  | cons a acts ih =>
      intro t ht
      exact ⟨⟨(h t ht).1, (h' t ht).1⟩, ih (h t ht).2 (h' t ht).2⟩

/-- An invariant kept by every allowed step holds throughout every allowed run. -/
theorem Always.of_invariant (inv : σ → Prop)
    (hstep : ∀ s a t, inv s → ok s a → step s a = some t → inv t)
    (hp : ∀ s, inv s → p s) {s : σ} {acts : List α}
    (hs : inv s) (hm : Meets step ok s acts) : Always step p s acts := by
  induction acts generalizing s with
  | nil => exact hp s hs
  | cons a acts ih =>
      refine ⟨hp s hs, ?_⟩
      intro t ht
      obtain ⟨hok, hm⟩ := hm t ht
      exact ih (hstep s a t hs hok ht) hm

/-- Every run meets no condition at all. -/
theorem meets_true (s : σ) (acts : List α) : Meets step (fun _ _ => True) s acts := by
  induction acts generalizing s with
  | nil => trivial
  | cons a acts ih => exact fun t _ => ⟨trivial, ih t⟩

/-- An invariant kept by every step whatsoever needs no condition on the run. -/
theorem Always.of_inductive (inv : σ → Prop)
    (hstep : ∀ s a t, inv s → step s a = some t → inv t)
    (hp : ∀ s, inv s → p s) {s : σ} (hs : inv s) (acts : List α) :
    Always step p s acts :=
  Always.of_invariant inv (fun s a t hi _ ht => hstep s a t hi ht) hp hs (meets_true s acts)

/-- What holds of every allowed step from the invariant holds of every step of an allowed
run. -/
theorem Steps.of_invariant (inv : σ → Prop)
    (hstep : ∀ s a t, inv s → ok s a → step s a = some t → inv t)
    (hq : ∀ s a t, inv s → ok s a → step s a = some t → q s a t)
    {s : σ} {acts : List α} (hs : inv s) (hm : Meets step ok s acts) :
    Steps step q s acts := by
  induction acts generalizing s with
  | nil => trivial
  | cons a acts ih =>
      intro t ht
      obtain ⟨hok, hm⟩ := hm t ht
      exact ⟨hq s a t hs hok ht, ih (hstep s a t hs hok ht) hm⟩

theorem Steps.of_inductive (inv : σ → Prop)
    (hstep : ∀ s a t, inv s → step s a = some t → inv t)
    (hq : ∀ s a t, inv s → step s a = some t → q s a t) {s : σ} (hs : inv s) (acts : List α) :
    Steps step q s acts :=
  Steps.of_invariant inv (fun s a t hi _ ht => hstep s a t hi ht)
    (fun s a t hi _ ht => hq s a t hi ht) hs (meets_true s acts)

/-- The last step of a run satisfies what all its steps satisfy. -/
theorem Steps.last {s t u : σ} {acts : List α} {a : α} (h : Steps step q s (acts ++ [a]))
    (hr : run step s acts = some t) (hu : step t a = some u) : q t a u := by
  induction acts generalizing s with
  | nil =>
      cases hr
      exact (h u hu).1
  | cons b acts ih =>
      obtain ⟨v, hv, hr⟩ := Option.bind_eq_some_iff.mp hr
      exact ih (h v hv).2 hr

/-- When every forbidden step breaks `p` at once, safety of a run is equivalent to
the absence of forbidden steps. -/
theorem always_iff_meets (inv : σ → Prop)
    (hstep : ∀ s a t, inv s → ok s a → step s a = some t → inv t)
    (hp : ∀ s, inv s → p s)
    (hbad : ∀ s a t, inv s → step s a = some t → ¬ ok s a → ¬ p t)
    {s : σ} (hs : inv s) (acts : List α) :
    Always step p s acts ↔ Meets step ok s acts := by
  refine ⟨?_, Always.of_invariant inv hstep hp hs⟩
  induction acts generalizing s with
  | nil => intro _; trivial
  | cons a acts ih =>
      rintro ⟨_, hrest⟩ t ht
      have hpt : p t := by
        have h := hrest t ht
        cases acts with
        | nil => exact h
        | cons b acts => exact h.1
      have hok : ok s a := by
        by_contra hn
        exact hbad s a t hs ht hn hpt
      exact ⟨hok, ih (hstep s a t hs hok ht) (hrest t ht)⟩

/-- When every forbidden step violates `q`, a run satisfies `q` at each step exactly if none of
its steps is forbidden. -/
theorem steps_iff_meets (inv : σ → Prop)
    (hstep : ∀ s a t, inv s → ok s a → step s a = some t → inv t)
    (hq : ∀ s a t, inv s → ok s a → step s a = some t → q s a t)
    (hbad : ∀ s a t, inv s → step s a = some t → ¬ ok s a → ¬ q s a t)
    {s : σ} (hs : inv s) (acts : List α) : Steps step q s acts ↔ Meets step ok s acts := by
  refine ⟨?_, Steps.of_invariant inv hstep hq hs⟩
  induction acts generalizing s with
  | nil => exact fun _ => trivial
  | cons a acts ih =>
      intro h t ht
      obtain ⟨hqt, hrest⟩ := h t ht
      have hok : ok s a := by
        by_contra hn
        exact hbad s a t hs ht hn hqt
      exact ⟨hok, ih (hstep s a t hs hok ht) hrest⟩

/-! ## Simulation -/

/-- Where each step from the invariant is one of an abstract system, so is each run. -/
theorem run_map {τ : Type*} {step' : τ → α → Option τ} (f : σ → τ) (inv : σ → Prop)
    (hstep : ∀ s a t, inv s → step s a = some t → inv t)
    (hsim : ∀ s a, inv s → (step s a).map f = step' (f s) a) {s : σ} (hs : inv s)
    (acts : List α) : (run step s acts).map f = run step' (f s) acts := by
  induction acts generalizing s with
  | nil => rfl
  | cons a acts ih =>
      simp only [run, ← hsim s a hs]
      cases hact : step s a with
      | none => rfl
      | some t => exact ih (hstep s a t hs hact)

/-! ## Measures -/

section Measure

variable {β : Type*} [PartialOrder β] {m : σ → β}
  (hkeep : ∀ s a t, step s a = some t → ok s a → m t = m s)
  (hraise : ∀ s a t, step s a = some t → ¬ ok s a → m s < m t)

include hkeep hraise

/-- A measure that allowed steps keep and forbidden ones raise never falls. -/
theorem measure_mono {s t : σ} {acts : List α} (hr : run step s acts = some t) : m s ≤ m t := by
  induction acts generalizing s with
  | nil =>
      cases hr
      exact le_rfl
  | cons a acts ih =>
      obtain ⟨u, hu, hr⟩ := Option.bind_eq_some_iff.mp hr
      have hsu : m s ≤ m u := by
        by_cases hok : ok s a
        · exact (hkeep s a u hu hok).ge
        · exact (hraise s a u hu hok).le
      exact hsu.trans (ih hr)

/-- It is where it was exactly if no step was forbidden. -/
theorem measure_le_iff_meets {s t : σ} {acts : List α} (hr : run step s acts = some t) :
    m t ≤ m s ↔ Meets step ok s acts := by
  induction acts generalizing s with
  | nil =>
      cases hr
      exact iff_of_true le_rfl trivial
  | cons a acts ih =>
      obtain ⟨u, hu, hr⟩ := Option.bind_eq_some_iff.mp hr
      constructor
      · intro hle v hv
        cases hu.symm.trans hv
        have hok : ok s a := by
          by_contra hn
          have hlt : m s < m t := (hraise s a u hu hn).trans_le (measure_mono hkeep hraise hr)
          exact hlt.not_ge hle
        refine ⟨hok, (ih hr).mp ?_⟩
        rw [hkeep s a u hu hok]
        exact hle
      · intro hm
        obtain ⟨hok, hm⟩ := hm u hu
        rw [← hkeep s a u hu hok]
        exact (ih hr).mpr hm

end Measure

/-! ## Evaluation -/

/-- A property of the next state, if there is one, can be evaluated. -/
def decidableNext (o : Option σ) {q : σ → Prop} (hq : ∀ t, Decidable (q t)) :
    Decidable (∀ t, o = some t → q t) :=
  match o with
  | none => isTrue nofun
  | some t =>
      match hq t with
      | isTrue h => isTrue fun _ hu => Option.some.inj hu ▸ h
      | isFalse h => isFalse fun hall => h (hall t rfl)

instance decidableMeets [hok : ∀ s a, Decidable (ok s a)] (s : σ) (acts : List α) :
    Decidable (Meets step ok s acts) :=
  match acts with
  | [] => isTrue trivial
  | a :: acts =>
      decidableNext (step s a) fun t =>
        @instDecidableAnd _ _ (hok s a) (decidableMeets t acts)

/-- A state reached by a run whose states all satisfy `p` satisfies it. -/
theorem Always.reached {s t : σ} {acts : List α} (h : Always step p s acts)
    (hr : run step s acts = some t) : p t :=
  always_iff_prefixes.mp h acts t List.prefix_rfl hr

end Transition
