import OpenIotSdk.Library.Transition

/-! # Monitored runs

An observer notes what each step of a system does. The system does not see the notes. -/

namespace Monitor

open Transition

variable {σ α γ : Type*} (act : σ → α → Option σ) (observe : σ → α → σ → γ → γ)

/-- A step, and what the observer notes about it. -/
def step (s : σ × γ) (a : α) : Option (σ × γ) :=
  (act s.1 a).map fun t => (t, observe s.1 a t s.2)

variable {act observe}

theorem step_eq_some {s t : σ × γ} {a : α} :
    step act observe s a = some t ↔ ∃ u, act s.1 a = some u ∧ t = (u, observe s.1 a u s.2) := by
  rw [step, Option.map_eq_some_iff]
  exact exists_congr fun u => and_congr_right fun _ => eq_comm

end Monitor
