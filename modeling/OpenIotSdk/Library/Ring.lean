import Mathlib.Data.List.Basic

/-! # Windows of a ring

A ring of `n` cells is read through a function of period `n`. Its contents are the
window that starts at the tail, so that a reader never reduces an index. -/

namespace Ring

variable {α : Type*}

/-- The values of `f` at `len` places from `start` on. -/
def window (f : ℕ → α) : ℕ → ℕ → List α
  | _, 0 => []
  | start, len + 1 => f start :: window f (start + 1) len

variable {f g : ℕ → α} {start len n : ℕ}

@[simp] theorem window_zero : window f start 0 = [] := rfl

@[simp] theorem length_window : (window f start len).length = len := by
  induction len generalizing start with
  | zero => rfl
  | succ len ih => simp [window, ih]

theorem window_add (a b : ℕ) :
    window f start (a + b) = window f start a ++ window f (start + a) b := by
  induction a generalizing start with
  | zero => simp
  | succ a ih =>
      rw [show a + 1 + b = a + b + 1 by omega, window, window, ih,
        show start + 1 + a = start + (a + 1) by omega, List.cons_append]

theorem window_congr (h : ∀ i < len, f (start + i) = g (start + i)) :
    window f start len = window g start len := by
  induction len generalizing start with
  | zero => rfl
  | succ len ih =>
      have hhead : f start = g start := h 0 (Nat.succ_pos len)
      rw [window, window, hhead, ih]
      intro i hi
      rw [show start + 1 + i = start + (i + 1) by omega]
      exact h (i + 1) (Nat.succ_lt_succ hi)

/-- A list is a window as soon as each of its elements is read in its place. -/
theorem window_eq_of_reads (l : List α) (h : ∀ i (hi : i < l.length), f (start + i) = l[i]) :
    window f start l.length = l := by
  induction l generalizing start with
  | nil => rfl
  | cons x l ih =>
      have hhead : f start = x := h 0 (Nat.succ_pos _)
      rw [List.length_cons, window, hhead, ih]
      intro i hi
      rw [show start + 1 + i = start + (i + 1) by omega]
      exact h (i + 1) (Nat.succ_lt_succ hi)

theorem window_period (hf : ∀ i, f (i + n) = f i) :
    window f (start + n) len = window f start len := by
  induction len generalizing start with
  | zero => rfl
  | succ len ih =>
      rw [window, window, hf, show start + n + 1 = start + 1 + n by omega, ih]

/-! ## Writing -/

/-- `g` is `f` with `l` written from `start` on, once around at most. -/
structure Wrote (n : ℕ) (f g : ℕ → α) (start : ℕ) (l : List α) : Prop where
  new : ∀ i (hi : i < l.length), g (start + i) = l[i]
  old : ∀ i, l.length ≤ i → i < n → g (start + i) = f (start + i)

/-- Writing twice in a row. -/
theorem Wrote.append {k : ℕ → α} {a b : List α} (h : Wrote n f g start a)
    (h' : Wrote n g k (start + a.length) b) (hg : ∀ i, g (i + n) = g i)
    (hk : ∀ i, k (i + n) = k i) (hroom : a.length + b.length ≤ n) :
    Wrote n f k start (a ++ b) := by
  constructor
  · intro i hi
    rcases Nat.lt_or_ge i a.length with hlt | hge
    · -- The second list stops before it comes round to the first.
      have hi' := h'.old (n - a.length + i) (by omega) (by omega)
      rw [show start + a.length + (n - a.length + i) = start + i + n by omega, hk, hg] at hi'
      rw [hi', h.new i hlt, List.getElem_append_left hlt]
    · rw [List.length_append] at hi
      have hi' := h'.new (i - a.length) (by omega)
      rw [show start + a.length + (i - a.length) = start + i by omega] at hi'
      rw [hi', List.getElem_append_right hge]
  · intro i hlen hi
    rw [List.length_append] at hlen
    have hi' := h'.old (i - a.length) (by omega) (by omega)
    rw [show start + a.length + (i - a.length) = start + i by omega] at hi'
    rw [hi', h.old i (by omega) hi]

/-- The place to write is a place of the ring. -/
theorem Wrote.round {l : List α} (h : Wrote n f g start l) (hf : ∀ i, f (i + n) = f i)
    (hg : ∀ i, g (i + n) = g i) : Wrote n f g (start + n) l := by
  constructor
  · intro i hi
    rw [Nat.add_right_comm, hg]
    exact h.new i hi
  · intro i hlen hi
    rw [Nat.add_right_comm, hg, hf]
    exact h.old i hlen hi

/-- Writing behind a window, with room for it, appends. -/
theorem Wrote.window {l : List α} {tail : ℕ} (h : Wrote n f g start l)
    (hf : ∀ i, f (i + n) = f i) (hg : ∀ i, g (i + n) = g i) (hroom : len + l.length ≤ n)
    (hstart : tail + len = start ∨ tail + len = start + n) :
    window g tail (len + l.length) = window f tail len ++ l := by
  have hnew : Ring.window g (tail + len) l.length = l := by
    rcases hstart with heq | heq <;> rw [heq]
    · exact window_eq_of_reads l h.new
    · rw [window_period hg]
      exact window_eq_of_reads l h.new
  have hold : Ring.window g tail len = Ring.window f tail len := by
    refine window_congr fun i hi => ?_
    -- Cell `i` of the window is `n - len + i` places after `start`.
    have hi' : g (start + (n - len + i)) = f (start + (n - len + i)) :=
      h.old _ (by omega) (by omega)
    rcases hstart with heq | heq
    · rw [show start + (n - len + i) = tail + i + n by omega, hf, hg] at hi'
      exact hi'
    · rw [show start + (n - len + i) = tail + i by omega] at hi'
      exact hi'
  rw [window_add, hnew, hold]

end Ring
