import Mathlib.Data.List.Basic

/-! # Bounded queues

A queue of a fixed capacity drops its oldest element to make room for a new one. -/

namespace Fifo

variable {α : Type*} {capacity : ℕ}

def push (capacity : ℕ) (queue : List α) (x : α) : List α :=
  (if queue.length < capacity then queue else queue.tail) ++ [x]

/-- The elements of `l` are pushed one after the other. -/
def pushAll (capacity : ℕ) (queue l : List α) : List α := l.foldl (push capacity) queue

theorem pushAll_append (queue a b : List α) :
    pushAll capacity queue (a ++ b) = pushAll capacity (pushAll capacity queue a) b :=
  List.foldl_append

theorem length_push_le (h : 0 < capacity) {queue : List α} (hq : queue.length ≤ capacity) (x : α) :
    (push capacity queue x).length ≤ capacity := by
  rw [push, List.length_append, List.length_singleton]
  split
  · omega
  · rw [List.length_tail]
    omega

/-- Of everything that was pushed, the newest elements are left. -/
theorem pushAll_eq_drop (h : 0 < capacity) {queue : List α} (hq : queue.length ≤ capacity)
    (l : List α) :
    pushAll capacity queue l = (queue ++ l).drop (queue.length + l.length - capacity) := by
  induction l generalizing queue with
  | nil =>
      rw [List.append_nil, List.length_nil, Nat.add_zero, Nat.sub_eq_zero_of_le hq]
      rfl
  | cons x l ih =>
      have hpush := ih (length_push_le h hq x)
      change pushAll capacity (push capacity queue x) l = _
      rw [hpush, push]
      split
      · rw [List.append_assoc, List.length_append, List.singleton_append, List.length_singleton,
          List.length_cons, Nat.add_assoc, Nat.add_comm 1]
      · next hfull =>
          cases queue with
          | nil => exact absurd h hfull
          | cons y queue =>
              rw [List.length_cons] at hfull hq
              rw [List.tail_cons, List.append_assoc, List.singleton_append, List.cons_append,
                List.length_append, List.length_singleton, List.length_cons, List.length_cons,
                show queue.length + 1 + (l.length + 1) - capacity =
                  queue.length + 1 + l.length - capacity + 1 by omega, List.drop_succ_cons]

end Fifo
