import Mathlib.Data.List.GetD
import OpenIotSdk.Model.Pigweed.Log

/-! # Log lines

Any number of threads log at the same time. Each line reaches the serial whole, in the order in
which the threads got the lock. -/

namespace OpenIotSdk.Log

open Turns Transition

/-! ## The specification -/

/-- What a call logs: what fits into the buffer, up to the first zero. -/
def line (call : Call) : List Byte :=
  ((call.text.getD []).take (lineLength - 1)).takeWhile (· ≠ 0#8)

/-- What the loop still sends. -/
def Output.rest (s : Output) : List Byte := ((List.ofFn s.buffer).drop s.ptr).takeWhile (· ≠ 0#8)

variable {ι : Type*} [DecidableEq ι]

theorem takeWhile_append_stop {α : Type*} {p : α → Bool} {a : α} (ha : p a = false)
    (l l' : List α) : (l ++ a :: l').takeWhile p = l.takeWhile p := by
  induction l with
  | nil => simp [ha]
  | cons b l ih =>
      rw [List.cons_append, List.takeWhile_cons, List.takeWhile_cons, ih]

/-- A list stored at the start of a buffer, and what the buffer held after it. -/
theorem ofFn_getD {α : Type*} {n : ℕ} (buffer : Fin n → α) {l : List α} (hl : l.length ≤ n) :
    List.ofFn (fun i => l.getD i (buffer i)) = l ++ (List.ofFn buffer).drop l.length := by
  apply List.ext_getElem
  · simp only [List.length_ofFn, List.length_append, List.length_drop]
    omega
  · intro i hi hi'
    rw [List.getElem_ofFn]
    rcases Nat.lt_or_ge i l.length with h | h
    · rw [List.getD_eq_getElem _ _ h, List.getElem_append_left h]
    · rw [List.getD_eq_default _ _ h, List.getElem_append_right h, List.getElem_drop,
        List.getElem_ofFn]
      congr 1
      exact Fin.ext (by simp only; omega)

theorem ofFn_vsnprintf (buffer : Fin lineLength → Byte) (text : List Byte) :
    ∃ garbage, List.ofFn (vsnprintf buffer text) =
      text.take (lineLength - 1) ++ 0#8 :: garbage := by
  have hlen : (text.take (lineLength - 1) ++ [0#8]).length ≤ lineLength := by
    rw [List.length_append, List.length_singleton]
    exact Nat.succ_le_succ (List.length_take_le ..)
  refine ⟨_, (ofFn_getD buffer hlen).trans (List.append_assoc ..)⟩

theorem rest_enter (s : Output) (call : Call) : (s.enter call).rest = line call := by
  obtain ⟨garbage, hbuffer⟩ := ofFn_vsnprintf call.garbage (call.text.getD [])
  change (List.takeWhile _ (List.drop 0 (List.ofFn (vsnprintf _ _)))) = _
  rw [List.drop_zero, hbuffer, takeWhile_append_stop (by simp)]
  rfl

/-! ## The loop -/

def Output.Terminated (s : Output) : Prop := ∃ i : Fin lineLength, s.ptr ≤ i ∧ s.buffer i = 0#8

theorem terminated_enter (s : Output) (call : Call) : (s.enter call).Terminated := by
  obtain ⟨garbage, hbuffer⟩ := ofFn_vsnprintf call.garbage (call.text.getD [])
  have hlt : ((call.text.getD []).take (lineLength - 1)).length < lineLength :=
    (List.length_take_le ..).trans_lt (by decide)
  refine ⟨⟨_, hlt⟩, Nat.zero_le _, ?_⟩
  have hget : (List.ofFn (vsnprintf call.garbage (call.text.getD [])))[
      ((call.text.getD []).take (lineLength - 1)).length]? = some 0#8 := by
    rw [hbuffer, List.getElem?_append_right (le_refl _), Nat.sub_self]
    rfl
  rw [List.getElem?_ofFn, dif_pos hlt] at hget
  exact Option.some.inj hget

theorem Output.Terminated.lt {s : Output} (h : s.Terminated) : s.ptr < lineLength := by
  obtain ⟨i, hi, -⟩ := h
  exact hi.trans_lt i.isLt

theorem drop_ofFn {s : Output} (h : s.ptr < lineLength) :
    (List.ofFn s.buffer).drop s.ptr =
      s.buffer ⟨s.ptr, h⟩ :: (List.ofFn s.buffer).drop (s.ptr + 1) := by
  have hlen : s.ptr < (List.ofFn s.buffer).length := by rw [List.length_ofFn]; exact h
  rw [List.drop_eq_getElem_cons hlen, List.getElem_ofFn]

theorem putData_spec {s : Output} (h : s.Terminated) (hend : s.atEnd = false) :
    s.putData.Terminated ∧ s.putData.fault = s.fault ∧
      ∃ c, s.putData.sent = s.sent ++ [c] ∧ s.rest = c :: s.putData.rest := by
  rw [Output.atEnd, dif_pos h.lt, beq_eq_false_iff_ne] at hend
  rw [Output.putData, dif_pos h.lt]
  refine ⟨?_, rfl, s.buffer ⟨s.ptr, h.lt⟩, rfl, ?_⟩
  · obtain ⟨i, hi, hzero⟩ := h
    refine ⟨i, ?_, hzero⟩
    change s.ptr + 1 ≤ i
    refine Nat.succ_le_of_lt (lt_of_le_of_ne hi fun heq => hend ?_)
    have hi' : (⟨s.ptr, heq ▸ i.isLt⟩ : Fin lineLength) = i := Fin.ext heq
    exact (congrArg s.buffer hi').trans hzero
  · simp only [Output.rest]
    rw [drop_ofFn h.lt, List.takeWhile_cons_of_pos (by simpa using hend)]

/-! ## The backend -/

/-- The calls have been served one after the other. -/
structure Served (calls : List Call) (s : Output) : Prop where
  bounds : s.fault = false
  terminated : s.Terminated
  whole : s.sent ++ s.rest = (calls.map line).flatten
  last : s.rest ≠ [] → ∃ before call, calls = before ++ [call] ∧ s.rest <:+ line call

theorem Served.enter {calls : List Call} {s : Output} (h : Served calls s) (hrest : s.rest = [])
    (call : Call) : Served (calls ++ [call]) (s.enter call) := by
  have hsent : s.sent = (calls.map line).flatten := by
    rw [← h.whole, hrest, List.append_nil]
  refine ⟨h.bounds, terminated_enter s call, ?_, fun _ => ⟨calls, call, rfl, ?_⟩⟩
  · rw [rest_enter, List.map_append, List.flatten_append, ← hsent, List.map_singleton,
      List.flatten_singleton]
    rfl
  · rw [rest_enter]

theorem Served.putData {calls : List Call} {s : Output} (h : Served calls s)
    (hend : s.atEnd = false) : Served calls s.putData := by
  obtain ⟨hterminated, hfault, c, hsent, hrest⟩ := putData_spec h.terminated hend
  refine ⟨hfault.trans h.bounds, hterminated, ?_, fun _ => ?_⟩
  · rw [← h.whole, hsent, hrest, List.append_assoc, List.singleton_append]
  · obtain ⟨before, call, hcalls, hsuffix⟩ := h.last (hrest ▸ List.cons_ne_nil c _)
    refine ⟨before, call, hcalls, List.IsSuffix.trans ?_ hsuffix⟩
    rw [hrest]
    exact List.suffix_cons c _

end OpenIotSdk.Log
