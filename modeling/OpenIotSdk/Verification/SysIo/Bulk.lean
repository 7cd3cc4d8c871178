import OpenIotSdk.Library.Transition
import OpenIotSdk.Verification.SysIo.RingBuffer

/-! # Bulk operations of the ring buffer

A bulk put does what single puts would do. A bulk get does so where the elements go round the end
of `buffer_`, or start with it. -/

namespace OpenIotSdk.SysIo

namespace RingBuffer

variable {T : Type} {Size : ℕ}

/-! ## Runs -/

inductive Op (T : Type) where
  | put (data : T)
  | putSpan (src : List T)
  | get
  | getSpan (n : ℕ)

/-- An operation that does not end the program. -/
def step (abortOnOverflow : Bool) (r : RingBuffer T Size) : Op T → Option (RingBuffer T Size)
  | .put data => (r.put abortOnOverflow data).toOption
  | .putSpan src => (r.putSpan abortOnOverflow src).toOption
  | .get => r.get.toOption.map Prod.snd
  | .getSpan n => (r.getSpan n).toOption.map fun out => out.2.2

def putEach (r : RingBuffer T Size) : List T → Except Fault (RingBuffer T Size)
  | [] => .ok r
  | data :: src => do
      let r ← r.put false data
      r.putEach src

def getEach (r : RingBuffer T Size) : ℕ → Except Fault (List T × RingBuffer T Size)
  | 0 => .ok ([], r)
  | n + 1 => do
      let (data, r) ← r.get
      let (rest, r) ← r.getEach n
      return (data.toList ++ rest, r)

variable [NeZero Size]

/-- A bulk put leaves the queue that single puts would leave. -/
def BulkPut (r : RingBuffer T Size) (src : List T) : Prop :=
  ∃ r' r'', r.putSpan false src = .ok r' ∧ r.putEach src = .ok r'' ∧
    r'.contents = r''.contents ∧ Valid r'

/-- A bulk get writes what single gets would take, and leaves the queue that they would leave. -/
def BulkGet (r : RingBuffer T Size) (n : ℕ) : Prop :=
  ∃ values r' r'', r.getSpan n = .ok (values, min n r.size, r') ∧
    r.getEach (min n r.size) = .ok (values, r'') ∧ r'.contents = r''.contents ∧ Valid r'

/-! ## Puts -/

theorem Valid.put_push {r : RingBuffer T Size} (h : Valid r) (data : T) :
    ∃ r', r.put false data = .ok r' ∧ Valid r' ∧
      r'.contents = Fifo.push Size r.contents data := by
  rw [Fifo.push, length_contents]
  by_cases hroom : r.size < Size
  · rw [if_pos hroom]
    exact h.put hroom false data
  · have hfull : r.full = true := h.full_iff.mpr (h.size_le.antisymm (Nat.le_of_not_lt hroom))
    rw [if_neg hroom, ← List.drop_one]
    exact h.put_overwrite hfull data

theorem Valid.putEach {r : RingBuffer T Size} (h : Valid r) (src : List T) :
    ∃ r', r.putEach src = .ok r' ∧ Valid r' ∧ r'.contents = Fifo.pushAll Size r.contents src := by
  induction src generalizing r with
  | nil => exact ⟨r, rfl, h, rfl⟩
  | cons data src ih =>
      obtain ⟨r', hput, hvalid, hcontents⟩ := h.put_push data
      obtain ⟨r'', hrest, hvalid', hcontents'⟩ := ih hvalid
      refine ⟨r'', ?_, hvalid', ?_⟩
      · rw [RingBuffer.putEach, hput]
        exact hrest
      · rw [hcontents', hcontents]
        rfl

theorem Valid.bulkPut {r : RingBuffer T Size} (h : Valid r) (src : List T) : r.BulkPut src := by
  obtain ⟨r', hput, hvalid, hcontents⟩ := h.putSpan_pushAll src
  obtain ⟨r'', heach, -, hcontents'⟩ := h.putEach src
  exact ⟨r', r'', hput, heach, hcontents.trans hcontents'.symm, hvalid⟩

/-! ## Gets -/

theorem Valid.getEach {r : RingBuffer T Size} (h : Valid r) {n : ℕ} (hn : n ≤ r.size) :
    ∃ r', r.getEach n = .ok (r.contents.take n, r') ∧ r'.contents = r.contents.drop n := by
  induction n generalizing r with
  | zero => exact ⟨r, by rw [List.take_zero]; rfl, rfl⟩
  | succ n ih =>
      rcases h.get with ⟨-, hempty⟩ | ⟨data, r', hget, hvalid, hcontents⟩
      · rw [← length_contents, hempty] at hn
        exact absurd hn (Nat.not_succ_le_zero n)
      · have hsize : n ≤ r'.size := by
          rw [← length_contents, hcontents, List.length_cons, length_contents] at hn
          exact Nat.le_of_succ_le_succ hn
        obtain ⟨r'', heach, hrest⟩ := ih hvalid hsize
        refine ⟨r'', ?_, by rw [hrest, hcontents, List.drop_succ_cons]⟩
        simp only [RingBuffer.getEach, hget, heach, hcontents, bind, Except.bind, pure, Except.pure,
          List.take_succ_cons, Option.toList_some, List.singleton_append]

theorem copyOut_window (buffer : Fin Size → T) {first last : ℕ} (h : first ≤ last)
    (hlast : last ≤ Size) :
    copyOut buffer first last = .ok (Ring.window (cell buffer) first (last - first)) := by
  let copied := List.ofFn fun i : Fin (last - first) => buffer ⟨first + i, by omega⟩
  have hreads : ∀ i (hi : i < copied.length), cell buffer (first + i) = copied[i] := by
    intro i hi
    have hlt : i < last - first := by rwa [List.length_ofFn] at hi
    rw [cell_of_lt buffer (show first + i < Size by omega), List.getElem_ofFn]
  have hwindow := Ring.window_eq_of_reads copied hreads
  rw [List.length_ofFn] at hwindow
  rw [copyOut, dif_pos ⟨h, hlast⟩, hwindow]

theorem Valid.contents_take {r : RingBuffer T Size} {n : ℕ} (hn : n ≤ r.size) :
    r.contents.take n = Ring.window (cell r.buffer) r.tail n := by
  rw [contents, ← Nat.add_sub_cancel' hn, Ring.window_add, List.take_left' Ring.length_window]

omit [NeZero Size] in
theorem dropped_eq {r : RingBuffer T Size} {n : ℕ} (hn : n ≠ 0) :
    r.dropped n = { r with tail := incrementBy Size r.tail n, full := false } := by
  simp [dropped, hn]

/-- Elements that go round the end of `buffer_` are taken in two parts. -/
theorem Valid.getSpan_round {r : RingBuffer T Size} (h : Valid r) {n : ℕ} (hn : 1 < n)
    (hsome : r.size ≠ 0) (hround : Size < r.tail + min r.size n) :
    r.getSpan n =
      .ok (r.contents.take (min r.size n), min r.size n, r.dropped (min r.size n)) := by
  have htail := h.tail
  have hsize := h.size_le
  have hempty : ¬ r.isEmpty = true := fun hempty => hsome (h.isEmpty_iff.mp hempty)
  have hright := copyOut_window r.buffer htail.le (Nat.le_refl Size)
  have hleft := copyOut_window r.buffer (Nat.zero_le (min r.size n - (Size - r.tail))) (by omega)
  have hparts : Ring.window (cell r.buffer) r.tail (Size - r.tail) ++
      Ring.window (cell r.buffer) 0 (min r.size n - (Size - r.tail) - 0) =
        r.contents.take (min r.size n) := by
    have hperiod : Ring.window (cell r.buffer) (0 + Size) (min r.size n - (Size - r.tail)) = _ :=
      Ring.window_period (cell_period r.buffer)
    rw [Valid.contents_take (Nat.min_le_left _ _), Nat.sub_zero, ← hperiod, Nat.zero_add]
    conv_rhs => rw [← Nat.add_sub_cancel' (show Size - r.tail ≤ min r.size n by omega),
      Ring.window_add, Nat.add_sub_cancel' htail.le]
  have hnext : incrementBy Size r.tail (min r.size n) = min r.size n - (Size - r.tail) := by
    rw [incrementBy, if_pos hround.le]
    omega
  rw [RingBuffer.getSpan, if_neg (by omega), if_neg (by omega), if_neg hempty]
  dsimp only
  rw [if_pos hround, hright, hleft, dropped_eq (by omega), hnext, ← hparts]
  rfl

omit [NeZero Size] in
/-- Other elements are copied from `tail_` on, but only up to the place `n`. -/
theorem Valid.getSpan_straight {r : RingBuffer T Size} (h : Valid r) {n : ℕ} (hn : 1 < n)
    (hsome : r.size ≠ 0) (hstraight : r.tail + min r.size n ≤ Size) :
    r.getSpan n = (copyOut r.buffer r.tail (min r.size n)).map fun written =>
      (written, min r.size n, r.dropped (min r.size n)) := by
  have hempty : ¬ r.isEmpty = true := fun hempty => hsome (h.isEmpty_iff.mp hempty)
  rw [RingBuffer.getSpan, if_neg (by omega), if_neg (by omega), if_neg hempty]
  dsimp only
  rw [if_neg hstraight.not_gt, dropped_eq (by omega)]
  rfl

/-- What single gets take of the elements, a bulk get takes at once. -/
theorem Valid.bulkGet_of_eq {r : RingBuffer T Size} (h : Valid r) {n : ℕ}
    (heq : r.getSpan n =
      .ok (r.contents.take (min r.size n), min r.size n, r.dropped (min r.size n))) :
    r.BulkGet n := by
  rw [Nat.min_comm] at heq
  obtain ⟨r'', heach, hrest⟩ := h.getEach (Nat.min_le_right n r.size)
  obtain ⟨hvalid, hcontents⟩ := h.dropped (Nat.min_le_right n r.size)
  exact ⟨_, _, r'', heq, heach, hcontents.trans hrest.symm, hvalid⟩

/-- A get of no element or one, or from an empty buffer. -/
theorem Valid.bulkGet_small {r : RingBuffer T Size} (h : Valid r) {n : ℕ}
    (hsmall : n ≤ 1 ∨ r.size = 0) : r.BulkGet n := by
  rcases Nat.eq_zero_or_pos n with rfl | hpos
  · exact ⟨[], r, r, by rw [Nat.zero_min]; rfl, by rw [Nat.zero_min]; rfl, rfl, h⟩
  · by_cases hone : n = 1
    · subst hone
      rcases h.get with ⟨hget, hempty⟩ | ⟨data, r', hget, hvalid, hcontents⟩
      · have hzero : r.size = 0 := by rw [← length_contents, hempty]; rfl
        refine ⟨[], r, r, ?_, by rw [hzero]; rfl, rfl, h⟩
        rw [RingBuffer.getSpan, if_neg (by decide), if_pos rfl, hget, hzero]
        rfl
      · have hcount : min 1 r.size = 1 := by
          rw [← length_contents, hcontents, List.length_cons]
          omega
        refine ⟨[data], r', r', ?_, ?_, rfl, hvalid⟩
        · rw [RingBuffer.getSpan, if_neg (by decide), if_pos rfl, hget, hcount]
          rfl
        · rw [hcount]
          simp only [RingBuffer.getEach, hget, bind, Except.bind, pure, Except.pure,
            Option.toList_some, List.append_nil]
    · have hzero : r.size = 0 := hsmall.resolve_left (by omega)
      refine ⟨[], r, r, ?_, by rw [hzero, Nat.min_zero]; rfl, rfl, h⟩
      rw [RingBuffer.getSpan, if_neg hpos.ne', if_neg hone, if_pos (h.isEmpty_iff.mpr hzero), hzero,
        Nat.min_zero]

/-- Where the bulk get is right. -/
def Unshifted (r : RingBuffer T Size) (n : ℕ) : Prop :=
  n ≤ 1 ∨ r.size = 0 ∨ r.tail = 0 ∨ Size < r.tail + min r.size n

theorem Valid.bulkGet_iff {r : RingBuffer T Size} (h : Valid r) (n : ℕ) :
    r.BulkGet n ↔ r.Unshifted n := by
  by_cases hsmall : n ≤ 1 ∨ r.size = 0
  · exact iff_of_true (h.bulkGet_small hsmall) (by rw [Unshifted]; tauto)
  rw [not_or, Nat.not_le] at hsmall
  obtain ⟨hn, hsome⟩ := hsmall
  have hsize := h.size_le
  by_cases hround : Size < r.tail + min r.size n
  · exact iff_of_true (h.bulkGet_of_eq (h.getSpan_round hn hsome hround))
      (Or.inr (Or.inr (Or.inr hround)))
  have hstraight := h.getSpan_straight hn hsome (Nat.le_of_not_lt hround)
  by_cases hzero : r.tail = 0
  · refine iff_of_true (h.bulkGet_of_eq ?_) (Or.inr (Or.inr (Or.inl hzero)))
    rw [hstraight, hzero, copyOut_window r.buffer (Nat.zero_le _) (by omega),
      Valid.contents_take (Nat.min_le_left _ _), hzero]
    rfl
  · -- As many elements are missing as `tail_` is places from the start.
    refine iff_of_false ?_ (by rw [Unshifted]; omega)
    rintro ⟨values, r', r'', hspan, heach, -, -⟩
    obtain ⟨_, heach', -⟩ := h.getEach (Nat.min_le_right n r.size)
    have hvalues : values.length = min n r.size := by
      rw [heach'] at heach
      cases heach
      rw [List.length_take, length_contents]
      omega
    rw [hstraight] at hspan
    by_cases hrange : r.tail ≤ min r.size n
    · rw [copyOut_window r.buffer hrange (by omega)] at hspan
      obtain ⟨rfl, -⟩ := Prod.mk.inj (Except.ok.inj hspan)
      rw [Ring.length_window] at hvalues
      omega
    · rw [copyOut, dif_neg fun hboth => hrange hboth.1] at hspan
      cases hspan

/-! ## Every reachable state -/

omit [NeZero Size] in
theorem put_of_abort {r r' : RingBuffer T Size} {data : T} (h : r.put true data = .ok r') :
    r.put false data = .ok r' := by
  simp only [put, overflow, bind, Except.bind, pure, Except.pure] at h ⊢
  split at h
  · cases h
  · split at h
    · cases h
    · split at h
      · cases h
      · next hfull =>
          rw [if_neg hfull]
          exact h

omit [NeZero Size] in
theorem putSpan_of_abort {r r' : RingBuffer T Size} {src : List T}
    (h : r.putSpan true src = .ok r') : r.putSpan false src = .ok r' := by
  match src with
  | [] => exact h
  | [data] => exact put_of_abort h
  | a :: b :: rest =>
      simp only [putSpan, putMany, overflow, bind, Except.bind, pure, Except.pure] at h ⊢
      split at h
      · cases h
      · next hlen =>
          rw [if_neg hlen]
          split at h
          · cases h
          · next hcopy =>
              split at h
              · cases h
              · next hadjust =>
                  simp only [hadjust, if_false]
                  exact h

theorem Valid.of_getSpan {r r' : RingBuffer T Size} (h : Valid r) {n count : ℕ}
    {values : List T} (hget : r.getSpan n = .ok (values, count, r')) : Valid r' := by
  by_cases hsmall : n ≤ 1 ∨ r.size = 0
  · obtain ⟨_, _, _, heq, -, -, hvalid⟩ := h.bulkGet_small hsmall
    cases heq.symm.trans hget
    exact hvalid
  rw [not_or, Nat.not_le] at hsmall
  obtain ⟨hvalid, -⟩ := h.dropped (Nat.min_le_left r.size n)
  by_cases hround : Size < r.tail + min r.size n
  · cases (h.getSpan_round hsmall.1 hsmall.2 hround).symm.trans hget
    exact hvalid
  · have heq := h.getSpan_straight hsmall.1 hsmall.2 (Nat.le_of_not_lt hround)
    cases hcopy : copyOut r.buffer r.tail (min r.size n) with
    | error fault =>
        rw [hcopy] at heq
        cases heq.symm.trans hget
    | ok written =>
        rw [hcopy] at heq
        cases heq.symm.trans hget
        exact hvalid

theorem toOption_eq_some {α : Type} {e : Except Fault α} {a : α} (h : e.toOption = some a) :
    e = .ok a := by
  cases e with
  | error fault => cases h
  | ok b => cases h; rfl

theorem Valid.step {r r' : RingBuffer T Size} (h : Valid r) {abortOnOverflow : Bool} {op : Op T}
    (hstep : r.step abortOnOverflow op = some r') : Valid r' := by
  cases op with
  | put data =>
      have hput : r.put false data = .ok r' := by
        cases abortOnOverflow with
        | false => exact toOption_eq_some hstep
        | true => exact put_of_abort (toOption_eq_some hstep)
      obtain ⟨_, heq, hvalid, -⟩ := h.put_push data
      cases heq.symm.trans hput
      exact hvalid
  | putSpan src =>
      have hput : r.putSpan false src = .ok r' := by
        cases abortOnOverflow with
        | false => exact toOption_eq_some hstep
        | true => exact putSpan_of_abort (toOption_eq_some hstep)
      obtain ⟨_, heq, hvalid, -⟩ := h.putSpan_pushAll src
      cases heq.symm.trans hput
      exact hvalid
  | get =>
      obtain ⟨⟨data, _⟩, hget, rfl⟩ := Option.map_eq_some_iff.mp hstep
      have hget := toOption_eq_some hget
      rcases h.get with ⟨heq, -⟩ | ⟨_, _, heq, hvalid, -⟩
      · cases heq.symm.trans hget
        exact h
      · cases heq.symm.trans hget
        exact hvalid
  | getSpan n =>
      obtain ⟨⟨values, count, _⟩, hget, rfl⟩ := Option.map_eq_some_iff.mp hstep
      exact h.of_getSpan (toOption_eq_some hget)

/-- In every state of every run of the ring buffer, and whatever the span, a bulk put leaves the
queue that single puts would leave. -/
theorem bulkPut_run (buffer : Fin Size → T) (ops : List (Op T)) :
    Transition.Always (step false) (fun r => ∀ src, BulkPut r src) (empty buffer) ops :=
  .of_inductive Valid (fun _ _ _ h hstep => h.step hstep) (fun _ h src => h.bulkPut src)
    (valid_empty buffer) ops

theorem bulkPut_run_overwriting : Transition.Always (step false) (fun r => ∀ src, BulkPut r src)
    (empty fun _ : Fin 2 => 0) [.put 1, .putSpan [2, 3, 4], .get] :=
  bulkPut_run _ _

/-- In every state of every run of the ring buffer, a bulk get does what single gets would do
exactly where it asks for one element at most, there is none, they start with `buffer_`, or they
go round its end. -/
theorem bulkGet_run (abortOnOverflow : Bool) (buffer : Fin Size → T) (ops : List (Op T)) :
    Transition.Always (step abortOnOverflow) (fun r => ∀ n, BulkGet r n ↔ Unshifted r n)
      (empty buffer) ops :=
  .of_inductive Valid (fun _ _ _ h hstep => h.step hstep) (fun _ h n => h.bulkGet_iff n)
    (valid_empty buffer) ops

theorem bulkGet_run_one : Transition.Always (step true) (fun r => ∀ n, BulkGet r n ↔ Unshifted r n)
    (empty fun _ : Fin 4 => 0) [.put 1, .get, .putSpan [2, 3], .getSpan 2] :=
  bulkGet_run _ _ _

/-- Of two elements from the second place on, a bulk get writes one and says that it has two. -/
theorem bulkGet_shifted : ¬ ∀ (T : Type) (Size : ℕ) [NeZero Size] (abortOnOverflow : Bool)
    (buffer : Fin Size → T) (ops : List (Op T)),
    Transition.Always (step abortOnOverflow) (fun r => ∀ n, BulkGet r n) (empty buffer) ops := by
  intro h
  have hruns := h ℕ 4 false (fun _ => 0) [.put 1, .get, .put 2, .put 3]
  have hlast := (((hruns.2 _ rfl).2 _ rfl).2 _ rfl).2 _ rfl
  obtain ⟨values, r', r'', hspan, heach, -, -⟩ := hlast 2
  have hwritten : values = [2] := ((Prod.mk.inj (Except.ok.inj hspan)).1).symm
  have htaken : values = [2, 3] := ((Prod.mk.inj (Except.ok.inj heach)).1).symm
  cases hwritten.symm.trans htaken

end RingBuffer

end OpenIotSdk.SysIo
