import OpenIotSdk.Library.Fifo
import OpenIotSdk.Library.Ring
import OpenIotSdk.Model.Pigweed.RingBuffer
import Mathlib.Data.Fin.Basic
import Mathlib.Data.List.GetD

/-! # The ring buffer as a queue

`contents` lists the stored elements, oldest first. A put that has room appends, a get
takes the first element, and neither leaves `buffer_` nor lets an assertion fail. -/

namespace OpenIotSdk.SysIo

namespace RingBuffer

variable {T : Type} {Size : ℕ}

/-- The invariant of the ring buffer. -/
structure Valid (r : RingBuffer T Size) : Prop where
  head : r.head < Size
  tail : r.tail < Size
  full : r.full = true → r.head = r.tail

/-! ## Sizes -/

theorem Valid.size_le {r : RingBuffer T Size} (h : Valid r) : r.size ≤ Size := by
  have := h.head
  dsimp only [size]
  split_ifs <;> omega

theorem Valid.full_iff {r : RingBuffer T Size} (h : Valid r) :
    r.full = true ↔ r.size = Size := by
  have := h.head
  have := h.tail
  dsimp only [size]
  split_ifs with hfull <;> simp [hfull] <;> omega

theorem Valid.isEmpty_iff {r : RingBuffer T Size} (h : Valid r) :
    r.isEmpty = true ↔ r.size = 0 := by
  have := h.head
  have := h.tail
  simp only [isEmpty, size, Bool.and_eq_true, beq_iff_eq, Bool.not_eq_true']
  split_ifs with hfull <;> simp [hfull] <;> omega

theorem Valid.window_end {r : RingBuffer T Size} (h : Valid r) :
    r.tail + r.size = r.head ∨ r.tail + r.size = r.head + Size := by
  have := h.head
  have := h.tail
  dsimp only [size]
  split_ifs with hfull
  · have := h.full hfull
    omega
  · omega
  · omega

theorem Valid.size_eq {r : RingBuffer T Size} (h : Valid r) {n : ℕ}
    (hfull : r.full = true ↔ n = Size) (hn : n ≤ Size)
    (hend : r.tail + n = r.head ∨ r.tail + n = r.head + Size) : r.size = n := by
  have := h.head
  have := h.tail
  dsimp only [size]
  split_ifs with hx
  · exact (hfull.mp hx).symm
  · have : n ≠ Size := fun hn => hx (hfull.mpr hn)
    omega
  · have : n ≠ Size := fun hn => hx (hfull.mpr hn)
    omega

/-! ## The stored elements -/

variable [NeZero Size]

/-- The element that `buffer_` has for an index that runs on past the end. -/
def cell (buffer : Fin Size → T) (i : ℕ) : T := buffer (Fin.ofNat Size i)

/-- The stored elements, oldest first. -/
def contents (r : RingBuffer T Size) : List T := Ring.window (cell r.buffer) r.tail r.size

theorem cell_period (buffer : Fin Size → T) (i : ℕ) :
    cell buffer (i + Size) = cell buffer i := by
  simp [cell, Fin.ofNat]

theorem cell_of_lt (buffer : Fin Size → T) {i : ℕ} (h : i < Size) :
    cell buffer i = buffer ⟨i, h⟩ := by
  simp [cell, Fin.ofNat, Nat.mod_eq_of_lt h]

@[simp] theorem length_contents (r : RingBuffer T Size) : r.contents.length = r.size :=
  Ring.length_window

theorem valid_empty (buffer : Fin Size → T) : Valid (empty buffer) :=
  ⟨Nat.pos_of_neZero Size, Nat.pos_of_neZero Size, nofun⟩

@[simp] theorem contents_empty (buffer : Fin Size → T) : (empty buffer).contents = [] := rfl

/-- Writing at the head into free elements appends. -/
theorem Valid.contents_append {r r' : RingBuffer T Size} {l : List T} (h : Valid r)
    (hw : Ring.Wrote Size (cell r.buffer) (cell r'.buffer) r.head l)
    (htail : r'.tail = r.tail) (hsize : r'.size = r.size + l.length)
    (hroom : r.size + l.length ≤ Size) : r'.contents = r.contents ++ l := by
  rw [contents, htail, hsize]
  exact hw.window (cell_period r.buffer) (cell_period r'.buffer) hroom h.window_end

/-! ## `std::copy` -/

theorem copy_wrote {src : List T} {offset : ℕ} (buffer : Fin Size → T)
    (h : offset + src.length ≤ Size) :
    ∃ buffer', copy src offset buffer = .ok buffer' ∧
      Ring.Wrote Size (cell buffer) (cell buffer') offset src := by
  refine ⟨_, if_pos h, ?_, ?_⟩
  · intro i hi
    rw [cell_of_lt _ (show offset + i < Size by omega), if_pos (Nat.le_add_right _ _),
      Nat.add_sub_cancel_left, List.getD_eq_getElem _ _ hi]
  · intro i hlen hi
    rcases Nat.lt_or_ge (offset + i) Size with hlt | hge
    · rw [cell_of_lt _ hlt, cell_of_lt _ hlt, if_pos (Nat.le_add_right _ _),
        Nat.add_sub_cancel_left, List.getD_eq_default _ _ hlen]
    · have hround : offset + i = offset + i - Size + Size := by omega
      rw [hround, cell_period, cell_period, cell_of_lt _ (show _ < Size by omega),
        cell_of_lt _ (show _ < Size by omega), if_neg (show ¬ offset ≤ _ by dsimp only; omega)]

/-- One copy is enough, or the second one goes on at the start of the buffer. -/
theorem Valid.copyIn {r : RingBuffer T Size} (h : Valid r) {src : List T}
    (hlen : src.length ≤ Size) :
    ∃ buffer, r.copyIn src = .ok (buffer, incrementBy Size r.head src.length) ∧
      Ring.Wrote Size (cell r.buffer) (cell buffer) r.head src := by
  have hhead := h.head
  unfold RingBuffer.copyIn
  rcases Nat.lt_or_ge Size (r.head + src.length) with hover | hfits
  · have htake : (src.take (Size - r.head)).length = Size - r.head := by
      rw [List.length_take]
      omega
    have hdrop : (src.drop (Size - r.head)).length = src.length - (Size - r.head) :=
      List.length_drop
    obtain ⟨right, hright, hwright⟩ :=
      copy_wrote r.buffer (show r.head + (src.take (Size - r.head)).length ≤ Size by omega)
    obtain ⟨both, hboth, hwboth⟩ :=
      copy_wrote right (show 0 + (src.drop (Size - r.head)).length ≤ Size by omega)
    refine ⟨both, ?_, ?_⟩
    · rw [if_pos hover, incrementBy, if_pos (by omega)]
      simp only [hright, hboth, bind, Except.bind, pure, Except.pure]
      rw [if_neg (by omega),
        show src.length - (Size - r.head) = r.head + src.length - Size by omega]
    · have hround := hwboth.round (cell_period right) (cell_period both)
      rw [show 0 + Size = r.head + (src.take (Size - r.head)).length by omega] at hround
      have happend := hwright.append hround (cell_period right) (cell_period both) (by omega)
      rwa [List.take_append_drop] at happend
  · obtain ⟨buffer, hbuffer, hw⟩ := copy_wrote r.buffer hfits
    refine ⟨buffer, ?_, hw⟩
    rw [if_neg (by omega)]
    simp only [List.take_length, hbuffer, bind, Except.bind, pure, Except.pure, if_true]

/-! ## Operations -/

omit [NeZero Size] in
theorem increment_ok {val : ℕ} (h : val < Size) :
    increment Size val = .ok (incrementBy Size val 1) := by
  dsimp only [increment, incrementBy]
  rw [if_neg (by omega)]
  exact congrArg Except.ok (by split_ifs <;> omega)

def appended (r : RingBuffer T Size) (buffer : Fin Size → T) (l : List T) : RingBuffer T Size :=
  { buffer := buffer
    head := incrementBy Size r.head l.length
    tail := r.tail
    full := decide (r.size + l.length = Size) }

theorem Valid.appended {r : RingBuffer T Size} (h : Valid r) {buffer : Fin Size → T}
    {l : List T} (hw : Ring.Wrote Size (cell r.buffer) (cell buffer) r.head l)
    (hl : l ≠ []) (hroom : r.size + l.length ≤ Size) :
    Valid (r.appended buffer l) ∧ (r.appended buffer l).contents = r.contents ++ l := by
  have hhead := h.head
  have htail := h.tail
  have hpos : 0 < l.length := List.length_pos_of_ne_nil hl
  have hend : r.tail + (r.size + l.length) = (r.appended buffer l).head ∨
      r.tail + (r.size + l.length) = (r.appended buffer l).head + Size := by
    have := h.window_end
    simp only [RingBuffer.appended, incrementBy]
    split_ifs <;> omega
  have hlt : (r.appended buffer l).head < Size := by
    simp only [RingBuffer.appended, incrementBy]
    split_ifs <;> omega
  have hvalid : Valid (r.appended buffer l) := by
    refine ⟨hlt, htail, ?_⟩
    intro hfull
    have hsum : r.size + l.length = Size := of_decide_eq_true hfull
    change (r.appended buffer l).head = r.tail
    omega
  have hsize : (r.appended buffer l).size = r.size + l.length :=
    hvalid.size_eq decide_eq_true_iff hroom hend
  exact ⟨hvalid, h.contents_append hw rfl hsize hroom⟩

theorem Valid.put {r : RingBuffer T Size} (h : Valid r) (hroom : r.size < Size)
    (abortOnOverflow : Bool) (data : T) :
    ∃ r', r.put abortOnOverflow data = .ok r' ∧ Valid r' ∧
      r'.contents = r.contents ++ [data] := by
  have hhead := h.head
  have hfull : r.full = false := by
    rw [Bool.eq_false_iff, ne_eq, h.full_iff]
    omega
  obtain ⟨buffer, hbuffer, hw⟩ :=
    copy_wrote r.buffer (show r.head + [data].length ≤ Size from hhead)
  refine ⟨r.appended buffer [data], ?_, h.appended hw (List.cons_ne_nil _ _) hroom⟩
  have hmeets : incrementBy Size r.head 1 = r.tail ↔ r.size + 1 = Size := by
    have := h.window_end
    have := h.tail
    dsimp only [incrementBy]
    split_ifs <;> omega
  simp only [RingBuffer.put, hbuffer, increment_ok hhead, hfull, bind, Except.bind, pure,
    Except.pure, Bool.false_eq_true, if_false, RingBuffer.appended, List.length_singleton]
  split_ifs with hx
  · simp [hmeets.mp hx]
  · simp [mt hmeets.mpr hx]

theorem Valid.putMany {r : RingBuffer T Size} (h : Valid r) {src : List T} (hsrc : src ≠ [])
    (hroom : r.size + src.length ≤ Size) (abortOnOverflow : Bool) :
    (abortOnOverflow = true ∧ r.putMany abortOnOverflow src = .error .abort) ∨
      ∃ r', r.putMany abortOnOverflow src = .ok r' ∧ Valid r' ∧
        r'.contents = r.contents ++ src := by
  obtain ⟨buffer, hbuffer, hw⟩ := h.copyIn (show src.length ≤ Size by omega)
  have hpos : 0 < src.length := List.length_pos_of_ne_nil hsrc
  have hspec := h.appended hw hsrc hroom
  dsimp only [RingBuffer.putMany]
  rw [if_neg (by omega)]
  simp only [hbuffer, bind, Except.bind, pure, Except.pure]
  split
  · next hadjust =>
      have hsum : r.size + src.length = Size := by omega
      cases abortOnOverflow with
      | true => exact .inl ⟨rfl, rfl⟩
      | false =>
          refine .inr ⟨r.appended buffer src, ?_, hspec⟩
          have hmeets : incrementBy Size r.head src.length = r.tail :=
            hspec.1.full (decide_eq_true hsum)
          simp [RingBuffer.appended, overflow, hmeets, hsum]
  · next hadjust =>
      refine .inr ⟨r.appended buffer src, ?_, hspec⟩
      have hfull : r.full = false := by
        rw [Bool.eq_false_iff, ne_eq, h.full_iff]
        omega
      simp [RingBuffer.appended, hfull, show r.size + src.length ≠ Size by omega]

/-- A bulk put that has room. One that fills the buffer counts as an overflow. -/
theorem Valid.putSpan {r : RingBuffer T Size} (h : Valid r) {src : List T}
    (hroom : r.size + src.length ≤ Size) (abortOnOverflow : Bool) :
    (abortOnOverflow = true ∧ r.putSpan abortOnOverflow src = .error .abort) ∨
      ∃ r', r.putSpan abortOnOverflow src = .ok r' ∧ Valid r' ∧
        r'.contents = r.contents ++ src := by
  match src with
  | [] => exact .inr ⟨r, rfl, h, (List.append_nil _).symm⟩
  | [data] => exact .inr (h.put hroom abortOnOverflow data)
  | a :: b :: rest => exact h.putMany (List.cons_ne_nil _ _) hroom abortOnOverflow

theorem Valid.get {r : RingBuffer T Size} (h : Valid r) :
    r.get = .ok (none, r) ∧ r.contents = [] ∨
      ∃ data r', r.get = .ok (some data, r') ∧ Valid r' ∧ r.contents = data :: r'.contents := by
  have hhead := h.head
  have htail := h.tail
  dsimp only [RingBuffer.get]
  split_ifs with hempty
  · left
    rw [h.isEmpty_iff] at hempty
    exact ⟨rfl, by rw [← List.length_eq_zero_iff, length_contents, hempty]⟩
  · right
    rw [h.isEmpty_iff] at hempty
    rw [increment_ok htail]
    have hend := h.window_end
    have hsize := h.size_le
    let r' : RingBuffer T Size :=
      { r with tail := incrementBy Size r.tail 1, full := false }
    have hvalid : Valid r' := by
      refine ⟨hhead, ?_, nofun⟩
      simp only [r', incrementBy]
      split_ifs <;> omega
    have hsize' : r'.size = r.size - 1 := by
      refine hvalid.size_eq ⟨nofun, fun hx => by omega⟩ (by omega) ?_
      simp only [r', incrementBy]
      split_ifs <;> omega
    refine ⟨_, r', rfl, hvalid, ?_⟩
    rw [contents, contents, hsize', show r.size = r.size - 1 + 1 by omega, Ring.window,
      cell_of_lt _ htail, Nat.add_sub_cancel]
    apply congrArg _
    simp only [r', incrementBy]
    split_ifs with hround
    · have hperiod : Ring.window (cell r.buffer) (0 + Size) (r.size - 1) = _ :=
        Ring.window_period (cell_period r.buffer)
      rw [show r.tail + 1 = Size by omega, Nat.sub_self, ← hperiod, Nat.zero_add]
    · rfl

/-! ## Overwriting -/

def dropped (r : RingBuffer T Size) (k : ℕ) : RingBuffer T Size :=
  { r with tail := incrementBy Size r.tail k, full := r.full && k == 0 }

theorem Valid.dropped {r : RingBuffer T Size} (h : Valid r) {k : ℕ} (hk : k ≤ r.size) :
    Valid (r.dropped k) ∧ (r.dropped k).contents = r.contents.drop k := by
  have hhead := h.head
  have htail := h.tail
  have hsize := h.size_le
  have hend := h.window_end
  have hlt : (r.dropped k).tail < Size := by
    simp only [RingBuffer.dropped, incrementBy]
    split_ifs <;> omega
  have hvalid : Valid (r.dropped k) := by
    refine ⟨hhead, hlt, fun hfull => ?_⟩
    obtain ⟨hr, hzero⟩ := Bool.and_eq_true_iff.mp hfull
    obtain rfl : k = 0 := beq_iff_eq.mp hzero
    simp only [RingBuffer.dropped, incrementBy, Nat.add_zero, if_neg htail.not_ge]
    exact h.full hr
  have hleft : (r.dropped k).size = r.size - k := by
    refine hvalid.size_eq ⟨fun hfull => ?_, fun hall => ?_⟩ (by omega) ?_
    · obtain ⟨hr, hzero⟩ := Bool.and_eq_true_iff.mp hfull
      have := h.full_iff.mp hr
      have : k = 0 := beq_iff_eq.mp hzero
      omega
    · have hzero : k = 0 := by omega
      have hr : r.full = true := h.full_iff.mpr (by omega)
      simp [RingBuffer.dropped, hr, hzero]
    · simp only [RingBuffer.dropped, incrementBy]
      split_ifs <;> omega
  refine ⟨hvalid, ?_⟩
  have hsplit : r.contents = Ring.window (cell r.buffer) r.tail k ++
      Ring.window (cell r.buffer) (r.tail + k) (r.size - k) := by
    rw [contents, ← Ring.window_add, Nat.add_sub_cancel' hk]
  rw [hsplit, List.drop_left' Ring.length_window, contents, hleft]
  simp only [RingBuffer.dropped, incrementBy]
  split_ifs with hround
  · have hperiod : Ring.window (cell r.buffer) (r.tail + k - Size + Size) (r.size - k) = _ :=
      Ring.window_period (cell_period r.buffer)
    rw [← hperiod, Nat.sub_add_cancel hround]
  · rfl

omit [NeZero Size] in
theorem Valid.appended_full {r : RingBuffer T Size} {buffer : Fin Size → T} {l : List T}
    (h : Valid (r.appended buffer l)) (hfull : r.size + l.length = Size) :
    r.appended buffer l =
      ⟨buffer, incrementBy Size r.head l.length, incrementBy Size r.head l.length, true⟩ := by
  have hmeets := h.full (decide_eq_true hfull)
  simp only [RingBuffer.appended, hfull, decide_true] at hmeets ⊢
  rw [hmeets]

/-- A bulk put that fills the buffer, after dropping as many elements as it has to. -/
theorem Valid.putMany_overwrite {r : RingBuffer T Size} (h : Valid r) {src : List T}
    (hsrc : src ≠ []) (hlen : src.length ≤ Size) (hover : Size ≤ r.size + src.length) :
    ∃ r', r.putMany false src = .ok r' ∧ Valid r' ∧
      r'.contents = (r.contents ++ src).drop (r.size + src.length - Size) := by
  have hsize := h.size_le
  obtain ⟨hvalid, hcontents⟩ := h.dropped (show r.size + src.length - Size ≤ r.size by omega)
  have hleft : (r.dropped (r.size + src.length - Size)).size + src.length = Size := by
    have hcount := congrArg List.length hcontents
    simp only [length_contents, List.length_drop] at hcount
    omega
  obtain ⟨buffer, hbuffer, hw⟩ := h.copyIn hlen
  obtain ⟨hvalid', hcontents'⟩ := hvalid.appended hw hsrc hleft.le
  refine ⟨(r.dropped (r.size + src.length - Size)).appended buffer src, ?_, hvalid', ?_⟩
  · rw [hvalid'.appended_full hleft]
    simp only [RingBuffer.putMany, if_neg hlen.not_gt, hbuffer, overflow, bind, Except.bind, pure,
      Except.pure, if_pos (show Size - r.size ≤ src.length by omega), Bool.false_eq_true, if_false]
    rfl
  · rw [hcontents', hcontents, List.drop_append_of_le_length]
    rw [length_contents]
    omega

/-- A put into a full buffer overwrites the oldest element. -/
theorem Valid.put_overwrite {r : RingBuffer T Size} (h : Valid r) (hfull : r.full = true)
    (data : T) :
    ∃ r', r.put false data = .ok r' ∧ Valid r' ∧ r'.contents = r.contents.drop 1 ++ [data] := by
  have hhead := h.head
  have hsize := h.full_iff.mp hfull
  obtain ⟨hvalid, hcontents⟩ := h.dropped (show 1 ≤ r.size by omega)
  have hleft : (r.dropped 1).size + [data].length = Size := by
    have hcount := congrArg List.length hcontents
    simp only [length_contents, List.length_drop] at hcount
    rw [List.length_singleton]
    omega
  obtain ⟨buffer, hbuffer, hw⟩ :=
    copy_wrote r.buffer (show r.head + [data].length ≤ Size from hhead)
  obtain ⟨hvalid', hcontents'⟩ := hvalid.appended hw (List.cons_ne_nil _ _) hleft.le
  refine ⟨(r.dropped 1).appended buffer [data], ?_, hvalid', by rw [hcontents', hcontents]⟩
  rw [hvalid'.appended_full hleft]
  simp only [RingBuffer.put, hbuffer, increment_ok hhead, hfull, overflow, bind, Except.bind, pure,
    Except.pure, Bool.false_eq_true, if_false, if_true]
  rfl

/-- A bulk put of more than the buffer holds keeps its last elements. -/
theorem putMany_long (r : RingBuffer T Size) {src : List T} (hlen : Size < src.length) :
    ∃ r', r.putMany false src = .ok r' ∧ Valid r' ∧
      r'.contents = src.drop (src.length - Size) := by
  have hcount : (src.drop (src.length - Size)).length = Size := by
    rw [List.length_drop]
    omega
  obtain ⟨buffer, hbuffer, hw⟩ := copy_wrote r.buffer
    (show 0 + (src.drop (src.length - Size)).length ≤ Size by omega)
  refine ⟨⟨buffer, 0, 0, true⟩, ?_, ⟨Nat.pos_of_neZero Size, Nat.pos_of_neZero Size, fun _ => rfl⟩,
    ?_⟩
  · simp only [putMany, if_pos hlen, hbuffer, overflow, bind, Except.bind, pure, Except.pure,
      Bool.false_eq_true, if_false]
  · have hwindow := Ring.window_eq_of_reads _ hw.new
    rw [hcount] at hwindow
    exact hwindow

/-- Whatever is put, the newest elements stay, as many as fit. -/
theorem Valid.putSpan_newest {r : RingBuffer T Size} (h : Valid r) (src : List T) :
    ∃ r', r.putSpan false src = .ok r' ∧ Valid r' ∧
      r'.contents = (r.contents ++ src).drop (r.size + src.length - Size) := by
  have hsize := h.size_le
  have hpos := Nat.pos_of_neZero Size
  rcases Nat.lt_or_ge Size (r.size + src.length) with hover | hroom
  · match src with
    | [] => exact absurd hsize hover.not_ge
    | [data] =>
        rw [List.length_singleton] at hover ⊢
        have hfull : r.full = true := h.full_iff.mpr (by omega)
        rw [show r.size + 1 - Size = 1 by omega, List.drop_append_of_le_length]
        · exact h.put_overwrite hfull data
        · rw [length_contents]
          omega
    | a :: b :: rest =>
        rcases Nat.lt_or_ge Size (a :: b :: rest).length with hlong | hlen
        · rw [← length_contents, Nat.add_sub_assoc hlong.le, List.drop_length_add_append]
          exact r.putMany_long hlong
        · exact h.putMany_overwrite (List.cons_ne_nil _ _) hlen hover.le
  · rw [Nat.sub_eq_zero_of_le hroom, List.drop_zero]
    rcases h.putSpan hroom false with ⟨habort, -⟩ | hput
    · cases habort
    · exact hput

/-- A bulk put pushes its elements one by one. -/
theorem Valid.putSpan_pushAll {r : RingBuffer T Size} (h : Valid r) (src : List T) :
    ∃ r', r.putSpan false src = .ok r' ∧ Valid r' ∧
      r'.contents = Fifo.pushAll Size r.contents src := by
  have hlen : r.contents.length ≤ Size := by
    rw [length_contents]
    exact h.size_le
  rw [Fifo.pushAll_eq_drop (Nat.pos_of_neZero Size) hlen, length_contents]
  exact h.putSpan_newest src

end RingBuffer

end OpenIotSdk.SysIo
