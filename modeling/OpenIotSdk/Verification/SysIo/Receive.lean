import OpenIotSdk.Library.Transition
import OpenIotSdk.Model.Pigweed.SysIoReceive
import OpenIotSdk.Verification.SysIo.RingBuffer

/-! # The receive pipeline

For the read functions, interrupts and ring buffer together are one bounded queue. -/

namespace OpenIotSdk.SysIo.Receive

open RingBuffer Transition

/-- What the receive side is for. -/
structure Queue (ι : Type*) where
  stored : List Byte -- the oldest first
  reading : ι → Bool
  results : List (ι × Option Byte)

variable {ι : Type*} {Size chunk : ℕ}

namespace Queue

def empty (ι : Type*) : Queue ι := ⟨[], fun _ => false, []⟩

variable [DecidableEq ι]

def take (q : Queue ι) (i : ι) : Queue ι :=
  { stored := q.stored.tail
    reading := Function.update q.reading i false
    results := q.results ++ [(i, q.stored.head?)] }

/-- Received bytes go through a queue of this capacity. -/
def step (capacity : ℕ) (q : Queue ι) (a : Action ι) : Option (Queue ι) :=
  match a with
  | .interrupt bytes => some { q with stored := Fifo.pushAll capacity q.stored bytes }
  | .tryReadByte i => if q.reading i then none else some (q.take i)
  | .readByte i =>
      if q.reading i then none
      else some { q with reading := Function.update q.reading i true }
  | .poll i =>
      if q.reading i then some (if q.stored = [] then q else q.take i) else none

end Queue

variable [NeZero Size]

namespace State

/-- The queue that a state stands for. -/
def queue (s : State ι Size) : Queue ι := ⟨s.buffer.contents, s.reading, s.results⟩

@[simp] theorem queue_reading (s : State ι Size) : s.queue.reading = s.reading := rfl

/-- The invariant of the receive side. -/
structure Sound (s : State ι Size) : Prop where
  valid : Valid s.buffer
  fault : s.fault = none

end State

theorem sound_init (buffer : Fin Size → Byte) : (init buffer : State ι Size).Sound :=
  ⟨valid_empty buffer, rfl⟩

theorem queue_init (buffer : Fin Size → Byte) :
    (init buffer : State ι Size).queue = .empty ι := rfl

/-! ## The interrupt -/

/-- However the bytes fall into chunks, they are pushed in order. -/
theorem serialIrqRxCb_pushAll {r : RingBuffer Byte Size} (h : Valid r) {buf : List Byte}
    (hbuf : buf.length < chunk) (bytes : List Byte) :
    ∃ r', serialIrqRxCb chunk false r buf bytes = .ok r' ∧ Valid r' ∧
      r'.contents = Fifo.pushAll Size r.contents (buf ++ bytes) := by
  induction bytes generalizing r buf with
  | nil =>
      rw [List.append_nil]
      exact Valid.putSpan_pushAll h buf
  | cons data bytes ih =>
      rw [serialIrqRxCb, if_neg hbuf.not_ge]
      split
      · next hfull =>
          obtain ⟨r', hput, hvalid, hcontents⟩ := Valid.putSpan_pushAll h (buf ++ [data])
          have hpos : ([] : List Byte).length < chunk := Nat.lt_of_le_of_lt (Nat.zero_le _) hbuf
          obtain ⟨r'', hrest, hvalid', hcontents'⟩ := ih hvalid hpos
          refine ⟨r'', ?_, hvalid', ?_⟩
          · rw [hput]
            exact hrest
          · rw [hcontents', hcontents, ← Fifo.pushAll_append, List.nil_append,
              List.append_assoc, List.singleton_append]
      · next hroom =>
          have hlen : (buf ++ [data]).length < chunk := by
            rw [List.length_append, List.length_singleton]
            omega
          obtain ⟨r', hrest, hvalid, hcontents⟩ := ih h hlen
          refine ⟨r', hrest, hvalid, ?_⟩
          rw [hcontents, List.append_assoc, List.singleton_append]

/-! ## The read functions -/

variable [DecidableEq ι]

theorem State.Sound.tryReadByte {s : State ι Size} (h : s.Sound) (i : ι) :
    (s.tryReadByte i).Sound ∧ (s.tryReadByte i).queue = s.queue.take i := by
  rcases h.valid.get with ⟨hget, hempty⟩ | ⟨data, buffer, hget, hvalid, hcontents⟩
  · simp only [State.tryReadByte, hget]
    refine ⟨⟨h.valid, h.fault⟩, ?_⟩
    simp [State.queue, State.ret, Queue.take, hempty]
  · simp only [State.tryReadByte, hget]
    refine ⟨⟨hvalid, h.fault⟩, ?_⟩
    simp [State.queue, State.ret, Queue.take, hcontents]

theorem State.Sound.readByte {s : State ι Size} (h : s.Sound) (i : ι) :
    (s.readByte i).Sound ∧
      (s.readByte i).queue = if s.queue.stored = [] then s.queue else s.queue.take i := by
  rcases h.valid.get with ⟨hget, hempty⟩ | ⟨data, buffer, hget, hvalid, hcontents⟩
  · rw [if_pos (show s.queue.stored = [] from hempty)]
    simp only [State.readByte, hget]
    exact ⟨h, trivial⟩
  · have hstored : s.queue.stored = data :: buffer.contents := hcontents
    rw [if_neg (by rw [hstored]; exact List.cons_ne_nil _ _)]
    simp only [State.readByte, hget]
    refine ⟨⟨hvalid, h.fault⟩, ?_⟩
    simp [State.queue, State.ret, Queue.take, hcontents]

/-! ## Runs -/

/-- A step of the code is the same step of the queue. -/
theorem State.Sound.step [NeZero chunk] {s : State ι Size} (h : s.Sound) (a : Action ι) :
    (∀ t, step chunk false s a = some t → t.Sound) ∧
      (step chunk false s a).map State.queue = s.queue.step Size a := by
  have hfault : ¬ s.fault.isSome = true := by simp [h.fault]
  dsimp only [Receive.step]
  rw [if_neg hfault]
  cases a with
  | interrupt bytes =>
      have hpos : ([] : List Byte).length < chunk := Nat.pos_of_neZero chunk
      obtain ⟨r, hr, hvalid, hcontents⟩ := serialIrqRxCb_pushAll h.valid hpos bytes
      simp only [hr, Option.map_some, Option.some.injEq]
      refine ⟨?_, ?_⟩
      · rintro t rfl
        exact ⟨hvalid, h.fault⟩
      · simp [Queue.step, State.queue, hcontents]
  | tryReadByte i =>
      obtain ⟨hsound, hqueue⟩ := h.tryReadByte i
      simp only [Queue.step, State.queue_reading]
      by_cases hi : s.reading i = true
      · simp [hi]
      · simp only [if_neg hi, Option.map_some, hqueue]
        refine ⟨?_, (if_neg hi).symm⟩
        rintro t ⟨⟩
        exact hsound
  | readByte i =>
      simp only [Queue.step, State.queue_reading]
      by_cases hi : s.reading i = true
      · simp [hi]
      · simp only [if_neg hi, Option.map_some]
        refine ⟨?_, (if_neg hi).symm⟩
        rintro t ⟨⟩
        exact ⟨h.valid, h.fault⟩
  | poll i =>
      obtain ⟨hsound, hqueue⟩ := h.readByte i
      simp only [Queue.step, State.queue_reading]
      by_cases hi : s.reading i = true
      · simp only [if_pos hi, Option.map_some, hqueue]
        refine ⟨?_, (if_pos hi).symm⟩
        rintro t ⟨⟩
        exact hsound
      · simp [hi]

/-- Whenever the interrupts come and whatever they bring, the read functions return what a
bounded queue of the received bytes gives them. -/
theorem receive_eq_queue [NeZero chunk] (buffer : Fin Size → Byte) (acts : List (Action ι)) :
    (run (step chunk false) (init buffer) acts).map State.queue =
      run (Queue.step Size) (.empty ι) acts := by
  rw [← queue_init buffer]
  apply run_map State.queue State.Sound
  · exact fun s a t h ht => (h.step a).1 t ht
  · exact fun s a h => (h.step a).2
  · exact sound_init buffer

/-- Five bytes in chunks of two overwrite the oldest two of a buffer of three. -/
theorem receive_eq_queue_burst :
    (run (step 2 false) (init fun _ : Fin 3 => 0#8)
        [.interrupt [1#8, 2#8, 3#8, 4#8, 5#8], .tryReadByte (), .readByte (), .poll ()]).map
        State.queue =
      run (Queue.step 3) (.empty Unit)
        [.interrupt [1#8, 2#8, 3#8, 4#8, 5#8], .tryReadByte (), .readByte (), .poll ()] :=
  receive_eq_queue (fun _ => 0#8) _

end OpenIotSdk.SysIo.Receive
