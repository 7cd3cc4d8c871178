import OpenIotSdk.Library.Monitor
import OpenIotSdk.Model.MemoryManager

/-! # The integrity of the buffers

An observer notes the bytes that `copy_to_buf` has stored in each buffer, and where `copy` has
carried them. -/

namespace OpenIotSdk.MemoryManager

open Transition

variable {Handle β : Type*}

/-! ## The specification -/

structure PrivMemoryBuf.Sound (b : PrivMemoryBuf) : Prop where
  length : b.length ≤ b.capacity
  payload : b.payload.Within b.block

def Sound (s : State Handle β) : Prop := ∀ buf b, s.bufs buf = some b → b.Sound

def Action.source : Action Handle β → Option Handle
  | .copy source _ => source
  | .copyFromBuf buf _ _ => buf
  | _ => none

def Action.destination : Action Handle β → Option Handle
  | .copy _ destination => destination
  | .copyToBuf _ buf => buf
  | .setPayloadLen buf _ => buf
  | _ => none

/-- What the operation is given is null or too large. -/
inductive Refused (s : State Handle β) : Action Handle β → Prop where
  | free : Refused s (.free none)
  | copySource (destination) : Refused s (.copy none destination)
  | copyDestination (source) : Refused s (.copy source none)
  | copyCapacity {source destination src dst} : s.bufs source = some src →
      s.bufs destination = some dst → dst.capacity < src.capacity →
      Refused s (.copy (some source) (some destination))
  | copyToBufPtr (buf) : Refused s (.copyToBuf none buf)
  | copyToBuf (ptr) : Refused s (.copyToBuf ptr none)
  | copyToBufSize {buf b bytes} : s.bufs buf = some b → b.capacity < bytes.length →
      Refused s (.copyToBuf (some bytes) (some buf))
  | copyFromBuf (ptr size) : Refused s (.copyFromBuf none ptr size)
  | copyFromBufPtr (buf size) : Refused s (.copyFromBuf buf false size)
  | setPayloadLen (size) : Refused s (.setPayloadLen none size)
  | setPayloadLenSize {buf b size} : s.bufs buf = some b → b.capacity < size →
      Refused s (.setPayloadLen (some buf) size)

/-- An operation reads and writes in the buffers that it is given, and does nothing if it
refuses. -/
structure Confined (s : State Handle β) (a : Action Handle β) (t : State Handle β) : Prop where
  reads : ∀ r ∈ t.reads, ∃ buf b, a.source = some buf ∧ s.bufs buf = some b ∧ r.Within b.payload
  writes : ∀ r ∈ t.writes,
    ∃ buf b, a.destination = some buf ∧ s.bufs buf = some b ∧ r.Within b.payload
  memory : ∀ x, (∀ r ∈ t.writes, ¬ r.Contains x) → t.memory x = s.memory x
  refused : Refused s a → t.memory = s.memory ∧ t.bufs = s.bufs

/-- The bytes of a buffer that are known. -/
abbrev Known (Handle β : Type*) := Handle → ℕ → Option β

/-- What is accepted has the length of what was given, and what is known is returned. -/
structure Returns (s : State Handle β) (known : Known Handle β) (a : Action Handle β)
    (t : State Handle β) : Prop where
  stored : ∀ bytes buf b, a = .copyToBuf (some bytes) (some buf) → s.bufs buf = some b →
    bytes.length ≤ b.capacity → t.result = bytes.length ∧
      ∃ b', t.bufs buf = some b' ∧ b'.length = bytes.length
  copied : ∀ source destination src dst, a = .copy (some source) (some destination) →
    s.bufs source = some src → s.bufs destination = some dst → src.capacity ≤ dst.capacity →
      ∃ dst', t.bufs destination = some dst' ∧ dst'.length = src.length
  returned : ∀ buf b size, a = .copyFromBuf (some buf) true size → s.bufs buf = some b →
    t.result = min size b.length ∧ t.output.length = t.result ∧
      ∀ i byte, i < t.result → known buf i = some byte → t.output[i]? = some byte

/-- The allocator gives out memory that is not in use, and the sizes do not overflow. -/
def Malloced (s : State Handle β) : Action Handle β → Prop
  | .allocFromHeap _ memory size align =>
      size + align < 2 ^ 32 ∧
        ∀ buf b, s.bufs buf = some b → (Region.mk memory (size + align)).Disjoint b.block
  | _ => True

section Refused

variable {s : State Handle β} {buf source destination : Handle} {b src dst : PrivMemoryBuf}

theorem Refused.copy_lt (h : Refused s (.copy (some source) (some destination)))
    (hsrc : s.bufs source = some src) (hdst : s.bufs destination = some dst) :
    dst.capacity < src.capacity := by
  cases h with
  | copyCapacity hsrc' hdst' hlt =>
      cases hsrc.symm.trans hsrc'
      cases hdst.symm.trans hdst'
      exact hlt

theorem Refused.copyToBuf_lt {bytes : List β} (h : Refused s (.copyToBuf (some bytes) (some buf)))
    (hb : s.bufs buf = some b) : b.capacity < bytes.length := by
  cases h with
  | copyToBufSize hb' hlt =>
      cases hb.symm.trans hb'
      exact hlt

theorem Refused.setPayloadLen_lt {size : ℕ} (h : Refused s (.setPayloadLen (some buf) size))
    (hb : s.bufs buf = some b) : b.capacity < size := by
  cases h with
  | setPayloadLenSize hb' hlt =>
      cases hb.symm.trans hb'
      exact hlt

end Refused

variable [DecidableEq Handle]

/-- Bytes become known where they are stored, and where they are carried. -/
def observe (s : State Handle β) (a : Action Handle β) (_ : State Handle β)
    (known : Known Handle β) : Known Handle β :=
  match a with
  | .allocFromHeap buf .. | .free (some buf) => Function.update known buf fun _ => none
  | .copy (some source) (some destination) =>
      match s.bufs source, s.bufs destination with
      | some src, some dst =>
          if dst.capacity < src.capacity then known
          else Function.update known destination fun i =>
            if i < src.length then known source i else known destination i
      | _, _ => known
  | .copyToBuf (some bytes) (some buf) =>
      match s.bufs buf with
      | some b =>
          if b.capacity < bytes.length then known
          else Function.update known buf fun i =>
            if i < bytes.length then bytes[i]? else known buf i
      | none => known
  | _ => known

/-! ## What an operation does -/

inductive Effect (s : State Handle β) : Action Handle β → State Handle β → Prop where
  | refused {a} : Refused s a → Effect s a s.start
  | alloc {buf memory size align b} : s.bufs buf = none →
      allocFromHeap memory size align = some b →
      Effect s (.allocFromHeap buf memory size align)
        { s.start with bufs := Function.update s.bufs buf (some b) }
  | free {buf b} : s.bufs buf = some b →
      Effect s (.free (some buf)) { s.start with bufs := Function.update s.bufs buf none }
  | copy {source destination src dst} : s.bufs source = some src →
      s.bufs destination = some dst → src.capacity ≤ dst.capacity →
      Effect s (.copy (some source) (some destination))
        ((s.start.memcpy dst.data src.data src.length).setLength destination dst src.length)
  | copyToBuf {bytes buf b} : s.bufs buf = some b → bytes.length ≤ b.capacity →
      Effect s (.copyToBuf (some bytes) (some buf))
        ({ s.start with
            memory := s.memory.store b.data bytes
            writes := [⟨b.data, bytes.length⟩]
            result := bytes.length }.setLength buf b bytes.length)
  | copyFromBuf {buf b} (size) : s.bufs buf = some b →
      Effect s (.copyFromBuf (some buf) true size) (s.copyFromBuf b size)
  | setPayloadLen {buf b size} : s.bufs buf = some b → size ≤ b.capacity →
      Effect s (.setPayloadLen (some buf) size) (s.start.setLength buf b size)

variable {s t : State Handle β} {a : Action Handle β}

omit [DecidableEq Handle] in
theorem withBuf_some {buf : Handle} {op : Handle → PrivMemoryBuf → Option (State Handle β)}
    (h : s.withBuf (some buf) op = some t) : ∃ b, s.bufs buf = some b ∧ op buf b = some t := by
  dsimp only [State.withBuf] at h
  split at h
  · cases h
  · next b hb => exact ⟨b, hb, h⟩

section Live

variable {buf source destination : Handle} {b src dst : PrivMemoryBuf}

theorem copy_effect (hsrc : s.bufs source = some src) (hdst : s.bufs destination = some dst) :
    Effect s (.copy (some source) (some destination)) (s.copy src destination dst) := by
  rw [State.copy]
  split
  · next hlt => exact .refused (.copyCapacity hsrc hdst hlt)
  · next hlt => exact .copy hsrc hdst (Nat.le_of_not_lt hlt)

theorem copyToBuf_effect (bytes : List β) (hb : s.bufs buf = some b) :
    Effect s (.copyToBuf (some bytes) (some buf)) (s.copyToBuf bytes buf b) := by
  rw [State.copyToBuf]
  split
  · next hlt => exact .refused (.copyToBufSize hb hlt)
  · next hlt => exact .copyToBuf hb (Nat.le_of_not_gt hlt)

theorem setPayloadLen_effect (size : ℕ) (hb : s.bufs buf = some b) :
    Effect s (.setPayloadLen (some buf) size) (s.setPayloadLen buf b size) := by
  rw [State.setPayloadLen]
  split
  · next hlt => exact .refused (.setPayloadLenSize hb hlt)
  · next hlt => exact .setPayloadLen hb (Nat.le_of_not_gt hlt)

end Live

theorem step_effect (h : step s a = some t) : Effect s a t := by
  cases a with
  | allocFromHeap buf memory size align =>
      dsimp only [step] at h
      split at h
      · next b hnone hb =>
          cases h
          exact .alloc hnone hb
      · cases h
  | free buf =>
      cases buf with
      | none =>
          cases h
          exact .refused .free
      | some buf =>
          dsimp only [step] at h
          obtain ⟨b, hb, h⟩ := withBuf_some h
          cases h
          exact .free hb
  | copy source destination =>
      cases source with
      | none =>
          cases h
          exact .refused (.copySource destination)
      | some source =>
          dsimp only [step] at h
          obtain ⟨src, hsrc, h⟩ := withBuf_some h
          cases destination with
          | none =>
              cases h
              exact .refused (.copyDestination (some source))
          | some destination =>
              obtain ⟨dst, hdst, h⟩ := withBuf_some h
              cases h
              exact copy_effect hsrc hdst
  | copyToBuf ptr buf =>
      cases ptr with
      | none =>
          cases h
          exact .refused (.copyToBufPtr buf)
      | some bytes =>
          cases buf with
          | none =>
              cases h
              exact .refused (.copyToBuf (some bytes))
          | some buf =>
              dsimp only [step] at h
              obtain ⟨b, hb, h⟩ := withBuf_some h
              cases h
              exact copyToBuf_effect bytes hb
  | copyFromBuf buf ptr size =>
      cases ptr with
      | false =>
          cases h
          exact .refused (.copyFromBufPtr buf size)
      | true =>
          cases buf with
          | none =>
              cases h
              exact .refused (.copyFromBuf true size)
          | some buf =>
              dsimp only [step] at h
              rw [if_pos rfl] at h
              obtain ⟨b, hb, h⟩ := withBuf_some h
              cases h
              exact .copyFromBuf size hb
  | setPayloadLen buf size =>
      cases buf with
      | none =>
          cases h
          exact .refused (.setPayloadLen size)
      | some buf =>
          dsimp only [step] at h
          obtain ⟨b, hb, h⟩ := withBuf_some h
          cases h
          exact setPayloadLen_effect size hb

/-! ## A new buffer -/

section Filled

variable {u : State Handle β} {buf : Handle} {address size align : ℕ} {bytes : List β}

theorem alloc_spec (h : step s (.allocFromHeap buf address size align) = some t) :
    t.memory = s.memory ∧ ∃ b, t.bufs buf = some b ∧ b.capacity = size % 2 ^ 32 := by
  cases step_effect h with
  | refused hrefused => cases hrefused
  | alloc hnone hb =>
      obtain ⟨-, hb⟩ := Option.ite_none_left_eq_some.mp hb
      cases hb
      exact ⟨rfl, _, Function.update_self .., rfl⟩

theorem filled (halloc : step s (.allocFromHeap buf address size align) = some t)
    (hcopy : step t (.copyToBuf (some bytes) (some buf)) = some u)
    (hfits : bytes.length ≤ size % 2 ^ 32) :
    u.result = bytes.length ∧ ∃ b, u.bufs buf = some b ∧ b.length = bytes.length ∧
      u.memory.load b.data bytes.length = bytes := by
  obtain ⟨-, b, hb, hcapacity⟩ := alloc_spec halloc
  cases step_effect hcopy with
  | refused hrefused =>
      have hlt := hrefused.copyToBuf_lt hb
      omega
  | copyToBuf hb' hle =>
      exact ⟨rfl, _, Function.update_self .., rfl, Memory.load_store rfl⟩

theorem copyFromBuf_spec {b : PrivMemoryBuf}
    (h : step s (.copyFromBuf (some buf) true size) = some t) (hb : s.bufs buf = some b) :
    t.result = min size b.length ∧ t.bufs = s.bufs := by
  cases step_effect h with
  | refused hrefused => cases hrefused
  | copyFromBuf size hb' =>
      cases hb.symm.trans hb'
      refine ⟨?_, rfl⟩
      dsimp only [State.copyFromBuf]
      split <;> omega

theorem copyFromBuf_output {b : PrivMemoryBuf}
    (h : step s (.copyFromBuf (some buf) true size) = some t) (hb : s.bufs buf = some b) :
    t.output = s.memory.load b.data (min size b.length) := by
  cases step_effect h with
  | refused hrefused => cases hrefused
  | copyFromBuf size hb' =>
      cases hb.symm.trans hb'
      dsimp only [State.copyFromBuf]
      congr 1
      split <;> omega

end Filled

/-! ## The invariant -/

structure Inv (memory : Memory β) (bufs : Handle → Option PrivMemoryBuf) (known : Known Handle β) :
    Prop where
  sound : ∀ buf b, bufs buf = some b → b.Sound
  apart : ∀ buf buf' b b', buf ≠ buf' → bufs buf = some b → bufs buf' = some b' →
    b.block.Disjoint b'.block
  known : ∀ buf b i byte, bufs buf = some b → i < b.capacity → known buf i = some byte →
    memory (b.data + i) = byte

variable {memory : Memory β} {bufs : Handle → Option PrivMemoryBuf} {known : Known Handle β}
  {buf : Handle} {b : PrivMemoryBuf}

omit [DecidableEq Handle] in
theorem inv_init (memory : Memory β) : Inv memory (fun _ : Handle => none) fun _ _ => none :=
  ⟨nofun, nofun, nofun⟩

theorem alignedData_bounds (memory align : ℕ) :
    memory ≤ alignedData memory align ∧ alignedData memory align ≤ memory + align := by
  dsimp only [alignedData]
  split
  · omega
  · split
    · omega
    · split <;> omega

theorem allocFromHeap_sound {address size align : ℕ} (h : allocFromHeap address size align = some b)
    (hfits : size + align < 2 ^ 32) : b.Sound ∧ b.block = ⟨address, size + align⟩ := by
  obtain ⟨hsize, h⟩ := Option.ite_none_left_eq_some.mp h
  cases h
  obtain ⟨hlow, hhigh⟩ := alignedData_bounds address align
  have hblock : (size + align) % 2 ^ 32 = size + align := Nat.mod_eq_of_lt hfits
  have hcapacity : size % 2 ^ 32 = size := Nat.mod_eq_of_lt (by omega)
  refine ⟨⟨le_rfl, hlow, ?_⟩, ?_⟩
  · dsimp only [PrivMemoryBuf.payload, PrivMemoryBuf.block]
    omega
  · dsimp only [PrivMemoryBuf.block]
    rw [hblock]

theorem update_eq_some {o : Option PrivMemoryBuf} {buf' : Handle} {b' : PrivMemoryBuf} :
    Function.update bufs buf o buf' = some b' ↔
      buf' = buf ∧ o = some b' ∨ buf' ≠ buf ∧ bufs buf' = some b' := by
  rw [Function.update_apply]
  split
  · next heq => simp [heq]
  · next hne => simp [hne]

/-- A new buffer is apart from the others, and nothing of it is known. -/
theorem Inv.alloc (h : Inv memory bufs known) (hsound : b.Sound)
    (hfresh : ∀ buf' b', bufs buf' = some b' → b.block.Disjoint b'.block) :
    Inv memory (Function.update bufs buf (some b)) (Function.update known buf fun _ => none) where
  sound := by
    intro buf' b' hb'
    obtain ⟨-, hnew⟩ | ⟨-, hb'⟩ := update_eq_some.mp hb'
    · cases hnew
      exact hsound
    · exact h.sound buf' b' hb'
  apart := by
    intro buf' buf'' b' b'' hne hb' hb''
    obtain ⟨rfl, hnew⟩ | ⟨-, hb'⟩ := update_eq_some.mp hb'
    · obtain ⟨heq, -⟩ | ⟨-, hb''⟩ := update_eq_some.mp hb''
      · exact absurd heq.symm hne
      · cases hnew
        exact hfresh buf'' b'' hb''
    · obtain ⟨-, hnew⟩ | ⟨-, hb''⟩ := update_eq_some.mp hb''
      · cases hnew
        exact (hfresh buf' b' hb').symm
      · exact h.apart buf' buf'' b' b'' hne hb' hb''
  known := by
    intro buf' b' i byte hb' hi hbyte
    obtain ⟨rfl, -⟩ | ⟨hne, hb'⟩ := update_eq_some.mp hb'
    · rw [Function.update_self] at hbyte
      cases hbyte
    · rw [Function.update_of_ne hne] at hbyte
      exact h.known buf' b' i byte hb' hi hbyte

theorem Inv.free (h : Inv memory bufs known) (buf : Handle) :
    Inv memory (Function.update bufs buf none) (Function.update known buf fun _ => none) := by
  -- What is left was there before.
  have hleft : ∀ {buf' b'}, Function.update bufs buf none buf' = some b' →
      buf' ≠ buf ∧ bufs buf' = some b' := by
    intro buf' b' hb'
    obtain ⟨-, hnone⟩ | hleft := update_eq_some.mp hb'
    · cases hnone
    · exact hleft
  refine ⟨fun buf' b' hb' => h.sound buf' b' (hleft hb').2,
    fun buf' buf'' b' b'' hne hb' hb'' => h.apart buf' buf'' b' b'' hne (hleft hb').2 (hleft hb'').2,
    fun buf' b' i byte hb' hi hbyte => ?_⟩
  rw [Function.update_of_ne (hleft hb').1] at hbyte
  exact h.known buf' b' i byte (hleft hb').2 hi hbyte

theorem Inv.setLength (h : Inv memory bufs known) (hb : bufs buf = some b) {length : ℕ}
    (hlength : length ≤ b.capacity) :
    Inv memory (Function.update bufs buf (some { b with length := length })) known := by
  -- Each buffer has the place that it had.
  have hsame : ∀ {buf' b'},
      Function.update bufs buf (some { b with length := length }) buf' = some b' →
      ∃ b₀, bufs buf' = some b₀ ∧ b'.block = b₀.block ∧ b'.data = b₀.data ∧
        b'.capacity = b₀.capacity ∧ b'.Sound := by
    intro buf' b' hb'
    obtain ⟨rfl, hset⟩ | ⟨-, hb'⟩ := update_eq_some.mp hb'
    · cases hset
      exact ⟨b, hb, rfl, rfl, rfl, hlength, (h.sound buf' b hb).payload⟩
    · exact ⟨b', hb', rfl, rfl, rfl, h.sound buf' b' hb'⟩
  refine ⟨fun buf' b' hb' => ?_, fun buf' buf'' b' b'' hne hb' hb'' => ?_,
    fun buf' b' i byte hb' hi hbyte => ?_⟩
  · obtain ⟨-, -, -, -, -, hsound⟩ := hsame hb'
    exact hsound
  · obtain ⟨b₀, hb₀, hblock, -⟩ := hsame hb'
    obtain ⟨b₁, hb₁, hblock', -⟩ := hsame hb''
    rw [hblock, hblock']
    exact h.apart buf' buf'' b₀ b₁ hne hb₀ hb₁
  · obtain ⟨b₀, hb₀, -, hdata, hcapacity, -⟩ := hsame hb'
    rw [hdata]
    exact h.known buf' b₀ i byte hb₀ (hcapacity ▸ hi) hbyte

theorem PrivMemoryBuf.within_payload {size : ℕ} (h : size ≤ b.capacity) :
    (Region.mk b.data size).Within b.payload :=
  ⟨le_rfl, Nat.add_le_add_left h _⟩

/-- A buffer is written from its start on, and no other one changes. -/
theorem Inv.store (h : Inv memory bufs known) (hb : bufs buf = some b) {bytes : List β}
    (hfits : bytes.length ≤ b.capacity) {known' : ℕ → Option β}
    (hknown : ∀ i byte, known' i = some byte →
      bytes[i]? = some byte ∨ bytes.length ≤ i ∧ known buf i = some byte) :
    Inv (memory.store b.data bytes) bufs (Function.update known buf known') where
  sound := h.sound
  apart := h.apart
  known := by
    intro buf' b' i byte hb' hi hbyte
    by_cases hbuf : buf' = buf
    · rw [hbuf, Function.update_self] at hbyte
      rw [hbuf] at hb'
      cases hb.symm.trans hb'
      obtain hstored | ⟨hle, hbefore⟩ := hknown i byte hbyte
      · exact Memory.store_add hstored
      · rw [Memory.store_outside (fun hin => absurd hin.2 (by dsimp only; omega))]
        exact h.known buf b i byte hb hi hbefore
    · rw [Function.update_of_ne hbuf] at hbyte
      have hdisjoint : b'.payload.Disjoint ⟨b.data, bytes.length⟩ :=
        (h.apart buf' buf b' b hbuf hb' hb).mono (h.sound buf' b' hb').payload
          ((PrivMemoryBuf.within_payload hfits).trans (h.sound buf b hb).payload)
      have hin : b'.payload.Contains (b'.data + i) :=
        ⟨Nat.le_add_right _ i, Nat.add_lt_add_left hi _⟩
      rw [Memory.store_outside (hdisjoint.not_contains hin)]
      exact h.known buf' b' i byte hb' hi hbyte

theorem observe_refused (h : Refused s a) : observe s a t known = known := by
  cases h with
  | free => rfl
  | copySource destination => rfl
  | copyDestination source => cases source <;> rfl
  | copyCapacity hsrc hdst hlt =>
      dsimp only [observe]
      rw [hsrc, hdst]
      exact if_pos hlt
  | copyToBufPtr buf => rfl
  | copyToBuf ptr => cases ptr <;> rfl
  | copyToBufSize hb hlt =>
      dsimp only [observe]
      rw [hb]
      exact if_pos hlt
  | copyFromBuf ptr size => rfl
  | copyFromBufPtr buf size => rfl
  | setPayloadLen size => rfl
  | setPayloadLenSize hb hlt => rfl

/-! ## The steps -/

theorem observe_copy {source destination : Handle} {src dst : PrivMemoryBuf}
    (hsrc : s.bufs source = some src) (hdst : s.bufs destination = some dst)
    (hle : src.capacity ≤ dst.capacity) :
    observe s (.copy (some source) (some destination)) t known =
      Function.update known destination fun i =>
        if i < src.length then known source i else known destination i := by
  dsimp only [observe]
  rw [hsrc, hdst]
  exact if_neg (Nat.not_lt_of_le hle)

theorem observe_copyToBuf {bytes : List β} (hb : s.bufs buf = some b)
    (hle : bytes.length ≤ b.capacity) :
    observe s (.copyToBuf (some bytes) (some buf)) t known =
      Function.update known buf fun i => if i < bytes.length then bytes[i]? else known buf i := by
  dsimp only [observe]
  rw [hb]
  exact if_neg (Nat.not_lt_of_le hle)

theorem Effect.inv (h : Effect s a t) (hinv : Inv s.memory s.bufs known) (hok : Malloced s a) :
    Inv t.memory t.bufs (observe s a t known) := by
  cases h with
  | refused hrefused =>
      rw [observe_refused hrefused]
      exact hinv
  | alloc hnone hb =>
      obtain ⟨hfits, hfresh⟩ := hok
      obtain ⟨hsound, hblock⟩ := allocFromHeap_sound hb hfits
      rw [← hblock] at hfresh
      exact hinv.alloc hsound hfresh
  | free hb => exact hinv.free _
  | @copy source destination src dst hsrc hdst hle =>
      have hlength : src.length ≤ src.capacity := (hinv.sound source src hsrc).length
      have hfits : (s.memory.load src.data src.length).length ≤ dst.capacity := by
        rw [Memory.length_load]
        exact hlength.trans hle
      have hcarried : ∀ i byte,
          (if i < src.length then known source i else known destination i) = some byte →
          (s.memory.load src.data src.length)[i]? = some byte ∨
            (s.memory.load src.data src.length).length ≤ i ∧ known destination i = some byte := by
        intro i byte hbyte
        split at hbyte
        · next hi =>
            have hmemory := hinv.known source src i byte hsrc (hi.trans_le hlength) hbyte
            exact .inl ((Memory.getElem?_load hi).trans (congrArg some hmemory))
        · next hi =>
            rw [Memory.length_load]
            exact .inr ⟨Nat.le_of_not_lt hi, hbyte⟩
      rw [observe_copy hsrc hdst hle]
      exact (hinv.store hdst hfits hcarried).setLength hdst (hlength.trans hle)
  | @copyToBuf bytes buf b hb hle =>
      have hstored : ∀ i byte, (if i < bytes.length then bytes[i]? else known buf i) = some byte →
          bytes[i]? = some byte ∨ bytes.length ≤ i ∧ known buf i = some byte := by
        intro i byte hbyte
        split at hbyte
        · exact .inl hbyte
        · next hi => exact .inr ⟨Nat.le_of_not_lt hi, hbyte⟩
      rw [observe_copyToBuf hb hle]
      exact (hinv.store hb hle hstored).setLength hb hle
  | copyFromBuf size hb => exact hinv
  | setPayloadLen hb hle => exact hinv.setLength hb hle

theorem Effect.confined (h : Effect s a t) (hsound : Sound s) : Confined s a t := by
  cases h with
  | refused hrefused => exact ⟨nofun, nofun, fun _ _ => rfl, fun _ => ⟨rfl, rfl⟩⟩
  | alloc hnone hb => exact ⟨nofun, nofun, fun _ _ => rfl, nofun⟩
  | free hb => exact ⟨nofun, nofun, fun _ _ => rfl, nofun⟩
  | @copy source destination src dst hsrc hdst hle =>
      have hlength : src.length ≤ src.capacity := (hsound source src hsrc).length
      refine ⟨fun r hr => ?_, fun r hr => ?_, fun x hx => ?_, fun hrefused => ?_⟩
      · cases List.mem_singleton.mp hr
        exact ⟨source, src, rfl, hsrc, PrivMemoryBuf.within_payload hlength⟩
      · cases List.mem_singleton.mp hr
        exact ⟨destination, dst, rfl, hdst, PrivMemoryBuf.within_payload (hlength.trans hle)⟩
      · have hout : ¬ (Region.mk dst.data (s.memory.load src.data src.length).length).Contains x := by
          rw [Memory.length_load]
          exact hx _ (List.mem_singleton_self _)
        exact Memory.store_outside hout
      · exact absurd (hrefused.copy_lt hsrc hdst) (Nat.not_lt_of_le hle)
  | @copyToBuf bytes buf b hb hle =>
      refine ⟨nofun, fun r hr => ?_, fun x hx => ?_, fun hrefused => ?_⟩
      · cases List.mem_singleton.mp hr
        exact ⟨buf, b, rfl, hb, PrivMemoryBuf.within_payload hle⟩
      · exact Memory.store_outside (hx _ (List.mem_singleton_self _))
      · exact absurd (hrefused.copyToBuf_lt hb) (Nat.not_lt_of_le hle)
  | @copyFromBuf buf b size hb =>
      refine ⟨fun r hr => ?_, nofun, fun _ _ => rfl, nofun⟩
      cases List.mem_singleton.mp hr
      have hsize : (if size > b.length then b.length else size) ≤ b.length := by
        split <;> omega
      exact ⟨buf, b, rfl, hb, PrivMemoryBuf.within_payload (hsize.trans (hsound buf b hb).length)⟩
  | @setPayloadLen buf b size hb hle =>
      refine ⟨nofun, nofun, fun _ _ => rfl, fun hrefused => ?_⟩
      exact absurd (hrefused.setPayloadLen_lt hb) (Nat.not_lt_of_le hle)

theorem Effect.returns (h : Effect s a t) (hinv : Inv s.memory s.bufs known) :
    Returns s known a t where
  stored := by
    rintro bytes buf b rfl hb hle
    cases h with
    | refused hrefused => exact absurd (hrefused.copyToBuf_lt hb) (Nat.not_lt_of_le hle)
    | copyToBuf hb' hle' => exact ⟨rfl, _, Function.update_self .., rfl⟩
  copied := by
    rintro source destination src dst rfl hsrc hdst hle
    cases h with
    | refused hrefused => exact absurd (hrefused.copy_lt hsrc hdst) (Nat.not_lt_of_le hle)
    | copy hsrc' hdst' hle' =>
        cases hsrc.symm.trans hsrc'
        exact ⟨_, Function.update_self .., rfl⟩
  returned := by
    rintro buf b size rfl hb
    cases h with
    | refused hrefused => cases hrefused
    | copyFromBuf size hb' =>
        cases hb.symm.trans hb'
        have hsize : (if size > b.length then b.length else size) = min size b.length := by
          split <;> omega
        refine ⟨hsize, Memory.length_load, fun i byte hi hbyte => ?_⟩
        have hin : i < b.capacity :=
          (hi.trans_le (hsize.trans_le (Nat.min_le_right _ _))).trans_le (hinv.sound buf b hb).length
        exact (Memory.getElem?_load hi).trans (congrArg some (hinv.known buf b i byte hb hin hbyte))

/-! ## Whole runs -/

def Observed (s : State Handle β × Known Handle β) : Prop := Inv s.1.memory s.1.bufs s.2

theorem Observed.step {s t : State Handle β × Known Handle β} (h : Observed s)
    (hok : Malloced s.1 a) (ht : Monitor.step step observe s a = some t) :
    Observed t ∧ Confined s.1 a t.1 ∧ Returns s.1 s.2 a t.1 := by
  obtain ⟨u, hu, rfl⟩ := Monitor.step_eq_some.mp ht
  have heffect : Effect s.1 a u := step_effect hu
  exact ⟨heffect.inv h hok, heffect.confined h.sound, heffect.returns h⟩

/-- In every run, the buffers keep to their memory, and what is stored is what is returned. -/
theorem always_sound_and_returns (memory : Memory β) (acts : List (Action Handle β))
    (hm : Meets (Monitor.step step observe) (fun s a => Malloced s.1 a)
      (init memory, fun _ _ => none) acts) :
    Always (Monitor.step step observe) (fun s => Sound s.1) (init memory, fun _ _ => none) acts ∧
      Steps (Monitor.step step observe) (fun s a t => Confined s.1 a t.1 ∧ Returns s.1 s.2 a t.1)
        (init memory, fun _ _ => none) acts := by
  constructor
  · exact .of_invariant Observed (fun s a t h hok ht => (h.step hok ht).1) (fun s h => h.sound)
      (inv_init memory) hm
  · exact .of_invariant Observed (fun s a t h hok ht => (h.step hok ht).1)
      (fun s a t h hok ht => (h.step hok ht).2) (inv_init memory) hm

/-- Three bytes go to an aligned buffer, and from there through a larger one. -/
def copyThrough : List (Action Bool ℕ) :=
  [.allocFromHeap false 98 4 8, .allocFromHeap true 200 6 0,
    .copyToBuf (some [1, 2, 3]) (some false), .copy (some false) (some true),
    .setPayloadLen (some true) 5, .copyFromBuf (some true) true 3]

theorem copyThrough_returns :
    Always (Monitor.step step observe) (fun s => Sound s.1) (init fun _ => 0, fun _ _ => none)
        copyThrough ∧
      Steps (Monitor.step step observe) (fun s a t => Confined s.1 a t.1 ∧ Returns s.1 s.2 a t.1)
        (init fun _ => 0, fun _ _ => none) copyThrough ∧
      (run step (init fun _ => 0) copyThrough).map State.output = some [1, 2, 3] := by
  have hm : Meets (Monitor.step step observe) (fun s a => Malloced s.1 a)
      (init fun _ => 0, fun _ _ => none) copyThrough := by
    rintro _ ⟨⟩
    refine ⟨⟨by decide, nofun⟩, ?_⟩
    rintro _ ⟨⟩
    refine ⟨⟨by decide, ?_⟩, ?_⟩
    · intro buf b hb
      cases buf with
      | false =>
          cases hb
          exact .inr (by decide)
      | true => cases hb
    · rintro _ ⟨⟩
      refine ⟨trivial, ?_⟩
      rintro _ ⟨⟩
      refine ⟨trivial, ?_⟩
      rintro _ ⟨⟩
      refine ⟨trivial, ?_⟩
      rintro _ ⟨⟩
      exact ⟨trivial, trivial⟩
  obtain ⟨halways, hsteps⟩ := always_sound_and_returns (fun _ => 0) copyThrough hm
  exact ⟨halways, hsteps, by decide⟩

end OpenIotSdk.MemoryManager
