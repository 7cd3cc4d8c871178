import OpenIotSdk.Library.Transition
import OpenIotSdk.Model.Netx.Receive

/-! # Delivery of received frames

The deferred command fetches one frame each time it finds the bit set. A frame stays behind
when its callback finds the bit set already, or when the command has cleared the bit and
then gets no buffer or no frame. -/

namespace OpenIotSdk.Netx.Receive

open Transition

structure Quiescent (s : State) : Prop where
  event : s.deferredEvent = false
  idle : s.pc = .idle
  requested : s.requested = false

/-- The frames whose callbacks were called have been fetched, in the order in which they came. -/
def AllFetched (s : State) : Prop := s.received ≤ s.fetched

def NoneStranded (s : State) : Prop := Quiescent s → AllFetched s

/-- The statements whose answer decides whether a frame is fetched. -/
def Pc.fetches : Pc → Bool
  | .alloc | .receive _ => true
  | _ => false

/-- A callback finds the bit clear, and a command that found it set gets its buffer and its
frame. -/
def Prompt (s : State) : Action → Prop
  | .receiveComplete => s.deferredEvent = false
  | .advance ok _ => s.pc.fetches = true → ok = true
  | .request | .process _ => True

instance (s : State) (a : Action) : Decidable (Prompt s a) :=
  match a with
  | .receiveComplete => inferInstanceAs (Decidable (_ = _))
  | .advance _ _ => inferInstanceAs (Decidable (_ → _))
  | .request | .process _ => isTrue trivial

/-! ## The frames left behind -/

/-- How many frames the command under way will fetch if it gets its answers. -/
def Pc.pending : Pc → ℕ
  | .test event => event.toNat
  | .alloc | .receive _ => 1
  | _ => 0

/-- The frames for which nothing is under way. -/
def State.stranded (s : State) : ℤ :=
  s.received - s.fetched - (s.deferredEvent.toNat + s.pc.pending)

/-- A callback leaves a frame behind if it finds the bit set. -/
theorem stranded_receiveComplete {s t : State} (hs : step s .receiveComplete = some t) :
    t.stranded = s.stranded + if Prompt s .receiveComplete then 0 else 1 := by
  cases hs
  by_cases h : s.deferredEvent = false
  · simp [State.stranded, Prompt, h]
    omega
  · simp [State.stranded, Prompt, Bool.not_eq_false _ ▸ h]
    omega

theorem stranded_process {s t : State} {again : Bool} (hs : step s (.process again) = some t) :
    t.stranded = s.stranded := by
  obtain ⟨⟨hpc, -⟩, hs⟩ := Option.ite_none_right_eq_some.mp hs
  cases hs
  simp [State.stranded, hpc, Pc.pending]

/-- A command leaves a frame behind if it gets no buffer or no frame. -/
theorem stranded_advance {s t : State} {ok : Bool} {packetType : BitVec 16}
    (hs : s.advance ok packetType = some t) :
    t.stranded = s.stranded + if s.pc.fetches = true → ok = true then 0 else 1 := by
  dsimp only [State.advance] at hs
  split at hs
  · cases hs
  · next event hpc =>
      cases hs
      cases event <;> simp [State.stranded, State.goto, hpc, Pc.pending, Pc.fetches]
  · next hpc =>
      cases hs
      cases ok
      · simp [State.stranded, State.fail, hpc, Pc.pending, Pc.fetches]
        omega
      · simp [State.stranded, State.goto, hpc, Pc.pending, Pc.fetches]
  · next buffer hpc =>
      cases hs
      cases ok
      · simp [State.stranded, State.fail, hpc, Pc.pending, Pc.fetches]
        omega
      · simp [State.stranded, State.goto, hpc, Pc.pending, Pc.fetches]
        omega
  · next buffer hpc =>
      cases hs
      simp [State.stranded, State.goto, hpc, Pc.pending, Pc.fetches]
  · next buffer hpc =>
      cases hs
      cases ok <;> simp [State.stranded, State.goto, State.fail, hpc, Pc.pending, Pc.fetches]
  · next buffer packet hpc =>
      cases hs
      cases ok <;> simp [State.stranded, State.goto, State.fail, hpc, Pc.pending, Pc.fetches]
  · next buffer packet copied hpc =>
      cases hs
      cases copied <;> simp [State.stranded, State.goto, hpc, Pc.pending, Pc.fetches]
  · next packet packetType hpc =>
      cases hs
      cases transferToNetx packetType <;>
        simp [State.stranded, State.goto, hpc, Pc.pending, Pc.fetches]
  · next packet hpc =>
      cases hs
      simp [State.stranded, State.goto, hpc, Pc.pending, Pc.fetches]

theorem stranded_step {s t : State} {a : Action} (hs : step s a = some t) :
    t.stranded = s.stranded + if Prompt s a then 0 else 1 := by
  cases a with
  | receiveComplete => exact stranded_receiveComplete hs
  | request =>
      obtain ⟨-, hs⟩ := Option.ite_none_right_eq_some.mp hs
      cases hs
      simp [State.stranded, Prompt]
  | process again =>
      rw [stranded_process hs]
      simp [Prompt]
  | advance ok packetType => exact stranded_advance hs

/-! ## Runs -/

theorem stranded_of_quiescent {s : State} (h : Quiescent s) :
    s.stranded = s.received - s.fetched := by
  simp [State.stranded, h.event, h.idle, Pc.pending]

theorem allFetched_iff {s : State} (h : Quiescent s) :
    AllFetched s ↔ s.stranded ≤ init.stranded := by
  rw [stranded_of_quiescent h]
  change _ ≤ _ ↔ _ - _ ≤ (0 : ℤ)
  omega

theorem noneStranded_of_prompt {acts : List Action} (h : Meets step Prompt init acts) :
    Always step NoneStranded init acts := by
  apply Always.of_invariant (fun s => s.stranded ≤ init.stranded) _ _ le_rfl h
  · intro s a t hle hok hs
    rw [stranded_step hs, if_pos hok, add_zero]
    exact hle
  · intro s hle hq
    exact (allFetched_iff hq).mpr hle

/-- In any interleaving of callbacks and commands, whatever the memory manager and the EMAC
answer: no frame is stranded in a run whose steps are all prompt, and a run that ends
quiescent has left a frame behind if and only if one of its steps was not. -/
theorem allFetched_iff_prompt (acts : List Action) :
    (Meets step Prompt init acts → Always step NoneStranded init acts) ∧
      ∀ t, run step init acts = some t → Quiescent t →
        (AllFetched t ↔ Meets step Prompt init acts) := by
  refine ⟨noneStranded_of_prompt, ?_⟩
  intro t ht hq
  rw [allFetched_iff hq]
  apply measure_le_iff_meets _ _ ht
  · intro s a u hs hok
    rw [stranded_step hs, if_pos hok, add_zero]
  · intro s a u hs hn
    rw [stranded_step hs, if_neg hn]
    omega

/-- A command that fetches a frame and passes it to the function for IP packets. -/
def fetching : List Action :=
  .process false :: List.replicate 7 (.advance true etherPacketTypeIp)

/-- A frame comes and is fetched. -/
theorem oneFrame_allFetched :
    Always step NoneStranded init (.receiveComplete :: .request :: fetching) :=
  (allFetched_iff_prompt _).1 (by decide)

/-- Two frames come before the IP thread runs, and it fetches one. -/
def burst : List Action :=
  [.receiveComplete, .request, .receiveComplete, .request] ++ fetching

theorem burst_stranded :
    ¬ ∀ acts s, run step init acts = some s → NoneStranded s := by
  intro h
  have hall : 2 ≤ 1 := h burst _ rfl ⟨rfl, rfl, rfl⟩
  exact absurd hall (by decide)

end OpenIotSdk.Netx.Receive
