import OpenIotSdk.Model.Pigweed.Repeat

/-! # Waiting in chunks

`repeat_for_ticks` offers its callback chunks that fit in 32 bits, until all of the ticks are
consumed or the callback stops the loop. -/

namespace OpenIotSdk.CmsisRtosUtil

open Countdown

/-- A callback that stops the loop or reports between one tick and all that it has been offered. -/
structure TicksCallback (R σ : Type*) where
  call : BitVec 32 → R → σ → TicksCalled R σ
  reports : ∀ offered result s, 0 < offered.toNat → (call offered result s).continues = true →
    1 ≤ (call offered result s).ticksOut.toNat ∧
      (call offered result s).ticksOut.toNat ≤ offered.toNat

/-- A call of the callback, and what it has consumed unless it stops the loop. -/
structure Call where
  offered : BitVec 32
  consumed : Option (BitVec 32)

def Call.spent (call : Call) : ℤ := call.consumed.elim 0 fun ticks => ticks.toNat

/-- The callback, with the list of its calls in the state. -/
def logged {R σ : Type*} (call : BitVec 32 → R → σ → TicksCalled R σ) (offered : BitVec 32)
    (result : R) (s : σ × List Call) : TicksCalled R (σ × List Call) :=
  let c := call offered result s.1
  { c with state := (c.state, s.2 ++ [⟨offered, if c.continues then some c.ticksOut else none⟩]) }

/-- Each call is offered a chunk of the ticks that are outstanding. -/
def Offered : (outstanding : ℤ) → List Call → Prop
  | _, [] => True
  | outstanding, call :: calls =>
      1 ≤ call.offered.toNat ∧ call.offered.toNat ≤ 2 ^ 32 - 3 ∧
        call.offered.toNat ≤ outstanding ∧ Offered (outstanding - call.spent) calls

/-- What is to hold of the calls for so many ticks. -/
structure Chunked (ticks : ℤ) (calls : List Call) : Prop where
  offered : Offered ticks calls
  total : (∀ call ∈ calls, call.consumed.isSome = true) →
    (calls.map Call.spent).sum = max ticks 0
  idle : ticks ≤ 0 → calls = []

variable {ticks left : ℤ} {calls : List Call} {call : Call}

/-- A chunk is positive and fits in 32 bits. -/
theorem toNat_ticks32 (h : 0 < ticks) :
    ((ticks32 ticks).toNat : ℤ) = min ticks lessThanForever := by
  have hmax : lessThanForever = 4294967293 := rfl
  rw [ticks32, BitVec.toNat_ofInt]
  omega

theorem offered_append :
    Offered left (calls ++ [call]) ↔ Offered left calls ∧
      Offered (left - (calls.map Call.spent).sum) [call] := by
  induction calls generalizing left with
  | nil => simp [Offered]
  | cons first calls ih =>
      rw [List.cons_append, Offered, Offered, ih, List.map_cons, List.sum_cons, ← sub_sub,
        and_assoc, and_assoc, and_assoc]

theorem offered_ticks32 (h : 0 < left) (hoffered : call.offered = ticks32 left) :
    Offered left [call] := by
  have hmax : lessThanForever = 4294967293 := rfl
  have hticks := toNat_ticks32 h
  rw [Offered, hoffered]
  refine ⟨by omega, by omega, by omega, trivial⟩

/-! ## The loop -/

variable {σ : Type*} {round : ℤ → σ → Option (Round σ)} {log : σ → List Call} {s : σ}

/-- Each round is one more call. -/
def Logs (round : ℤ → σ → Option (Round σ)) (log : σ → List Call) : Prop :=
  ∀ left s, 0 < left → ∃ call t,
    round left s = some ⟨t, call.consumed.map fun ticks => (ticks.toNat : ℤ)⟩ ∧
    log t = log s ++ [call] ∧ call.offered = ticks32 left ∧
    ∀ consumed ∈ call.consumed, 1 ≤ consumed.toNat ∧ consumed.toNat ≤ call.offered.toNat

/-- The loop goes on with so many ticks left. -/
structure Going (ticks left : ℤ) (calls : List Call) : Prop where
  offered : Offered ticks calls
  spent : (calls.map Call.spent).sum + left = ticks
  started : calls = [] ∨ 0 < ticks ∧ 0 ≤ left

theorem Going.done (h : Going ticks left calls) (hleft : left ≤ 0) : Chunked ticks calls := by
  have hspent := h.spent
  refine ⟨h.offered, fun _ => ?_, fun hticks => ?_⟩
  · rcases h.started with rfl | ⟨hpos, hnonneg⟩
    · simp only [List.map_nil, List.sum_nil] at hspent ⊢
      omega
    · omega
  · exact h.started.resolve_right fun hpos => hpos.1.not_ge hticks

theorem Going.positive (h : Going ticks left calls) (hleft : 0 < left) : 0 < ticks := by
  have hspent := h.spent
  rcases h.started with rfl | ⟨hpos, -⟩
  · simp only [List.map_nil, List.sum_nil] at hspent
    omega
  · exact hpos

theorem Going.offer (h : Going ticks left calls) (hleft : 0 < left)
    (hoffered : call.offered = ticks32 left) : Offered ticks (calls ++ [call]) := by
  have hspent := h.spent
  have houtstanding : ticks - (calls.map Call.spent).sum = left := by omega
  exact offered_append.mpr ⟨h.offered, houtstanding ▸ offered_ticks32 hleft hoffered⟩

theorem Going.stop (h : Going ticks left calls) (hleft : 0 < left)
    (hoffered : call.offered = ticks32 left) (hstop : call.consumed = none) :
    Chunked ticks (calls ++ [call]) := by
  refine ⟨h.offer hleft hoffered, fun hall => ?_, fun hticks => ?_⟩
  · have hsome := hall call (by simp)
    rw [hstop] at hsome
    cases hsome
  · exact absurd (h.positive hleft) hticks.not_gt

theorem Going.spend {consumed : BitVec 32} (h : Going ticks left calls) (hleft : 0 < left)
    (hoffered : call.offered = ticks32 left) (hspend : call.consumed = some consumed)
    (hle : consumed.toNat ≤ call.offered.toNat) :
    Going ticks (left - consumed.toNat) (calls ++ [call]) := by
  have hticks := toNat_ticks32 hleft
  have hspent : call.spent = consumed.toNat := by
    rw [Call.spent, hspend]
    rfl
  rw [hoffered] at hle
  refine ⟨h.offer hleft hoffered, ?_, Or.inr ⟨h.positive hleft, by omega⟩⟩
  have hsum := h.spent
  rw [List.map_append, List.sum_append, List.map_singleton, List.sum_singleton, hspent]
  omega

/-- The loop ends, and all fuel beyond that is left. -/
theorem Logs.chunked (h : Logs round log) (ticks : ℤ) (hs : log s = []) :
    ∃ t, (∀ more, run round (ticks.toNat + 1 + more) ticks s = some t) ∧ Chunked ticks (log t) := by
  have hends : (run round (ticks.toNat + 1) ticks s).isSome = true := by
    refine run_isSome (fun left s hleft => ?_) (Nat.lt_succ_self _)
    obtain ⟨call, t, hround, -, -, hreports⟩ := h left s hleft
    refine ⟨_, hround, fun n hn => ?_⟩
    obtain ⟨consumed, hconsumed, rfl⟩ := Option.mem_map.mp hn
    have hpos := (hreports consumed hconsumed).1
    omega
  obtain ⟨t, hrun⟩ := Option.isSome_iff_exists.mp hends
  refine ⟨t, run_mono hrun, ?_⟩
  refine run_invariant (fun left s => Going ticks left (log s)) (fun t => Chunked ticks (log t))
    ?_ ?_ ?_ ?_ hrun
  · exact fun left s hleft hgoing => hgoing.done hleft
  · intro left s t hleft hgoing hround
    obtain ⟨call, t', hround', hlog, hoffered, -⟩ := h left s hleft
    rw [hround'] at hround
    obtain ⟨rfl, hnone⟩ := Round.mk.inj (Option.some.inj hround)
    rw [hlog]
    exact hgoing.stop hleft hoffered (Option.map_eq_none_iff.mp hnone)
  · intro left s n t hleft hgoing hround
    obtain ⟨call, t', hround', hlog, hoffered, hreports⟩ := h left s hleft
    rw [hround'] at hround
    obtain ⟨rfl, hsome⟩ := Round.mk.inj (Option.some.inj hround)
    obtain ⟨consumed, hconsumed, rfl⟩ := Option.map_eq_some_iff.mp hsome
    rw [hlog]
    exact hgoing.spend hleft hoffered hconsumed (hreports consumed hconsumed).2
  · rw [hs]
    exact ⟨trivial, by simp, Or.inl rfl⟩

/-! ## The two overloads -/

variable {R : Type*}

/-- The log records what the callback is called with and what it reports. -/
theorem logged_spec (callback : TicksCallback R σ) (result : R) (s : σ × List Call)
    (h : 0 < left) :
    let c := logged callback.call (ticks32 left) result s
    ∃ call : Call, (if c.continues = true then some (c.ticksOut.toNat : ℤ) else none) =
        call.consumed.map (fun ticks => (ticks.toNat : ℤ)) ∧
      c.state.2 = s.2 ++ [call] ∧ call.offered = ticks32 left ∧
      ∀ consumed ∈ call.consumed, 1 ≤ consumed.toNat ∧ consumed.toNat ≤ call.offered.toNat := by
  intro c
  refine ⟨⟨ticks32 left, if c.continues then some c.ticksOut else none⟩, ?_, rfl, rfl, ?_⟩
  · dsimp only
    split <;> rfl
  · intro consumed hconsumed
    obtain ⟨hcontinues, hticksOut⟩ := Option.ite_none_right_eq_some.mp hconsumed
    obtain rfl := Option.some.inj hticksOut
    have hmax : lessThanForever = 4294967293 := rfl
    have hticks := toNat_ticks32 h
    exact callback.reports _ _ _ (by omega) hcontinues

/-- The log makes no difference to what the callback does. -/
theorem repeatForTicks_logged (call : BitVec 32 → R → σ → TicksCalled R σ) (fuel : ℕ) (ticks : ℤ)
    (result : R) (s : σ × List Call) :
    (repeatForTicks (fun offered result s => some (logged call offered result s)) fuel ticks result
        s).map (fun t => (t.1, t.2.1)) =
      repeatForTicks (fun offered result s => some (call offered result s)) fuel ticks result s.1 :=
  run_map _ fun _ _ => rfl

theorem repeatForTicksNoResult_logged (call : BitVec 32 → Unit → σ → TicksCalled Unit σ)
    (fuel : ℕ) (ticks : ℤ) (s : σ × List Call) :
    (repeatForTicksNoResult (fun offered s => some (logged call offered () s)) fuel ticks s).map
        Prod.fst =
      repeatForTicksNoResult (fun offered s => some (call offered () s)) fuel ticks s.1 :=
  run_map _ fun _ _ => rfl

theorem repeatForTicks_logs (callback : TicksCallback R σ) :
    Logs (fun ticks (s : R × σ × List Call) =>
      (some (logged callback.call (ticks32 ticks) s.1 s.2)).map fun c =>
        ⟨(c.result, c.state), if c.continues then some (c.ticksOut.toNat : ℤ) else none⟩)
      (·.2.2) := by
  intro left s hleft
  obtain ⟨call, hspent, hcalls, hoffered, hreports⟩ := logged_spec callback s.1 s.2 hleft
  exact ⟨call, _, congrArg (fun spent => some (Round.mk _ spent)) hspent, hcalls, hoffered,
    hreports⟩

theorem repeatForTicksNoResult_logs (callback : TicksCallback Unit σ) :
    Logs (fun ticks (s : σ × List Call) =>
      (some (logged callback.call (ticks32 ticks) () s)).map fun c =>
        ⟨c.state, if c.continues then some (c.ticksOut.toNat : ℤ) else none⟩) Prod.snd := by
  intro left s hleft
  obtain ⟨call, hspent, hcalls, hoffered, hreports⟩ := logged_spec callback () s hleft
  exact ⟨call, _, congrArg (fun spent => some (Round.mk _ spent)) hspent, hcalls, hoffered,
    hreports⟩

/-- Whatever `ticks` is and whatever the callback does with each offer, both overloads of
`repeat_for_ticks` end. The calls that they have made, which do not depend on the log that is kept
of them, are offered chunks of what is outstanding, and consume all of it unless they stop. -/
theorem repeatForTicks_chunked (ticks : ℤ) (callback : TicksCallback R σ)
    (callback' : TicksCallback Unit σ) (result : R) (s : σ) :
    (∃ out calls, Chunked ticks calls ∧ ∀ more,
      repeatForTicks (fun offered result s => some (logged callback.call offered result s))
        (ticks.toNat + 1 + more) ticks result (s, []) = some (out.1, out.2, calls) ∧
      repeatForTicks (fun offered result s => some (callback.call offered result s))
        (ticks.toNat + 1 + more) ticks result s = some out) ∧
    ∃ t calls, Chunked ticks calls ∧ ∀ more,
      repeatForTicksNoResult (fun offered s => some (logged callback'.call offered () s))
        (ticks.toNat + 1 + more) ticks (s, []) = some (t, calls) ∧
      repeatForTicksNoResult (fun offered s => some (callback'.call offered () s))
        (ticks.toNat + 1 + more) ticks s = some t := by
  constructor
  · obtain ⟨⟨result', t, calls⟩, hrun, hchunked⟩ :=
      (repeatForTicks_logs callback).chunked ticks (s := (result, s, [])) rfl
    refine ⟨(result', t), calls, hchunked, fun more => ⟨hrun more, ?_⟩⟩
    rw [← repeatForTicks_logged callback.call _ _ _ (s, []), repeatForTicks, hrun]
    rfl
  · obtain ⟨⟨t, calls⟩, hrun, hchunked⟩ :=
      (repeatForTicksNoResult_logs callback').chunked ticks (s := (s, [])) rfl
    refine ⟨t, calls, hchunked, fun more => ⟨hrun more, ?_⟩⟩
    rw [← repeatForTicksNoResult_logged callback'.call _ _ (s, []), repeatForTicksNoResult, hrun]
    rfl

/-- A callback that sleeps for all that it is offered, `naps` times, and then stops the loop. -/
def sleeper {R : Type*} : TicksCallback R ℕ where
  call ticks result naps := ⟨⟨result, decide (0 < naps), naps - 1⟩, ticks⟩
  reports _ _ _ h _ := ⟨h, le_rfl⟩

/-- More than a chunk: both overloads sleep twice. -/
theorem repeatForTicks_chunked_sleeper :
    (∃ out calls, Chunked lessThanForever.succ calls ∧ ∀ more,
      repeatForTicks (fun ticks result s => some (logged sleeper.call ticks result s))
        (lessThanForever.succ.toNat + 1 + more) lessThanForever.succ false (2, []) =
          some (out.1, out.2, calls) ∧
      repeatForTicks (fun ticks result naps => some (sleeper.call ticks result naps))
        (lessThanForever.succ.toNat + 1 + more) lessThanForever.succ false 2 = some out) ∧
    ∃ naps calls, Chunked lessThanForever.succ calls ∧ ∀ more,
      repeatForTicksNoResult (fun ticks s => some (logged sleeper.call ticks () s))
        (lessThanForever.succ.toNat + 1 + more) lessThanForever.succ (2, []) =
          some (naps, calls) ∧
      repeatForTicksNoResult (fun ticks naps => some (sleeper.call ticks () naps))
        (lessThanForever.succ.toNat + 1 + more) lessThanForever.succ 2 = some naps :=
  repeatForTicks_chunked lessThanForever.succ sleeper sleeper false 2

end OpenIotSdk.CmsisRtosUtil
