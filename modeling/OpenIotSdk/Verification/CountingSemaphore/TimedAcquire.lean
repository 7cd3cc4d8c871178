import OpenIotSdk.Model.Pigweed.CountingSemaphore
import OpenIotSdk.Verification.Repeat.Chunks

/-! # Timed acquisition of a semaphore

`try_acquire_for` gives up after the first chunk of its timeout. -/

namespace OpenIotSdk.CountingSemaphore.OsSemaphore

open CmsisRtosUtil Countdown

variable {semaphore : OsSemaphore} {fuel now : ℕ} {ticks : ℤ} {c d : Clock} {acquired : Bool}

/-- From `now` on, so many ticks have passed, and in none of them a token was available. -/
def Starved (semaphore : OsSemaphore) (now : ℕ) (ticks : ℤ) (after : ℕ) : Prop :=
  now + ticks ≤ after ∧ ∀ tick : ℕ, now ≤ tick → tick < now + ticks → ¬ semaphore.available tick

/-- What is to hold when `try_acquire_for` returns. -/
structure Acquires (semaphore : OsSemaphore) (ticks : ℤ) (before : Clock) (acquired : Bool)
    (after : Clock) : Prop where
  taken : acquired = true ↔ after.taken = before.taken + 1
  one : after.taken = before.taken ∨ after.taken = before.taken + 1
  starved : acquired = false → Starved semaphore before.now ticks after.now

/-! ## The first chunk -/

theorem ticks32_of_lt (h : lessThanForever < ticks) : ticks32 ticks = ticks32 lessThanForever := by
  rw [ticks32, ticks32, min_eq_right h.le, min_self]

/-- The callback never asks for another chunk. -/
theorem tryAcquireFor_eq (h : 0 < ticks) :
    semaphore.tryAcquireFor (fuel + 1) ticks c =
      (semaphore.acquireTicks (ticks32 ticks) false c).map fun called =>
        (called.result, called.state) := by
  have hround : ∀ called, semaphore.acquireTicks (ticks32 ticks) false c = some called →
      called.continues = false := by
    intro called hcalled
    simp only [acquireTicks] at hcalled
    obtain ⟨-, heq⟩ := Option.ite_none_right_eq_some.mp hcalled
    cases heq
    rfl
  rw [tryAcquireFor, repeatForTicks]
  cases hcalled : semaphore.acquireTicks (ticks32 ticks) false c with
  | none => exact run_stuck h (by simp [hcalled])
  | some called =>
      have hstops := hround called hcalled
      exact run_stop h (by simp [hcalled, hstops])

theorem tryAcquireFor_spec (h : 0 < ticks) :
    semaphore.tryAcquireFor (fuel + 1) ticks c = some (acquired, d) ↔
      semaphore.osSemaphoreAcquire (ticks32 ticks) c =
        (if acquired then .ok else .errorTimeout, d) := by
  rw [tryAcquireFor_eq h, acquireTicks]
  obtain ⟨status, e⟩ := semaphore.osSemaphoreAcquire (ticks32 ticks) c
  cases status <;> cases acquired <;> simp

theorem tryAcquireFor_nonpos (h : ticks ≤ 0) :
    semaphore.tryAcquireFor (fuel + 1) ticks c = some (false, c) := by
  rw [tryAcquireFor, repeatForTicks, run_of_nonpos h]

/-! ## What it returns -/

theorem osSemaphoreAcquire_taken {timeout : BitVec 32} {status : OsStatus}
    (h : semaphore.osSemaphoreAcquire timeout c = (status, d)) :
    semaphore.acquire c.now timeout = (status, d.now) ∧
      d.taken = if status = .ok then c.taken + 1 else c.taken := by
  rw [osSemaphoreAcquire] at h
  cases hacquire : semaphore.acquire c.now timeout with
  | mk status' now =>
      rw [hacquire] at h
      cases h
      exact ⟨rfl, rfl⟩

/-- Without a token in the first chunk, the thread is sure to have waited for that chunk only. -/
theorem timedOut_iff (h : 0 < ticks)
    (htimeout : (semaphore.acquire now (ticks32 ticks)).1 = .errorTimeout) :
    Starved semaphore now ticks (semaphore.acquire now (ticks32 ticks)).2 ↔
      ticks ≤ lessThanForever ∨
        Starved semaphore now ticks (semaphore.acquire now (ticks32 lessThanForever)).2 := by
  have hticks := toNat_ticks32 h
  have hmax : lessThanForever = 4294967293 := rfl
  have hforever : Cmsis.osWaitForever = 4294967295 := rfl
  rcases le_or_gt ticks lessThanForever with hshort | hlong
  · refine iff_of_true ?_ (Or.inl hshort)
    obtain ⟨hafter, hnone⟩ := semaphore.timedOut now (ticks32 ticks) (by omega) (by omega) htimeout
    refine ⟨by omega, ?_⟩
    intro tick hlow hhigh
    exact hnone tick hlow (by omega)
  · rw [ticks32_of_lt hlong, or_iff_right hlong.not_ge]

/-- The wait is long enough if it fits in one chunk, if there is a token in the first chunk, or if
the kernel itself comes back too late. -/
theorem acquires_iff (h : 0 < ticks)
    (hreturn : semaphore.tryAcquireFor (fuel + 1) ticks c = some (acquired, d)) :
    Acquires semaphore ticks c acquired d ↔
      ticks ≤ lessThanForever ∨
        (semaphore.acquire c.now (ticks32 lessThanForever)).1 = .ok ∨
        Starved semaphore c.now ticks (semaphore.acquire c.now (ticks32 lessThanForever)).2 := by
  obtain ⟨hacquire, htaken⟩ := osSemaphoreAcquire_taken ((tryAcquireFor_spec h).mp hreturn)
  cases acquired with
  | true =>
      have hok : Acquires semaphore ticks c true d := by
        refine ⟨?_, ?_, ?_⟩
        · simpa using htaken
        · exact Or.inr (by simpa using htaken)
        · intro hfalse
          cases hfalse
      refine iff_of_true hok ?_
      rcases le_or_gt ticks lessThanForever with hshort | hlong
      · exact Or.inl hshort
      · rw [← ticks32_of_lt hlong, hacquire]
        exact Or.inr (Or.inl rfl)
  | false =>
      have htimeout : (semaphore.acquire c.now (ticks32 ticks)).1 = .errorTimeout := by
        rw [hacquire]
        rfl
      have hafter : (semaphore.acquire c.now (ticks32 ticks)).2 = d.now := by rw [hacquire]
      have hiff := timedOut_iff h htimeout
      rw [hafter] at hiff
      constructor
      · intro hacquires
        exact (hiff.mp (hacquires.starved rfl)).imp_right Or.inr
      · intro hcond
        have hsame : d.taken = c.taken := by simpa using htaken
        refine ⟨by simp [hsame], Or.inl hsame, fun _ => hiff.mpr ?_⟩
        rcases hcond with hshort | hok | hlate
        · exact Or.inl hshort
        · rcases le_or_gt ticks lessThanForever with hshort | hlong
          · exact Or.inl hshort
          · rw [ticks32_of_lt hlong, hok] at htimeout
            cases htimeout
        · exact Or.inr hlate

/-- A token is released at one tick, and nobody else takes it. -/
def releasedAt (release : ℕ) : OsSemaphore where
  available tick := release ≤ tick
  acquire now timeout :=
    if release ≤ now then (.ok, now)
    else if timeout = 0 then (.other, now)
    else if release < now + timeout.toNat ∨ timeout.toNat = Cmsis.osWaitForever then (.ok, release)
    else (.errorTimeout, now + timeout.toNat)
  later := by
    intro now timeout
    split_ifs <;> dsimp only <;> omega
  ready := by
    intro now timeout h
    exact if_pos h
  timedOut := by
    intro now timeout _ _ htimeout
    split_ifs at htimeout ⊢ with hnow hpoll hlater
    · exact ⟨le_refl _, fun tick _ _ => by omega⟩

theorem acquires_iff_released :
    (releasedAt 4294967294).tryAcquireFor 1 4294967296 ⟨0, 0⟩ = some (false, ⟨4294967293, 0⟩) ∧
      (Acquires (releasedAt 4294967294) 4294967296 ⟨0, 0⟩ false ⟨4294967293, 0⟩ ↔
        (4294967296 : ℤ) ≤ lessThanForever ∨
          ((releasedAt 4294967294).acquire 0 (ticks32 lessThanForever)).1 = .ok ∨
          Starved (releasedAt 4294967294) 0 4294967296
            ((releasedAt 4294967294).acquire 0 (ticks32 lessThanForever)).2) := by
  have hreturn : (releasedAt 4294967294).tryAcquireFor 1 4294967296 ⟨0, 0⟩ =
      some (false, ⟨4294967293, 0⟩) := by decide
  exact ⟨hreturn, acquires_iff (by decide) hreturn⟩

/-- The token comes one tick after the call has given up. -/
theorem released_not_acquired :
    ¬ ∀ (semaphore : OsSemaphore) (fuel : ℕ) (ticks : ℤ) (c d : Clock) (acquired : Bool), 0 < ticks →
      semaphore.tryAcquireFor fuel ticks c = some (acquired, d) →
      Acquires semaphore ticks c acquired d := by
  intro h
  have hacquires := h (releasedAt 4294967294) 1 4294967296 ⟨0, 0⟩ ⟨4294967293, 0⟩ false (by decide)
    (by decide)
  have hwaited := (hacquires.starved rfl).1
  revert hwaited
  decide

end OpenIotSdk.CountingSemaphore.OsSemaphore
