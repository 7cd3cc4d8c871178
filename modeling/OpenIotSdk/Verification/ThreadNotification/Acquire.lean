import OpenIotSdk.Model.Pigweed.ThreadNotification

/-! # Acquire operations of the subscriber

A wait that times out returns with `blocked_thread_id_` still set, and a negative tick
count reports success without waiting. Apart from these two, every success consumes a
release. -/

namespace OpenIotSdk.ThreadNotification

open Cmsis Transition

/-- Each success consumed a notification, so successes do not outnumber releases; between
two operations `blocked_thread_id_` is null, so that no check has failed. -/
structure Consistent (s : State) : Prop where
  earned : s.count.unearned = 0
  bounded : s.count.successes ≤ s.count.releases
  unblocked : s.pc = .idle → s.blocked = false
  running : s.halted = false

/-- No operation ends with an error status, and one that did not see its wait flag finds
`notified_` true when it resets it. -/
def EndsNotified (s : State) : Action → Prop
  | .advance => match s.pc with
    | .decide status => isOsFlagsError status = false
    | .consume status => isBitSet status waitFlag = false → s.notified = true
    | _ => True
  | _ => True

/-- The statements at which `blocked_thread_id_` names the subscriber. -/
def Pc.subscribed : Pc → Bool
  | .clear _ | .choose _ | .poll | .waitForever | .loop _ _ | .waitTicks _ | .decide _
  | .unblock _ => true
  | _ => false

/-- The subscriber is bound to report success, or will be by the flags it now has. -/
def Pc.assured (flags : Flags) : Pc → Bool
  | .tryConsume | .fastUnblock | .fastConsume => true
  | .choose _ | .poll | .waitForever | .loop _ _ | .waitTicks _ => isBitSet flags waitFlag
  | .decide status => !isOsFlagsError status && isBitSet status waitFlag
  | .unblock status | .consume status => isBitSet status waitFlag
  | _ => false

/-- The results that `repeat_for_ticks` can hold when it tests its loop condition. -/
def Pc.looped : Pc → Prop
  | .loop _ result => result = 0#32 ∨ result = osFlagsErrorTimeout
  | _ => True

structure Inv (s : State) : Prop where
  earned : s.count.unearned = 0
  counted : s.count.successes + s.notified.toNat ≤ s.count.releases
  blocked : s.blocked = s.pc.subscribed
  running : s.halted = false
  flags : isOsFlagsError s.flags = false
  assured : s.pc.assured s.flags = true → s.notified = true
  looped : s.pc.looped
  releasing : 0 < s.releasing → s.notified = true

theorem Inv.consistent {s : State} (h : Inv s) : Consistent s :=
  ⟨h.earned, (Nat.le_add_right _ _).trans h.counted, fun hpc => by rw [h.blocked, hpc]; rfl,
    h.running⟩

theorem inv_init : Inv init :=
  ⟨rfl, Nat.le_refl _, rfl, rfl, by decide, by decide, trivial, by decide⟩

/-! ## The kinds of statement -/

theorem Inv.move {s : State} (h : Inv s) {next : Pc} {blocked : Bool}
    (hb : blocked = next.subscribed)
    (ha : next.assured s.flags = true → s.notified = true) (hl : next.looped) :
    Inv ({ s with blocked := blocked }.goto next) :=
  ⟨h.earned, h.counted, hb, h.running, h.flags, ha, hl, h.releasing⟩

theorem Inv.goto {s : State} (h : Inv s) {next : Pc}
    (hb : s.pc.subscribed = next.subscribed)
    (ha : next.assured s.flags = true → s.notified = true) (hl : next.looped) :
    Inv (s.goto next) :=
  h.move (h.blocked.trans hb) ha hl

/-- A success that finds `notified_` set uses up the release that set it. -/
theorem Inv.consume {s : State} (h : Inv s) (hn : s.notified = true)
    (hr : s.releasing = 0) {next : Pc} (hb : s.pc.subscribed = next.subscribed)
    (ha : next.assured s.flags = false) (hl : next.looped) :
    Inv (s.consume.goto next) := by
  have hc : s.count.successes + 1 ≤ s.count.releases := by simpa [hn] using h.counted
  refine ⟨?_, ?_, h.blocked.trans hb, h.running, h.flags, ?_, hl, ?_⟩
  · simp [State.goto, State.consume, hn, h.earned]
  · simpa [State.goto, State.consume] using hc
  · intro hx
    exact absurd hx (by simp [State.goto, State.consume, ha])
  · intro hx
    exact absurd hx (by simp [State.goto, State.consume, hr])

/-- After the wait flag is cleared, only a new release can set it. -/
theorem Inv.clear {s : State} (h : Inv s) {next : Pc}
    (hb : s.pc.subscribed = next.subscribed)
    (ha : next.assured (osThreadFlagsClear s.flags (bitMask waitFlag)) = false)
    (hl : next.looped) :
    Inv ({ s with flags := osThreadFlagsClear s.flags (bitMask waitFlag) }.goto next) := by
  refine ⟨h.earned, h.counted, h.blocked.trans hb, h.running,
    isOsFlagsError_clear h.flags _, ?_, hl, h.releasing⟩
  intro hx
  exact absurd hx (by simp [State.goto, ha])

theorem Inv.release {s : State} (h : Inv s) : Inv s.release := by
  refine ⟨h.earned, ?_, h.blocked, h.running, h.flags, fun _ => rfl, h.looped, fun _ => rfl⟩
  have hc := h.counted
  simp only [State.release, Bool.toNat_true]
  omega

theorem Inv.signal {s : State} (h : Inv s) (hr : 0 < s.releasing) : Inv s.signal := by
  have hn : s.notified = true := h.releasing hr
  have hw : isOsFlagsError (osThreadFlagsSet s.flags (bitMask waitFlag)) = false :=
    isOsFlagsError_set h.flags (by decide)
  dsimp only [State.signal]
  split
  · rw [if_neg (by simp [hw])]
    exact ⟨h.earned, h.counted, h.blocked, h.running, hw, fun _ => hn, h.looped, fun _ => hn⟩
  · exact ⟨h.earned, h.counted, h.blocked, h.running, h.flags, fun _ => hn, h.looped,
      fun _ => hn⟩

/-! ## One step -/

theorem Inv.advance {s s' : State} (h : Inv s) (hok : EndsNotified s .advance)
    (hr : s.releasing = 0) (hs : s.advance = some s') : Inv s' := by
  have hb := h.blocked
  have ha := h.assured
  have hl := h.looped
  have hcleared : isBitSet (osThreadFlagsClear s.flags (bitMask waitFlag)) waitFlag = false :=
    isBitSet_clear s.flags (by decide)
  cases hpc : s.pc with
  | idle => simp [State.advance, hpc] at hs
  | tryCheck | check ticks =>
      rw [hpc] at hb
      simp only [State.advance, hpc, hb, Pc.subscribed, Bool.false_eq_true, if_false,
        Option.some.injEq] at hs
      subst hs
      exact h.goto (by rw [hpc]; rfl) nofun trivial
  | tryTest | test ticks =>
      simp only [State.advance, hpc, Option.some.injEq] at hs
      subst hs
      split
      · next hn => exact h.goto (by rw [hpc]; rfl) (fun _ => hn) trivial
      · exact h.goto (by rw [hpc]; rfl) nofun trivial
  | tryConsume | fastConsume =>
      simp only [State.advance, hpc, Option.some.injEq] at hs
      subst hs
      exact h.consume (ha (by rw [hpc]; rfl)) hr (by rw [hpc]; rfl) rfl trivial
  | fastUnblock =>
      simp only [State.advance, hpc, Option.some.injEq] at hs
      subst hs
      exact h.move rfl (fun _ => ha (by rw [hpc]; rfl)) trivial
  | subscribe ticks =>
      simp only [State.advance, hpc, Option.some.injEq] at hs
      subst hs
      exact h.move rfl nofun trivial
  | clear ticks =>
      simp only [State.advance, hpc, State.clearWaitFlag, h.flags, Bool.false_eq_true,
        if_false, Option.some.injEq] at hs
      subst hs
      exact h.clear (by rw [hpc]; rfl) hcleared trivial
  | choose ticks =>
      simp only [State.advance, hpc, Option.some.injEq] at hs
      subst hs
      rw [hpc] at ha
      split_ifs
      · exact h.goto (by rw [hpc]; rfl) ha trivial
      · exact h.goto (by rw [hpc]; rfl) ha trivial
      · exact h.goto (by rw [hpc]; rfl) ha (.inl rfl)
  | poll =>
      simp only [State.advance, hpc, Option.some.injEq] at hs
      subst hs
      rw [hpc] at ha
      split
      · next hbit => exact h.goto (by rw [hpc]; rfl) (fun _ => ha hbit) trivial
      · exact h.goto (by rw [hpc]; rfl)
          (fun hx => absurd hx (by simp only [Pc.assured]; decide)) trivial
  | waitForever | waitTicks ticks =>
      rw [hpc] at ha
      simp only [State.advance, hpc] at hs
      obtain ⟨hbit, hs⟩ := Option.ite_none_right_eq_some.mp hs
      cases hs
      exact h.goto (by rw [hpc]; rfl) (fun _ => ha hbit) trivial
  | loop ticks result =>
      simp only [State.advance, hpc, Option.some.injEq] at hs
      subst hs
      rw [hpc] at ha hl
      split
      · exact h.goto (by rw [hpc]; rfl) ha trivial
      · refine h.goto (by rw [hpc]; rfl) ?_ trivial
        -- Neither the default result nor a timeout carries the wait flag of a release.
        intro hx
        rcases hl with rfl | rfl <;> exact absurd hx (by simp only [Pc.assured]; decide)
  | decide status =>
      simp only [EndsNotified, hpc] at hok
      simp only [State.advance, hpc, hok, Bool.false_eq_true, if_false,
        Option.some.injEq] at hs
      subst hs
      refine h.goto (by rw [hpc]; rfl) ?_ trivial
      intro hx
      exact ha (by simpa [hpc, Pc.assured, hok] using hx)
  | unblock status =>
      simp only [State.advance, hpc, Option.some.injEq] at hs
      subst hs
      rw [hpc] at ha
      exact h.move rfl ha trivial
  | consume status =>
      simp only [EndsNotified, hpc] at hok
      simp only [State.advance, hpc, Option.some.injEq] at hs
      subst hs
      rw [hpc] at ha
      have hn : s.notified = true := by
        cases hbit : isBitSet status waitFlag with
        | true => exact ha hbit
        | false => exact hok hbit
      exact h.consume hn hr (by rw [hpc]; rfl) rfl trivial
  | finish =>
      simp only [State.advance, hpc, Option.some.injEq] at hs
      subst hs
      exact h.clear (by rw [hpc]; rfl) rfl trivial

theorem Inv.timeout {s s' : State} (h : Inv s) (hs : s.timeout = some s') : Inv s' := by
  dsimp only [State.timeout] at hs
  split at hs
  · cases hs; exact h
  · next ticks hpc =>
      cases hs
      have ha := h.assured
      rw [hpc] at ha
      exact h.goto (by rw [hpc]; rfl) ha (.inr rfl)
  · cases hs

theorem Inv.call {s s' : State} (h : Inv s) (next : Pc) (hb : next.subscribed = false)
    (ha : next.assured s.flags = false) (hl : next.looped) (hs : s.call next = some s') :
    Inv s' := by
  dsimp only [State.call] at hs
  obtain ⟨hpc, hs⟩ := Option.ite_none_right_eq_some.mp hs
  cases hs
  exact h.goto (by rw [hpc.1, hb]; rfl) (fun hx => absurd hx (by simp [ha])) hl

theorem Inv.step {s s' : State} {a : Action} (h : Inv s) (hok : EndsNotified s a)
    (hs : step s a = some s') : Inv s' := by
  rw [ThreadNotification.step.eq_def, if_neg (by simp [h.running])] at hs
  cases a with
  | tryAcquire => exact h.call .tryCheck rfl rfl trivial hs
  | tryAcquireFor ticks => exact h.call (.check ticks) rfl rfl trivial hs
  | acquire => exact h.call (.check osWaitForever) rfl rfl trivial hs
  | advance =>
      obtain ⟨hr, hs⟩ := Option.ite_none_right_eq_some.mp hs
      exact h.advance hok hr hs
  | timeout =>
      obtain ⟨-, hs⟩ := Option.ite_none_right_eq_some.mp hs
      exact h.timeout hs
  | release context =>
      cases context with
      | interrupt => cases hs; exact h.release
      | thread =>
          obtain ⟨-, hs⟩ := Option.ite_none_right_eq_some.mp hs
          cases hs
          exact h.release
  | signal =>
      obtain ⟨hr, hs⟩ := Option.ite_none_right_eq_some.mp hs
      cases hs
      exact h.signal hr
  | other word =>
      obtain ⟨hw, hs⟩ := Option.ite_none_right_eq_some.mp hs
      cases hs
      refine ⟨h.earned, h.counted, h.blocked, h.running, hw.2, ?_, h.looped, h.releasing⟩
      intro hx
      apply h.assured
      cases hpc : s.pc <;> simp_all [Pc.assured]

/-- An error status leaves the subscriber named; a success without its flag and without
`notified_` is unearned. -/
theorem inconsistent_of_not_endsNotified {s s' : State} {a : Action} (h : Inv s)
    (hs : step s a = some s') (hbad : ¬ EndsNotified s a) : ¬ Consistent s' := by
  rw [ThreadNotification.step.eq_def, if_neg (by simp [h.running])] at hs
  cases a with
  | tryAcquire | tryAcquireFor | acquire | timeout | release | signal | other =>
      exact absurd trivial hbad
  | advance =>
      obtain ⟨-, hs⟩ := Option.ite_none_right_eq_some.mp hs
      cases hpc : s.pc with
      | decide status =>
          simp only [EndsNotified, hpc, Bool.not_eq_false] at hbad
          simp only [State.advance, hpc, hbad, if_true, Option.some.injEq] at hs
          subst hs
          intro hx
          have hb : s.blocked = false := hx.unblocked rfl
          rw [h.blocked, hpc] at hb
          cases hb
      | consume status =>
          simp only [EndsNotified, hpc, Classical.not_imp, Bool.not_eq_true] at hbad
          simp only [State.advance, hpc, Option.some.injEq] at hs
          subst hs
          intro hx
          exact absurd hx.earned (by simp [State.goto, State.consume, hbad.2])
      | _ => exact absurd (by simp only [EndsNotified, hpc]) hbad

/-- For one subscriber, any operations and any releases, the notification is consistent
in every state of a run exactly when every operation of the run ends notified. -/
theorem consistent_iff_endsNotified (acts : List Action) :
    Always step Consistent init acts ↔ Meets step EndsNotified init acts :=
  always_iff_meets Inv (fun _ _ _ h hok hs => h.step hok hs)
    (fun _ h => h.consistent) (fun _ _ _ h hs hbad => inconsistent_of_not_endsNotified h hs hbad)
    inv_init acts

/-- A negative tick count: success without any release. -/
def negativeTicks : List Action := .tryAcquireFor (-1) :: List.replicate 9 .advance

/-- A wait of one tick times out and leaves the subscriber named. -/
def timedOut : List Action :=
  .tryAcquireFor 1 :: List.replicate 6 .advance ++ [.timeout, .advance, .advance]

theorem negativeTicks_timedOut_inconsistent :
    (¬ ∀ acts s, run step init acts = some s → s.count.successes ≤ s.count.releases) ∧
      ¬ ∀ acts s, run step init acts = some s → s.pc = .idle → s.blocked = false := by
  constructor
  · intro h
    exact absurd (h negativeTicks _ rfl) (by decide)
  · intro h
    exact absurd (h timedOut _ rfl rfl) (by decide)

end OpenIotSdk.ThreadNotification
