import OpenIotSdk.Library.Transition
import OpenIotSdk.Verification.Thread.Join

/-! # Lifetime of the thread context

The kernel is locked from the creation of the thread to the end of `Context::Context`,
but not while the constructor of `Thread` reads `detached()`: a thread created detached
may have deleted its context by then. Nothing else goes wrong. -/

namespace OpenIotSdk.Thread

open ThreadNotification Transition

def Worker.exited : Worker → Bool
  | .exiting | .terminated => true
  | .absent | .entry | .body => false

/-- Both threads are through with the context. -/
def State.finished (s : State) : Prop :=
  s.worker = .terminated ∧ s.native = false ∧ (s.creator = .ready ∨ s.creator = .done)

/-- The context is deleted once and is not used afterwards. -/
structure Sound (s : State) : Prop where
  fresh : s.staleAccesses = 0
  atMostOnce : s.deletions ≤ 1
  deleted : s.finished → s.deletions = 1

/-- The constructor of a detached thread reads `detached()` before the thread exits. -/
def ReadsBeforeExit (config : Config) (s : State) : Action → Prop
  | .creator => s.creator = .test → config.attrDetached = true → s.worker.exited = false
  | _ => True

/-! ## Who owns the context -/

/-- The creator has given the context up. -/
def Released (config : Config) (s : State) : Prop :=
  s.creator = .test ∧ config.attrDetached = true ∨
    s.native = false ∧ (s.creator = .ready ∨ s.creator = .joinCheck ∨
      s.creator = .detachCheck ∨ s.creator = .done)

/-- The creator still holds the context, and is to delete it or to give it up. -/
structure Joinable (config : Config) (s : State) : Prop where
  attr : config.attrDetached = false
  native : s.native = true
  alive : s.deletions = 0
  attached : detached s.bits = false
  bits : completed s.bits = s.worker.exited
  started : s.worker ≠ .absent
  note : Note s.worker.exited s.notification
  between : s.creator ≠ .construct ∧ s.creator ≠ .done
  acquire : s.creator = .acquire →
    config.haveJoinDetach = false ∧ Waits s.worker.exited s.notification.pc
  idle : s.creator ≠ .acquire → s.notification.pc = .idle
  joined : s.creator = .joinDelete → s.worker.exited = true

/-- The owner of the context: the code that is still bound to delete it. -/
inductive Owner (config : Config) (s : State) : Prop
  /-- There is no context yet. -/
  | nobody (creator : s.creator = .construct) (worker : s.worker = .absent)
      (alive : s.deletions = 0) (notification : s.notification = ThreadNotification.init)
  | creator (h : Joinable config s)
  | worker (alive : s.deletions = 0) (bits : detached s.bits = true)
      (runs : s.worker = .entry ∨ s.worker = .body) (released : Released config s)
  | deleted (once : s.deletions = 1) (exited : s.worker.exited = true)
      (released : Released config s)

structure Life (config : Config) (s : State) : Prop where
  fresh : s.staleAccesses = 0
  owner : Owner config s

theorem life_init (config : Config) : Life config init :=
  ⟨rfl, .nobody rfl rfl rfl rfl⟩

theorem Life.sound {config : Config} {s : State} (h : Life config s) : Sound s := by
  refine ⟨h.fresh, ?_, ?_⟩
  · cases h.owner with
    | nobody _ _ alive => omega
    | creator hj => have := hj.alive; omega
    | worker alive => omega
    | deleted once => omega
  · rintro ⟨hterm, hnative, -⟩
    cases h.owner with
    | nobody _ hworker => rw [hworker] at hterm; cases hterm
    | creator hj => rw [hj.native] at hnative; cases hnative
    | worker _ _ runs => rw [hterm] at runs; simp at runs
    | deleted once => exact once

theorem State.touch_of_alive {s : State} (h : s.deletions = 0) : s.touch = s := by
  simp only [State.touch, if_pos h, Nat.add_zero]

theorem Released.creator {config : Config} {s : State} (h : Released config s) :
    s.creator = .test ∧ config.attrDetached = true ∨ s.creator = .ready ∨
      s.creator = .joinCheck ∨ s.creator = .detachCheck ∨ s.creator = .done :=
  h.imp_right And.right

theorem Life.joinable {config : Config} {s : State} (h : Life config s)
    (hc : s.creator = .joinCall ∨ s.creator = .osJoin ∨ s.creator = .acquire ∨
      s.creator = .joinDelete ∨ s.creator = .detachBody) : Joinable config s := by
  cases h.owner with
  | nobody creator => simp [creator] at hc
  | creator hj => exact hj
  | worker _ _ _ released =>
      rcases released.creator with ⟨hx, -⟩ | hx | hx | hx | hx <;> simp [hx] at hc
  | deleted _ _ released =>
      rcases released.creator with ⟨hx, -⟩ | hx | hx | hx | hx <;> simp [hx] at hc

theorem Joinable.life {config : Config} {s : State} (hj : Joinable config s)
    (hs : s.staleAccesses = 0) : Life config s :=
  ⟨hs, .creator hj⟩

theorem Joinable.goto {config : Config} {s : State} (hj : Joinable config s) (next : Creator)
    (hs : s.creator ≠ .acquire) (hne : next ≠ .construct ∧ next ≠ .done)
    (hacquire : next ≠ .acquire) (hexited : next = .joinDelete → s.worker.exited = true) :
    Joinable config { s with creator := next } :=
  { hj with
    between := hne
    acquire := fun h => absurd h hacquire
    idle := fun _ => hj.idle hs
    joined := hexited }

theorem Life.halt {config : Config} {s : State} (h : Life config s) : Life config s.halt := by
  refine ⟨h.fresh, ?_⟩
  cases h.owner with
  | nobody creator worker alive notification => exact .nobody creator worker alive notification
  | creator hj => exact .creator { hj with }
  | worker alive bits runs released => exact .worker alive bits runs released
  | deleted once exited released => exact .deleted once exited released

/-! ## The creator -/

theorem Life.construct {config : Config} {s : State} (h : Life config s)
    (hc : s.creator = .construct) : Life config (s.construct config) := by
  cases h.owner with
  | nobody _ _ alive hnote =>
      refine ⟨h.fresh, ?_⟩
      cases hattr : config.attrDetached with
      | true =>
          refine .worker alive ?_ (.inl rfl) (.inl ⟨rfl, hattr⟩)
          simp only [State.construct, hattr]
          decide
      | false =>
          have hbits : (s.construct config).bits = 0#8 := by simp [State.construct, hattr]
          refine .creator
            { attr := hattr
              native := rfl
              alive := alive
              attached := by rw [hbits]; decide
              bits := by rw [hbits]; rfl
              started := nofun
              note := ?_
              between := ⟨nofun, nofun⟩
              acquire := nofun
              idle := ?_
              joined := nofun }
          · show Note false s.notification
            rw [hnote]
            exact note_init false
          · intro _
            show s.notification.pc = .idle
            rw [hnote]
            rfl
  | creator hj => exact absurd hc hj.between.1
  | worker _ _ _ released | deleted _ _ released =>
      rcases released.creator with ⟨hx, -⟩ | hx | hx | hx | hx <;> rw [hx] at hc <;> cases hc

/-- `native_type_->detached()` in the constructor of `Thread`. -/
theorem Life.test {config : Config} {s : State} (h : Life config s) (hc : s.creator = .test)
    (hok : ReadsBeforeExit config s .creator) :
    Life config { s.touch with native := !detached s.bits, creator := .ready } := by
  cases h.owner with
  | nobody creator => rw [creator] at hc; cases hc
  | creator hj =>
      rw [State.touch_of_alive hj.alive, hj.attached]
      have hready := hj.goto .ready (by simp [hc]) ⟨nofun, nofun⟩ nofun nofun
      exact Joinable.life { hready with native := rfl } h.fresh
  | worker alive bits runs released =>
      rw [State.touch_of_alive alive, bits]
      exact ⟨h.fresh, .worker alive bits runs (.inr ⟨rfl, .inl rfl⟩)⟩
  | deleted once exited released =>
      rcases released with ⟨-, hattr⟩ | ⟨-, hx⟩
      · rw [hok hc hattr] at exited
        cases exited
      · rw [hc] at hx
        simp at hx

theorem Life.checked {config : Config} {s : State} (h : Life config s) {next : Creator}
    (hc : s.creator = .joinCheck ∨ s.creator = .detachCheck)
    (hnext : next = .joinCall ∨ next = .detachBody) : Life config (s.checked next) := by
  have hreleased : Released config s → s.native = false := by
    rintro (⟨hx, -⟩ | ⟨hx, -⟩)
    · simp [hx] at hc
    · exact hx
  cases h.owner with
  | nobody creator => simp [creator] at hc
  | creator hj =>
      rw [State.checked, if_neg (by simp [hj.native]), if_neg (by simp [hj.attached]),
        State.touch_of_alive hj.alive]
      have hs : s.creator ≠ .acquire := by rcases hc with hc | hc <;> simp [hc]
      refine (hj.goto next hs ?_ ?_ ?_).life h.fresh <;>
        rcases hnext with rfl | rfl <;> simp
  | worker _ _ _ released | deleted _ _ released =>
      rw [State.checked, if_pos (hreleased released)]
      exact h.halt

theorem Life.joinCall {config : Config} {s s' : State} (h : Life config s)
    (hc : s.creator = .joinCall) (hs : s.creatorStep config = some s') : Life config s' := by
  have hj : Joinable config s := h.joinable (.inl hc)
  simp only [State.creatorStep, hc, State.touch_of_alive hj.alive] at hs
  split at hs
  · cases hs
    exact (hj.goto .osJoin (by simp [hc]) ⟨nofun, nofun⟩ nofun nofun).life h.fresh
  · next hconfig =>
      obtain ⟨n, hn, rfl⟩ := Option.map_eq_some_iff.mp hs
      obtain ⟨hnote, hwaits⟩ := hj.note.acquire hn
      refine Joinable.life ?_ h.fresh
      exact { hj with
        note := hnote
        between := ⟨nofun, nofun⟩
        acquire := fun _ => ⟨by simpa using hconfig, hwaits⟩
        idle := fun hx => absurd rfl hx
        joined := nofun }

theorem Life.joinDelete {config : Config} {s : State} (h : Life config s)
    (hc : s.creator = .joinDelete) :
    Life config { s.delete with native := false, creator := .done } := by
  have hj : Joinable config s := h.joinable (by simp [hc])
  rw [State.delete, State.touch_of_alive hj.alive, hj.alive]
  exact ⟨h.fresh, .deleted rfl (hj.joined hc) (.inr ⟨rfl, by simp⟩)⟩

/-- The locked section of `detach()` leaves the context to a thread that still runs. -/
theorem Life.detachBody {config : Config} {s : State} (h : Life config s)
    (hc : s.creator = .detachBody) : Life config s.detachBody := by
  have hj : Joinable config s := h.joinable (by simp [hc])
  unfold State.detachBody
  rw [State.touch_of_alive hj.alive, State.delete, State.touch_of_alive hj.alive, hj.alive]
  split
  · next hcompleted =>
      rw [hj.bits] at hcompleted
      exact ⟨h.fresh, .deleted rfl hcompleted (.inr ⟨rfl, by simp⟩)⟩
  · next hcompleted =>
      have hruns : s.worker = .entry ∨ s.worker = .body := by
        have hstarted := hj.started
        rw [hj.bits] at hcompleted
        cases hw : s.worker <;> simp_all [Worker.exited]
      exact ⟨h.fresh, .worker hj.alive (detached_setDetached s.bits) hruns
        (.inr ⟨rfl, by simp⟩)⟩

theorem Life.creatorStep {config : Config} {s s' : State} (h : Life config s)
    (hok : ReadsBeforeExit config s .creator) (hs : s.creatorStep config = some s') :
    Life config s' := by
  cases hc : s.creator with
  | construct => simp only [State.creatorStep, hc] at hs; cases hs; exact h.construct hc
  | test => simp only [State.creatorStep, hc] at hs; cases hs; exact h.test hc hok
  | ready | done => simp [State.creatorStep, hc] at hs
  | joinCheck =>
      simp only [State.creatorStep, hc] at hs
      cases hs
      exact h.checked (.inl hc) (.inl rfl)
  | joinCall => exact h.joinCall hc hs
  | osJoin =>
      have hj : Joinable config s := h.joinable (by simp [hc])
      simp only [State.creatorStep, hc] at hs
      obtain ⟨hw, hs⟩ := Option.ite_none_right_eq_some.mp hs
      cases hs
      have hexited : s.worker.exited = true := by rw [hw]; rfl
      exact (hj.goto .joinDelete (by simp [hc]) ⟨nofun, nofun⟩ nofun fun _ => hexited).life
        h.fresh
  | acquire =>
      have hj : Joinable config s := h.joinable (by simp [hc])
      have hw := (hj.acquire hc).2
      simp only [State.creatorStep, hc] at hs
      obtain ⟨hpc, hs⟩ := Option.ite_none_right_eq_some.mp hs
      cases hs
      rw [hpc] at hw
      refine Joinable.life ?_ h.fresh
      exact { hj with
        between := ⟨nofun, nofun⟩
        acquire := nofun
        idle := fun _ => hpc
        joined := fun _ => hw }
  | joinDelete => simp only [State.creatorStep, hc] at hs; cases hs; exact h.joinDelete hc
  | detachCheck =>
      simp only [State.creatorStep, hc] at hs
      cases hs
      exact h.checked (.inr hc) (.inr rfl)
  | detachBody => simp only [State.creatorStep, hc] at hs; cases hs; exact h.detachBody hc

/-! ## The new thread -/

theorem Life.entry {config : Config} {s : State} (h : Life config s) (hw : s.worker = .entry) :
    Life config { s.touch with worker := .body } := by
  cases h.owner with
  | nobody _ worker => rw [hw] at worker; cases worker
  | creator hj =>
      rw [State.touch_of_alive hj.alive]
      refine Joinable.life ?_ h.fresh
      have hexited : s.worker.exited = Worker.exited .body := by rw [hw]; rfl
      exact { hj with
        bits := hj.bits.trans hexited
        started := nofun
        note := hexited ▸ hj.note
        acquire := fun hc => ⟨(hj.acquire hc).1, hexited ▸ (hj.acquire hc).2⟩
        joined := fun hc => hexited ▸ hj.joined hc }
  | worker alive bits runs released =>
      rw [State.touch_of_alive alive]
      exact ⟨h.fresh, .worker alive bits (.inr rfl) released⟩
  | deleted _ exited => rw [hw] at exited; cases exited

/-- The locked exit section. A thread that nobody detached leaves the context to the
creator, and releases the creator if that is waiting in the custom join. -/
theorem Joinable.complete {config : Config} {s s' : State} (hj : Joinable config s)
    (hw : s.worker = .body) (hs : s.complete config = some s') :
    Joinable config { s' with worker := .exiting } ∧ s'.staleAccesses = s.staleAccesses := by
  have hexited : s.worker.exited = false := by rw [hw]; rfl
  dsimp only [State.complete] at hs
  split at hs
  · next hconfig =>
      cases hs
      refine ⟨?_, rfl⟩
      exact { hj with
        attached := (detached_setCompleted s.bits).trans hj.attached
        bits := completed_setCompleted s.bits
        started := nofun
        note := hj.note.exit
        acquire := fun hc => absurd (hj.acquire hc).1 (by simp [hconfig])
        joined := fun _ => rfl }
  · obtain ⟨released, hreleased, hs⟩ := Option.bind_eq_some_iff.mp hs
    obtain ⟨signalled, hsignalled, rfl⟩ := Option.map_eq_some_iff.mp hs
    obtain ⟨hnote, hpc⟩ := hj.note.release hreleased hsignalled
    refine ⟨?_, rfl⟩
    exact { hj with
      attached := (detached_setCompleted s.bits).trans hj.attached
      bits := completed_setCompleted s.bits
      started := nofun
      note := hnote
      acquire := fun hc => ⟨(hj.acquire hc).1, hpc ▸ (hj.acquire hc).2.exit⟩
      idle := fun hc => hpc.trans (hj.idle hc)
      joined := fun _ => rfl }

theorem Life.body {config : Config} {s s' : State} (h : Life config s) (hw : s.worker = .body)
    (hs : s.workerStep config = some s') : Life config s' := by
  simp only [State.workerStep, hw] at hs
  cases h.owner with
  | nobody _ worker => rw [hw] at worker; cases worker
  | creator hj =>
      rw [if_neg (by simp [hj.attached]), State.touch_of_alive hj.alive] at hs
      obtain ⟨t, ht, rfl⟩ := Option.map_eq_some_iff.mp hs
      obtain ⟨hjt, hfresh⟩ := hj.complete hw ht
      exact hjt.life (hfresh.trans h.fresh)
  | worker alive bits runs released =>
      rw [if_pos bits, State.touch_of_alive alive, State.delete, State.touch_of_alive alive,
        alive] at hs
      cases hs
      exact ⟨h.fresh, .deleted rfl rfl released⟩
  | deleted _ exited => rw [hw] at exited; cases exited

theorem Life.exit {config : Config} {s : State} (h : Life config s) (hw : s.worker = .exiting) :
    Life config { s with worker := .terminated } := by
  have hexited : s.worker.exited = true := by rw [hw]; rfl
  refine ⟨h.fresh, ?_⟩
  cases h.owner with
  | nobody _ worker => rw [hw] at worker; cases worker
  | creator hj =>
      exact .creator { hj with
        bits := hj.bits.trans hexited
        started := nofun
        note := hj.note.exit
        acquire := fun hc => ⟨(hj.acquire hc).1, (hj.acquire hc).2.exit⟩
        joined := fun _ => rfl }
  | worker _ _ runs => rw [hw] at runs; simp at runs
  | deleted once _ released => exact .deleted once rfl released

theorem Life.workerStep {config : Config} {s s' : State} (h : Life config s)
    (hs : s.workerStep config = some s') : Life config s' := by
  cases hw : s.worker with
  | absent | terminated => simp [State.workerStep, hw] at hs
  | entry => simp only [State.workerStep, hw] at hs; cases hs; exact h.entry hw
  | body => exact h.body hw hs
  | exiting => simp only [State.workerStep, hw] at hs; cases hs; exact h.exit hw

/-! ## Runs -/

theorem Life.call {config : Config} {s : State} (h : Life config s) (hc : s.creator = .ready)
    {next : Creator} (hnext : next = .joinCheck ∨ next = .detachCheck) :
    Life config { s with creator := next } := by
  have hreleased : Released config s → Released config { s with creator := next } := by
    rintro (⟨hx, -⟩ | ⟨hx, -⟩)
    · rw [hc] at hx; cases hx
    · exact .inr ⟨hx, hnext.elim (fun hn => .inr (.inl hn)) fun hn => .inr (.inr (.inl hn))⟩
  cases h.owner with
  | nobody creator => rw [hc] at creator; cases creator
  | creator hj =>
      refine (hj.goto next (by simp [hc]) ?_ ?_ ?_).life h.fresh <;>
        rcases hnext with rfl | rfl <;> simp
  | worker alive bits runs released =>
      exact ⟨h.fresh, .worker alive bits runs (hreleased released)⟩
  | deleted once exited released =>
      exact ⟨h.fresh, .deleted once exited (hreleased released)⟩

theorem Life.step {config : Config} {s s' : State} {a : Action} (h : Life config s)
    (hok : ReadsBeforeExit config s a) (hs : step config s a = some s') : Life config s' := by
  dsimp only [Thread.step] at hs
  obtain ⟨-, hs⟩ := Option.ite_none_left_eq_some.mp hs
  cases a with
  | creator => exact h.creatorStep hok hs
  | join =>
      obtain ⟨hc, hs⟩ := Option.ite_none_right_eq_some.mp hs
      cases hs
      exact h.call hc (.inl rfl)
  | detach =>
      obtain ⟨hc, hs⟩ := Option.ite_none_right_eq_some.mp hs
      cases hs
      exact h.call hc (.inr rfl)
  | notification a =>
      obtain ⟨hc, hs⟩ := Option.ite_none_right_eq_some.mp hs
      have hj : Joinable config s := h.joinable (by simp [hc.1])
      obtain ⟨hconfig, hwaits⟩ := hj.acquire hc.1
      rw [State.touch_of_alive hj.alive] at hs
      obtain ⟨n, hn, rfl⟩ := Option.map_eq_some_iff.mp hs
      obtain ⟨hnote, hwaits⟩ := hj.note.acquire_step hwaits hc.2 hn
      refine Joinable.life ?_ h.fresh
      exact { hj with
        note := hnote
        acquire := fun _ => ⟨hconfig, hwaits⟩
        idle := fun hx => absurd hc.1 hx }
  | worker =>
      obtain ⟨-, hs⟩ := Option.ite_none_left_eq_some.mp hs
      exact h.workerStep hs

/-- The read in the constructor of `Thread` finds a deleted context. -/
theorem stale_of_not_readsBeforeExit {config : Config} {s s' : State} {a : Action}
    (h : Life config s) (hs : step config s a = some s') (hbad : ¬ ReadsBeforeExit config s a) :
    ¬ Sound s' := by
  dsimp only [Thread.step] at hs
  obtain ⟨-, hs⟩ := Option.ite_none_left_eq_some.mp hs
  cases a with
  | join | detach | notification | worker => exact absurd trivial hbad
  | creator =>
      simp only [ReadsBeforeExit, Classical.not_imp, Bool.not_eq_false] at hbad
      obtain ⟨hc, hattr, hexited⟩ := hbad
      simp only [State.creatorStep, hc, Option.some.injEq] at hs
      subst hs
      have honce : s.deletions = 1 := by
        cases h.owner with
        | nobody creator => rw [hc] at creator; cases creator
        | creator hj => rw [hj.attr] at hattr; cases hattr
        | worker _ _ runs => rcases runs with hw | hw <;> rw [hw] at hexited <;> cases hexited
        | deleted once => exact once
      intro hx
      have hfresh := hx.fresh
      simp [State.touch, honce] at hfresh

/-- In both builds, for joinable and for detached threads, the context lives as long as it
is used in every state of a run exactly when the run has no late read by the constructor. -/
theorem sound_iff_readsBeforeExit (config : Config) (acts : List Action) :
    Always (step config) Sound init acts ↔
      Meets (step config) (ReadsBeforeExit config) init acts :=
  always_iff_meets (Life config) (fun _ _ _ h hok hs => h.step hok hs)
    (fun _ h => h.sound) (fun _ _ _ h hs hbad => stale_of_not_readsBeforeExit h hs hbad)
    (life_init config) acts

/-- The new thread has the higher priority and runs as soon as the kernel is unlocked. -/
def preempted : List Action := [.creator, .worker, .worker, .creator]

theorem preempted_not_sound :
    ¬ ∀ config acts s, run (step config) init acts = some s → Sound s := by
  intro h
  exact absurd (h ⟨false, true⟩ preempted _ rfl).fresh (by decide)

end OpenIotSdk.Thread
