import OpenIotSdk.Library.Transition
import OpenIotSdk.Model.Lwip.EmacEvent

/-! # The netif flag and the physical link

What counts is the flag that the outstanding callbacks will leave. An event turns it the right
way only if it finds the netif in step with the physical link and gets its callback posted. -/

namespace OpenIotSdk.Lwip.EmacEvent

open Transition

structure Settled (s : State) : Prop where
  posting : s.posting = none
  queue : s.queue = []

/-- Once no callback is outstanding, the netif flag is the physical link state. -/
def Follows (s : State) : Prop := Settled s → s.linkUp = s.physical

/-- An event finds the netif flag equal to the physical link state, which it then changes,
and its callback is posted. -/
def InStep (s : State) : Action → Prop
  | .event => s.linkUp = s.physical
  | .post ok => ok = true
  | .execute => True

instance (s : State) (a : Action) : Decidable (InStep s a) :=
  match a with
  | .event => inferInstanceAs (Decidable (_ = _))
  | .post ok => inferInstanceAs (Decidable (ok = true))
  | .execute => isTrue trivial

/-! ## The outstanding callbacks -/

/-- The flag after all the callbacks of a queue. -/
def flagAfter (flag : Bool) : List Callback → Bool
  | [] => flag
  | callback :: queue => flagAfter callback.flag queue

theorem flagAfter_append (flag : Bool) (queue queue' : List Callback) :
    flagAfter flag (queue ++ queue') = flagAfter (flagAfter flag queue) queue' := by
  induction queue generalizing flag with
  | nil => rfl
  | cons callback queue ih => exact ih callback.flag

/-- The flag that the netif will have once no callback is outstanding. -/
def State.target (s : State) : Bool := flagAfter s.linkUp (s.queue ++ s.posting.toList)

theorem target_of_settled {s : State} (h : Settled s) : s.target = s.linkUp := by
  rw [State.target, h.posting, h.queue]
  rfl

/-- The handler asks for the opposite of the flag it reads. -/
theorem target_event {s t : State} (hs : step s .event = some t) :
    t.target = !s.linkUp ∧ t.physical = !s.physical := by
  obtain ⟨-, hs⟩ := Option.ite_none_right_eq_some.mp hs
  cases hs
  refine ⟨?_, rfl⟩
  dsimp only [State.target, Option.toList]
  rw [flagAfter_append]
  cases s.linkUp <;> rfl

theorem target_post {s t : State} (hs : step s (.post true) = some t) :
    t.target = s.target ∧ t.physical = s.physical := by
  obtain ⟨callback, hposting, hs⟩ := Option.map_eq_some_iff.mp hs
  cases hs
  refine ⟨?_, rfl⟩
  simp [State.target, hposting]

theorem target_execute {s t : State} (hs : step s .execute = some t) :
    t.target = s.target ∧ t.physical = s.physical := by
  dsimp only [step, State.execute] at hs
  cases hqueue : s.queue with
  | nil =>
      rw [hqueue] at hs
      cases hs
  | cons callback queue =>
      rw [hqueue] at hs
      cases hs
      refine ⟨?_, rfl⟩
      simp [State.target, hqueue, flagAfter]

theorem target_run {s t : State} {acts : List Action} (hr : run step s acts = some t)
    (hacts : .event ∉ acts) (hposts : .post false ∉ acts) :
    t.target = s.target ∧ t.physical = s.physical := by
  induction acts generalizing s with
  | nil =>
      cases hr
      exact ⟨rfl, rfl⟩
  | cons a acts ih =>
      obtain ⟨hne, hacts⟩ := not_or.mp (mt List.mem_cons.mpr hacts)
      obtain ⟨hpost, hposts⟩ := not_or.mp (mt List.mem_cons.mpr hposts)
      obtain ⟨u, hu, hr⟩ := Option.bind_eq_some_iff.mp hr
      have hrest : t.target = u.target ∧ t.physical = u.physical := ih hr hacts hposts
      have hfirst : u.target = s.target ∧ u.physical = s.physical := by
        cases a with
        | event => exact absurd rfl hne
        | post ok =>
            cases ok with
            | false => exact absurd rfl hpost
            | true => exact target_post hu
        | execute => exact target_execute hu
      exact ⟨hrest.1.trans hfirst.1, hrest.2.trans hfirst.2⟩

/-! ## Runs -/

def WillFollow (s : State) : Prop := s.target = s.physical

theorem WillFollow.step {s t : State} {a : Action} (h : WillFollow s) (hok : InStep s a)
    (hs : EmacEvent.step s a = some t) : WillFollow t := by
  cases a with
  | event =>
      obtain ⟨htarget, hphysical⟩ := target_event hs
      rw [WillFollow, htarget, hphysical]
      exact congrArg not hok
  | post ok =>
      cases hok
      obtain ⟨htarget, hphysical⟩ := target_post hs
      rw [WillFollow, htarget, hphysical]
      exact h
  | execute =>
      obtain ⟨htarget, hphysical⟩ := target_execute hs
      rw [WillFollow, htarget, hphysical]
      exact h

theorem WillFollow.follows {s : State} (h : WillFollow s) : Follows s := by
  intro hsettled
  rw [← target_of_settled hsettled]
  exact h

/-- In any interleaving of events and callbacks: the netif flag follows the physical link
if every event finds it in step and gets its callback posted, and where the callback of the
last event has run it is the physical link state if and only if that event found it in step. -/
theorem linkUp_follows_of_inStep (link : Bool) :
    (∀ acts, Meets step InStep (init link) acts → Always step Follows (init link) acts) ∧
      ∀ front rest s u t, run step (init link) front = some s → step s .event = some u →
        run step u rest = some t → .event ∉ rest → .post false ∉ rest → Settled t →
        (t.linkUp = t.physical ↔ InStep s .event) := by
  constructor
  · intro acts hm
    have hinit : WillFollow (init link) := rfl
    apply Always.of_invariant WillFollow _ _ hinit hm
    · exact fun s a t h hok hs => h.step hok hs
    · exact fun s h => h.follows
  · intro _ rest s u t _ hu hr hrest hposts hsettled
    obtain ⟨htarget, hphysical⟩ := target_event hu
    obtain ⟨htarget', hphysical'⟩ := target_run hr hrest hposts
    rw [← target_of_settled hsettled, htarget', hphysical', htarget, hphysical]
    exact Bool.not_inj_iff

/-- The link goes down, and the netif after it. -/
theorem oneChange_follows :
    Always step Follows (init true) [.event, .post true, .execute] :=
  (linkUp_follows_of_inStep true).1 _ (by decide)

/-- The link goes down and up again before the tcpip thread runs. -/
def quickFlap : List Action := [.event, .post true, .event, .post true, .execute, .execute]

theorem quickFlap_not_follows :
    ¬ ∀ link acts s, run step (init link) acts = some s → Follows s := by
  intro h
  have hflag : false = true := h true quickFlap _ rfl ⟨rfl, rfl⟩
  cases hflag

end OpenIotSdk.Lwip.EmacEvent
