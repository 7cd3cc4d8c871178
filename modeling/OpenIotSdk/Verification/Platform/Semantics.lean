import OpenIotSdk.Library.Transition
import OpenIotSdk.Model.Azure.Platform

/-! # The calls and the callbacks of the platform

`platform_init` and `platform_deinit` own all of the state but the network's, the two flags and
what the callbacks do with them. -/

namespace OpenIotSdk.Azure.Platform

/-! ## What the callbacks leave alone -/

/-- The part of the state that the callbacks read at most. -/
structure Main where
  flags : Ntp.Handle
  lock : Ntp.Handle
  ntp : Bool
  listening : Bool
  started : Bool
  pc : Pc
  initialising : Bool
  res : ℤ
  result : Option ℤ
  seen : Bool
  cleaned : Bool
  own : Resources

def main (s : Platform) : Main where
  flags := s.flags
  lock := s.lock
  ntp := s.ntp
  listening := s.listening
  started := s.started
  pc := s.pc
  initialising := s.initialising
  res := s.res
  result := s.result
  seen := s.seen
  cleaned := s.cleaned
  own := s.own

/-- The action is a callback's. -/
def Action.Late : Action → Prop
  | .network .. | .callback _ | .listener _ => True
  | .init | .deinit | .main _ => False

variable {b : Build} {s t : Platform}

theorem networkStateCallback_main (s : Platform) (up : Bool) (res : ℤ) :
    (s.networkStateCallback up res).main = s.main := by
  dsimp only [networkStateCallback]
  split
  · split <;> rfl
  · rfl

theorem callbackAdvance_main {res : ℤ} (hs : s.callbackAdvance res = some t) :
    t.main = s.main := by
  cases hcallback : s.callback with
  | idle => simp [callbackAdvance, hcallback] at hs
  | set =>
      simp only [callbackAdvance, hcallback, Option.some.injEq] at hs
      subst hs
      split <;> rfl
  | release =>
      simp only [callbackAdvance, hcallback, Option.some.injEq] at hs
      subst hs
      rfl

theorem ntpListenerCallback_main (s : Platform) (res : ℤ) :
    (s.ntpListenerCallback res).main = s.main := by
  dsimp only [ntpListenerCallback]
  split <;> rfl

theorem step_late_main {a : Action} (hs : step b s a = some t) (ha : a.Late) :
    t.main = s.main := by
  cases a with
  | init => exact ha.elim
  | deinit => exact ha.elim
  | main res => exact ha.elim
  | network up res =>
      obtain ⟨-, hs⟩ := Option.ite_none_right_eq_some.mp hs
      cases hs
      exact networkStateCallback_main s up res
  | callback res => exact callbackAdvance_main hs
  | listener res =>
      obtain ⟨-, hs⟩ := Option.ite_none_right_eq_some.mp hs
      cases hs
      exact ntpListenerCallback_main s res

/-! ## The deletions -/

theorem deleteLock_zero (h : s.lock = .live) :
    s.deleteLock 0 =
      { s with lock := .deleted, held := false, own := { s.own with lock := false } } := by
  rw [deleteLock, if_pos ⟨h, rfl⟩]

theorem deleteFlags_zero (h : s.flags = .live) :
    s.deleteFlags 0 = { s with flags := .deleted, own := { s.own with flags := false } } := by
  rw [deleteFlags, if_pos ⟨h, rfl⟩]

theorem deleteLock_of_ne {res : ℤ} (hres : res ≠ 0) (s : Platform) :
    s.deleteLock res = s.use s.lock :=
  if_neg fun h => hres h.2

theorem deleteFlags_of_ne {res : ℤ} (hres : res ≠ 0) (s : Platform) :
    s.deleteFlags res = s.use s.flags :=
  if_neg fun h => hres h.2

end OpenIotSdk.Azure.Platform
