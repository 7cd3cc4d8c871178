import OpenIotSdk.Library.Transition
import OpenIotSdk.Model.Netsocket.InternetSocket

/-! # Closing a socket

`close` is meant to bring the object back to where it was before `open`. -/

namespace OpenIotSdk.Netsocket.InternetSocket

open Transition

/-- What `iotSocketClose` answers: success for a valid id, and an error for the invalid one. -/
structure CloseAnswer (s : InternetSocket) (rc : ℤ) : Prop where
  valid : s.id ≠ iotSocketIdInvalid → rc = 0
  invalid : s.id = iotSocketIdInvalid → rc < 0

/-- The object is as before `open`, and can be opened for either version. -/
structure Reopenable (kind : Kind) (t : InternetSocket) : Prop where
  opened : t.opened = false
  id : t.id = iotSocketIdInvalid
  afType : t.afType = 0
  reopens : ∀ version, version ≠ .unspec →
    ∃ u, step kind t (.open version) = some u ∧ u.opened = true ∧ u.result = nsapiErrorOk

/-- What the call leaves, if it closes an open socket. -/
def Closes (kind : Kind) (s : InternetSocket) (a : Action) (t : InternetSocket) : Prop :=
  ∀ rc, a = .close rc → s.opened = true → CloseAnswer s rc → Reopenable kind t

/-- An open socket is closed only once the stack has created its socket, and if it is no
accepted one, which `close` deletes. -/
def Created (s : InternetSocket) (a : Action) : Prop :=
  ∀ rc, a = .close rc → s.opened = true → CloseAnswer s rc →
    s.id ≠ iotSocketIdInvalid ∧ s.factoryAllocated = false

variable {kind : Kind} {s t : InternetSocket} {rc : ℤ}

theorem reopenable_of_reset (hlive : t.deleted = false) (hopened : t.opened = false)
    (hid : t.id = iotSocketIdInvalid) (hfamily : t.afType = 0) : Reopenable kind t := by
  refine ⟨hopened, hid, hfamily, fun version hversion => ?_⟩
  cases version with
  | unspec => exact absurd rfl hversion
  | ipv4 | ipv6 =>
      refine ⟨_, if_neg (by simp [hlive]), ?_⟩
      simp [InternetSocket.open, hopened, hfamily, ret]

/-- `close` resets the object exactly if `iotSocketClose` succeeds and the object stays. -/
theorem close_reopenable_iff (hopened : s.opened = true) (hs : step kind s (.close rc) = some t) :
    Reopenable kind t ↔ rc = 0 ∧ s.factoryAllocated = false := by
  obtain ⟨hlive, hs⟩ := Option.ite_none_left_eq_some.mp hs
  cases hs
  by_cases hfactory : s.factoryAllocated = true
  · -- The object has been deleted, so that it cannot be opened again.
    refine iff_of_false (fun h => ?_) fun h => ?_
    · obtain ⟨u, hu, -⟩ := h.reopens .ipv4 nofun
      simp [step, close, hfactory, ret] at hu
    · cases hfactory.symm.trans h.2
  · rw [Bool.not_eq_true] at hfactory hlive
    by_cases hrc : rc = 0
    · refine iff_of_true ?_ ⟨hrc, hfactory⟩
      apply reopenable_of_reset <;> simp [close, hfactory, hrc, hlive, ret]
    · refine iff_of_false (fun h => ?_) fun h => hrc h.1
      have hsame : (s.close rc).opened = s.opened := by simp [close, hfactory, hrc, ret]
      cases (hsame.trans hopened).symm.trans h.opened

theorem closes_iff_created {a : Action} (hs : step kind s a = some t) :
    Closes kind s a t ↔ Created s a := by
  refine forall_congr' fun rc => forall_congr' fun ha => forall_congr' fun hopened =>
    forall_congr' fun hrc => ?_
  subst ha
  rw [close_reopenable_iff hopened hs]
  refine and_congr_left fun _ => ⟨fun hzero hid => ?_, hrc.valid⟩
  exact absurd hzero (hrc.invalid hid).ne

/-- Whatever was called in whatever order, on a new or an accepted socket: each `close` of an open
socket brings it back to its initial state exactly if its socket has been created by then. -/
theorem reopenable_iff_created (kind : Kind) (accepted : Option (ℕ × Family))
    (acts : List Action) :
    Steps (step kind) (Closes kind) (new accepted) acts ↔
      Meets (step kind) Created (new accepted) acts := by
  apply steps_iff_meets fun _ => True
  · exact fun _ _ _ _ _ _ => trivial
  · exact fun _ _ _ _ hok hs => (closes_iff_created hs).mpr hok
  · exact fun _ _ _ _ hs hok h => hok ((closes_iff_created hs).mp h)
  · trivial

/-- A socket that is closed before anything was sent stays open. -/
theorem unusedClose_not_reopenable :
    ¬ ∀ acts, Steps (step .udp) (Closes .udp) (new none) acts := by
  intro h
  have hclose := ((h [.open .ipv4, .close iotSocketEsock] _ rfl).2 _ rfl).1
  have hreopenable := hclose _ rfl rfl ⟨fun hid => absurd rfl hid, fun _ => by decide⟩
  cases hreopenable.opened

end OpenIotSdk.Netsocket.InternetSocket
