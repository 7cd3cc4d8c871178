import OpenIotSdk.Library.Transition
import OpenIotSdk.Model.Netsocket.InternetSocket

/-! # The address family of a socket

`_iot_socket_af_type` and the family of the socket that the stack has created. -/

namespace OpenIotSdk.Netsocket.InternetSocket

open Transition

/-- A call that fails because of the version or of the creation changes none of the three. -/
def Unchanged (s t : InternetSocket) : Prop :=
  t.rejected = true → t.afType = s.afType ∧ t.id = s.id ∧ t.opened = s.opened

/-- What one call does to the family. -/
structure Consistent (s : InternetSocket) (_ : Action) (t : InternetSocket) : Prop where
  creates : ∀ code ∈ t.creates, ∃ family : Family, code = family.code
  family : t.id ≠ iotSocketIdInvalid → t.afType = t.iot.family
  unchanged : Unchanged s t

/-- The call of `verify_socket_type` in a call that does not set a timeout: the version, and the
answer of `iotSocketCreate`. -/
def Action.verifies (kind : Kind) : Action → Option (Version × ℤ)
  | .bind version reply _ => some (version, reply)
  | .connect version reply _ => if kind = .tcp then some (version, reply) else none
  | .sendto version reply _ => if kind = .udp then some (version, reply) else none
  | .recvfrom address reply _ => if kind = .udp then address.map (·, reply) else none
  | .sockopt _ reply _ => some (.unspec, reply)
  | .open _ | .close _ | .setTimeout .. | .setBlocking .. => none

/-- A timeout that is requested, with the answers of the stack. -/
structure Request where
  timeout : ℤ
  reply : ℤ
  rcv : ℤ
  snd : ℤ
  nbio : ℤ

def Action.request : Action → Option Request
  | .setTimeout timeout reply rcv snd nbio => some ⟨timeout, reply, rcv, snd, nbio⟩
  | .setBlocking blocking reply rcv snd nbio =>
      some ⟨if blocking then -1 else 0, reply, rcv, snd, nbio⟩
  | _ => none

/-- A timeout is set only on a socket that was opened or exists, and a creation fails only for
the family that the socket has already. -/
structure Settled (kind : Kind) (s : InternetSocket) (a : Action) : Prop where
  timeout : a.request ≠ none → s.opened = true ∨ s.id ≠ iotSocketIdInvalid
  creation : ∀ version reply, a.verifies kind = some (version, reply) →
    s.opened = true → s.id = iotSocketIdInvalid → reply < 0 → s.typeOf version = s.afType

/-! ## The invariant -/

structure Typed (s : InternetSocket) : Prop where
  creates : ∀ code ∈ s.creates, ∃ family : Family, code = family.code
  valid : s.id ≠ iotSocketIdInvalid →
    s.afType = s.iot.family ∧ ∃ family : Family, s.afType = family.code
  opened : s.opened = true → ∃ family : Family, s.afType = family.code
  closed : s.opened = false → s.id = iotSocketIdInvalid → s.afType = 0

variable {s t : InternetSocket} {kind : Kind} {version : Version} {reply : ℤ}

theorem typed_new (accepted : Option (ℕ × Family)) : (new accepted).Typed := by
  cases accepted with
  | none => exact ⟨nofun, fun hid => absurd rfl hid, nofun, fun _ _ => rfl⟩
  | some socket =>
      refine ⟨nofun, fun _ => ⟨rfl, socket.2, rfl⟩, nofun, fun _ hid => ?_⟩
      exact absurd (show (socket.1 : ℤ) = -1 from hid) (by omega)

theorem Typed.typeOf (h : s.Typed) (hopened : s.opened = true) (version : Version) :
    ∃ family : Family, s.typeOf version = family.code := by
  cases version with
  | unspec =>
      rw [InternetSocket.typeOf, if_pos hopened]
      exact h.opened hopened
  | ipv4 => exact ⟨.inet, rfl⟩
  | ipv6 => exact ⟨.inet6, rfl⟩

/-! ## `verify_socket_type` -/

theorem verifySocketType_cases (s : InternetSocket) (version : Version) (reply : ℤ) :
    (s.id ≠ iotSocketIdInvalid ∧
      s.verifySocketType version reply = (s, s.typeOf version == s.afType)) ∨
    (s.id = iotSocketIdInvalid ∧ s.opened = false ∧
      s.verifySocketType version reply = (s, false)) ∨
    (s.id = iotSocketIdInvalid ∧ s.opened = true ∧ 0 ≤ reply ∧
      s.verifySocketType version reply =
        ({ s with
            afType := s.typeOf version
            creates := s.creates ++ [s.typeOf version]
            id := reply
            iot := .create (s.typeOf version) }, true)) ∨
    (s.id = iotSocketIdInvalid ∧ s.opened = true ∧ reply < 0 ∧
      s.verifySocketType version reply =
        ({ s with
            afType := s.typeOf version
            creates := s.creates ++ [s.typeOf version] }, false)) := by
  by_cases hid : s.id = iotSocketIdInvalid
  · cases hopened : s.opened with
    | false => exact Or.inr (Or.inl ⟨hid, rfl, by simp [verifySocketType, hid, hopened]⟩)
    | true =>
        rcases lt_or_ge reply 0 with hreply | hreply
        · refine Or.inr (Or.inr (Or.inr ⟨hid, rfl, hreply, ?_⟩))
          simp [verifySocketType, hid, hopened, hreply.not_ge]
        · refine Or.inr (Or.inr (Or.inl ⟨hid, rfl, hreply, ?_⟩))
          simp [verifySocketType, hid, hopened, hreply]
  · exact Or.inl ⟨hid, by simp [verifySocketType, hid]⟩

theorem Typed.ret (h : s.Typed) (result : ℤ) : (s.ret result).Typed :=
  ⟨h.creates, h.valid, h.opened, h.closed⟩

theorem Typed.reject (h : s.Typed) (result : ℤ) : (s.reject result).Typed :=
  ⟨h.creates, h.valid, h.opened, h.closed⟩

theorem unchanged_ret {result : ℤ} : Unchanged s (t.ret result) := nofun

theorem unchanged_reject {result : ℤ} : Unchanged s (s.reject result) :=
  fun _ => ⟨rfl, rfl, rfl⟩

theorem Typed.creates_append (h : s.Typed) {code : ℕ}
    (hcode : ∃ family : Family, code = family.code) :
    ∀ c ∈ s.creates ++ [code], ∃ family : Family, c = family.code := by
  intro c hmem
  rcases List.mem_append.mp hmem with hmem | hmem
  · exact h.creates c hmem
  · rw [List.mem_singleton.mp hmem]
    exact hcode

/-- A call that needs a socket keeps the invariant. It can only go wrong where no socket can be
created. -/
theorem Typed.onSocket (h : s.Typed) (version : Version) (reply error rc : ℤ) :
    (s.onSocket version reply error rc).Typed ∧
      (Unchanged s (s.onSocket version reply error rc) ↔
        (s.opened = true → s.id = iotSocketIdInvalid → reply < 0 →
          s.typeOf version = s.afType)) := by
  dsimp only [InternetSocket.onSocket]
  obtain ⟨hid, hverify⟩ | ⟨hid, hopened, hverify⟩ | ⟨hid, hopened, hreply, hverify⟩ |
    ⟨hid, hopened, hreply, hverify⟩ := s.verifySocketType_cases version reply
  · rw [hverify]
    dsimp only
    have hvacuous : s.opened = true → s.id = iotSocketIdInvalid → reply < 0 →
        s.typeOf version = s.afType := fun _ heq => absurd heq hid
    split
    · exact ⟨h.ret _, iff_of_true unchanged_ret hvacuous⟩
    · exact ⟨h.reject _, iff_of_true unchanged_reject hvacuous⟩
  · rw [hverify]
    refine ⟨h.reject _, iff_of_true unchanged_reject fun htrue => ?_⟩
    cases htrue.symm.trans hopened
  · rw [hverify]
    have hcode := h.typeOf hopened version
    refine ⟨⟨h.creates_append hcode, fun _ => ⟨rfl, hcode⟩, fun _ => hcode, fun hfalse => ?_⟩,
      iff_of_true unchanged_ret fun _ _ hneg => absurd hreply hneg.not_ge⟩
    cases hopened.symm.trans hfalse
  · rw [hverify]
    have hcode := h.typeOf hopened version
    refine ⟨⟨h.creates_append hcode, fun hvalid => absurd hid hvalid, fun _ => hcode,
      fun hfalse => ?_⟩, fun hunchanged _ _ _ => (hunchanged rfl).1, fun hsame _ => ?_⟩
    · cases hopened.symm.trans hfalse
    · exact ⟨hsame hopened hid hreply, rfl, rfl⟩

/-! ## The other calls -/

theorem Typed.open (h : s.Typed) (version : Version) :
    (s.open version).Typed ∧ Unchanged s (s.open version) := by
  have hset : ∀ family : Family, ¬ (s.afType ≠ 0 ∧ s.afType ≠ family.code) →
      Typed { s with afType := family.code, opened := true } := by
    intro family hcompatible
    refine ⟨h.creates, fun hid => ?_, fun _ => ⟨family, rfl⟩, nofun⟩
    obtain ⟨hfamily, other, hother⟩ := h.valid hid
    -- The socket that exists has a family, and it is this one.
    have hne : s.afType ≠ 0 := by
      rw [hother]
      cases other <;> decide
    have heq : s.afType = family.code := by
      by_contra hdiff
      exact hcompatible ⟨hne, hdiff⟩
    exact ⟨heq.symm.trans hfamily, family, rfl⟩
  dsimp only [InternetSocket.open]
  split
  · exact ⟨h.ret _, unchanged_ret⟩
  · cases version with
    | unspec => exact ⟨h.reject _, unchanged_reject⟩
    | ipv4 =>
        dsimp only
        split
        · exact ⟨h.reject _, unchanged_reject⟩
        · next hcompatible => exact ⟨(hset .inet hcompatible).ret _, unchanged_ret⟩
    | ipv6 =>
        dsimp only
        split
        · exact ⟨h.reject _, unchanged_reject⟩
        · next hcompatible => exact ⟨(hset .inet6 hcompatible).ret _, unchanged_ret⟩

theorem Typed.close (h : s.Typed) (rc : ℤ) : (s.close rc).Typed ∧ Unchanged s (s.close rc) := by
  have hclosed : Typed (if rc = 0 then
      { s with opened := false, id := iotSocketIdInvalid, afType := 0 } else s) := by
    split
    · exact ⟨h.creates, fun hid => absurd rfl hid, nofun, fun _ _ => rfl⟩
    · exact h
  dsimp only [InternetSocket.close]
  split
  · exact ⟨⟨hclosed.creates, hclosed.valid, hclosed.opened, hclosed.closed⟩, unchanged_ret⟩
  · exact ⟨hclosed.ret _, unchanged_ret⟩

/-! ## `set_timeout` -/

structure SameSocket (s t : InternetSocket) : Prop where
  id : t.id = s.id
  afType : t.afType = s.afType
  opened : t.opened = s.opened
  creates : t.creates = s.creates
  family : t.iot.family = s.iot.family

theorem SameSocket.typed (h : SameSocket s t) (hs : s.Typed) : t.Typed := by
  refine ⟨?_, ?_, ?_, ?_⟩
  · rw [h.creates]
    exact hs.creates
  · rw [h.id, h.afType, h.family]
    exact hs.valid
  · rw [h.opened, h.afType]
    exact hs.opened
  · rw [h.opened, h.id, h.afType]
    exact hs.closed

theorem sameSocket_setOpt (s : InternetSocket) (rc : ℤ) {set : IotSocket → IotSocket}
    (hset : (set s.iot).family = s.iot.family) : SameSocket s (s.setOpt rc set) := by
  dsimp only [setOpt]
  split
  · exact ⟨rfl, rfl, rfl, rfl, hset⟩
  · exact ⟨rfl, rfl, rfl, rfl, rfl⟩

theorem SameSocket.trans {u : InternetSocket} (h : SameSocket s t) (h' : SameSocket t u) :
    SameSocket s u :=
  ⟨h'.id.trans h.id, h'.afType.trans h.afType, h'.opened.trans h.opened,
    h'.creates.trans h.creates, h'.family.trans h.family⟩

theorem setTimeoutOpts_zero (s : InternetSocket) (rcv snd nbio : ℤ) :
    s.setTimeoutOpts 0 rcv snd nbio =
      setOpt { s with timeout := 0 } nbio fun iot => { iot with nonblocking := false } := rfl

theorem setTimeoutOpts_of_ne (s : InternetSocket) {timeout : ℤ} (h : timeout ≠ 0)
    (rcv snd nbio : ℤ) :
    s.setTimeoutOpts timeout rcv snd nbio =
      ((setOpt { s with timeout := timeoutValue timeout } rcv fun iot =>
        { iot with rcvTimeout := timeoutValue timeout }).setOpt snd fun iot =>
        { iot with sndTimeout := timeoutValue timeout }).setOpt nbio fun iot =>
        { iot with nonblocking := true } := by
  simp [setTimeoutOpts, h]

theorem sameSocket_setTimeoutOpts (s : InternetSocket) (timeout rcv snd nbio : ℤ) :
    SameSocket s (s.setTimeoutOpts timeout rcv snd nbio) := by
  have hvalue (value : ℕ) : SameSocket s { s with timeout := value } := ⟨rfl, rfl, rfl, rfl, rfl⟩
  rcases eq_or_ne timeout 0 with rfl | hne
  · rw [setTimeoutOpts_zero]
    exact (hvalue 0).trans (sameSocket_setOpt _ nbio rfl)
  · rw [setTimeoutOpts_of_ne s hne]
    refine SameSocket.trans ?_ (sameSocket_setOpt _ nbio rfl)
    refine SameSocket.trans ?_ (sameSocket_setOpt _ snd rfl)
    exact (hvalue _).trans (sameSocket_setOpt _ rcv rfl)

/-- The options are set on the socket that exists or on a new one of the same family; or none can
be created. -/
theorem setTimeout_cases (s : InternetSocket) (timeout reply rcv snd nbio : ℤ) :
    (s.id ≠ iotSocketIdInvalid ∧ s.setTimeout timeout reply rcv snd nbio =
      (setTimeoutOpts { s with requested := some timeout } timeout rcv snd nbio).ret 0) ∨
    (s.id = iotSocketIdInvalid ∧ 0 ≤ reply ∧ s.setTimeout timeout reply rcv snd nbio =
      (setTimeoutOpts { s with
        requested := some timeout
        creates := s.creates ++ [s.afType]
        id := reply
        iot := .create s.afType } timeout rcv snd nbio).ret 0) ∨
    (s.id = iotSocketIdInvalid ∧ reply < 0 ∧ s.setTimeout timeout reply rcv snd nbio =
      reject { s with requested := some timeout, creates := s.creates ++ [s.afType] } 0) := by
  let u : InternetSocket := { s with opened := true, requested := some timeout }
  dsimp only [InternetSocket.setTimeout]
  obtain ⟨hid, hverify⟩ | ⟨-, hfalse, -⟩ | ⟨hid, -, hreply, hverify⟩ | ⟨hid, -, hreply, hverify⟩ :=
    u.verifySocketType_cases .unspec reply
  · have hok : (u.typeOf .unspec == u.afType) = true := beq_self_eq_true s.afType
    refine Or.inl ⟨hid, ?_⟩
    rw [hverify]
    dsimp only
    rw [if_pos hok]
  · cases hfalse
  · refine Or.inr (Or.inl ⟨hid, hreply, ?_⟩)
    rw [hverify]
    rfl
  · refine Or.inr (Or.inr ⟨hid, hreply, ?_⟩)
    rw [hverify]
    rfl

theorem Typed.setTimeout (h : s.Typed) (hsettled : s.opened = true ∨ s.id ≠ iotSocketIdInvalid)
    (timeout reply rcv snd nbio : ℤ) :
    (s.setTimeout timeout reply rcv snd nbio).Typed ∧
      Unchanged s (s.setTimeout timeout reply rcv snd nbio) := by
  obtain ⟨hid, heq⟩ | ⟨hid, -, heq⟩ | ⟨hid, -, heq⟩ :=
    s.setTimeout_cases timeout reply rcv snd nbio
  · rw [heq]
    refine ⟨?_, unchanged_ret⟩
    apply Typed.ret
    exact (sameSocket_setTimeoutOpts _ timeout rcv snd nbio).typed
      ⟨h.creates, h.valid, h.opened, h.closed⟩
  · rw [heq]
    have hopened : s.opened = true := hsettled.resolve_right (not_not.mpr hid)
    have hcode := h.opened hopened
    refine ⟨?_, unchanged_ret⟩
    apply Typed.ret
    refine (sameSocket_setTimeoutOpts _ timeout rcv snd nbio).typed
      ⟨h.creates_append hcode, fun _ => ⟨rfl, hcode⟩, fun _ => hcode, fun hfalse => ?_⟩
    cases hopened.symm.trans hfalse
  · rw [heq]
    have hopened : s.opened = true := hsettled.resolve_right (not_not.mpr hid)
    have hcode := h.opened hopened
    refine ⟨?_, fun _ => ⟨rfl, rfl, rfl⟩⟩
    refine ⟨h.creates_append hcode, fun hvalid => absurd hid hvalid, fun _ => hcode,
      fun hfalse => ?_⟩
    cases hopened.symm.trans hfalse

theorem Typed.setTimeout_early (h : s.Typed) (hopened : s.opened = false)
    (hid : s.id = iotSocketIdInvalid) (timeout reply rcv snd nbio : ℤ) :
    0 ∈ (s.setTimeout timeout reply rcv snd nbio).creates := by
  have htype : s.afType = 0 := h.closed hopened hid
  have hmem : 0 ∈ s.creates ++ [s.afType] := by simp [htype]
  obtain ⟨hvalid, -⟩ | ⟨-, -, heq⟩ | ⟨-, -, heq⟩ := s.setTimeout_cases timeout reply rcv snd nbio
  · exact absurd hid hvalid
  · rw [heq]
    change 0 ∈ (InternetSocket.setTimeoutOpts _ timeout rcv snd nbio).creates
    rw [(sameSocket_setTimeoutOpts _ timeout rcv snd nbio).creates]
    exact hmem
  · rw [heq]
    exact hmem

/-! ## Runs -/

theorem Typed.consistent (ht : t.Typed) (a : Action) (hunchanged : Unchanged s t) :
    Consistent s a t :=
  ⟨ht.creates, fun hid => (ht.valid hid).1, hunchanged⟩

theorem step_call {a : Action} (ha : a.request = none) (hs : step kind s a = some t) :
    (∃ version reply, a.verifies kind = some (version, reply) ∧
      ((∃ error rc, t = s.onSocket version reply error rc) ∨
        s.opened = false ∧ ∃ result, t = s.ret result)) ∨
    (a.verifies kind = none ∧
      ((∃ version, t = s.open version) ∨ (∃ rc, t = s.close rc) ∨ ∃ result, t = s.ret result)) := by
  obtain ⟨-, hs⟩ := Option.ite_none_left_eq_some.mp hs
  cases a with
  | «open» version =>
      cases hs
      exact Or.inr ⟨rfl, Or.inl ⟨version, rfl⟩⟩
  | close rc =>
      cases hs
      exact Or.inr ⟨rfl, Or.inr (Or.inl ⟨rc, rfl⟩)⟩
  | bind version reply rc =>
      cases hs
      refine Or.inl ⟨version, reply, rfl, ?_⟩
      dsimp only [InternetSocket.bind]
      split
      · next hopened => exact Or.inr ⟨hopened, _, rfl⟩
      · exact Or.inl ⟨_, rc, rfl⟩
  | connect version reply rc =>
      cases hs
      cases kind with
      | tcp =>
          refine Or.inl ⟨version, reply, rfl, ?_⟩
          dsimp only [InternetSocket.connect]
          split
          · next hopened => exact Or.inr ⟨hopened, _, rfl⟩
          · exact Or.inl ⟨_, rc, rfl⟩
      | udp => exact Or.inr ⟨rfl, Or.inr (Or.inr ⟨_, rfl⟩)⟩
  | sendto version reply rc =>
      cases hs
      cases kind with
      | tcp => exact Or.inr ⟨rfl, Or.inr (Or.inr ⟨_, rfl⟩)⟩
      | udp => exact Or.inl ⟨version, reply, rfl, Or.inl ⟨_, rc, rfl⟩⟩
  | recvfrom address reply rc =>
      cases hs
      cases kind with
      | tcp => exact Or.inr ⟨rfl, Or.inr (Or.inr ⟨_, rfl⟩)⟩
      | udp =>
          cases address with
          | none => exact Or.inr ⟨rfl, Or.inr (Or.inr ⟨_, rfl⟩)⟩
          | some version => exact Or.inl ⟨version, reply, rfl, Or.inl ⟨_, rc, rfl⟩⟩
  | sockopt keepalive reply rc =>
      cases hs
      exact Or.inl ⟨.unspec, reply, rfl, Or.inl ⟨_, _, rfl⟩⟩
  | setTimeout timeout reply rcv snd nbio => cases ha
  | setBlocking blocking reply rcv snd nbio => cases ha

theorem Typed.call (h : s.Typed) {a : Action} (ha : a.request = none)
    (hs : step kind s a = some t) : t.Typed ∧ (Unchanged s t ↔ Settled kind s a) := by
  obtain ⟨version, reply, hverifies, hcall⟩ | ⟨hnone, hcall⟩ := step_call ha hs
  · have hiff : Settled kind s a ↔ (s.opened = true → s.id = iotSocketIdInvalid → reply < 0 →
        s.typeOf version = s.afType) := by
      refine ⟨fun hsettled => hsettled.creation version reply hverifies, fun hcreation => ⟨?_, ?_⟩⟩
      · exact fun hne => absurd ha hne
      · intro version' reply' heq
        cases hverifies.symm.trans heq
        exact hcreation
    rw [hiff]
    obtain ⟨error, rc, rfl⟩ | ⟨hopened, result, rfl⟩ := hcall
    · exact h.onSocket version reply error rc
    · refine ⟨h.ret _, iff_of_true unchanged_ret fun htrue => ?_⟩
      cases htrue.symm.trans hopened
  · have hsettled : Settled kind s a :=
      ⟨fun hne => absurd ha hne, fun _ _ heq => by cases hnone.symm.trans heq⟩
    obtain ⟨version, rfl⟩ | ⟨rc, rfl⟩ | ⟨result, rfl⟩ := hcall
    · exact (h.open version).imp_right fun hsame => iff_of_true hsame hsettled
    · exact (h.close rc).imp_right fun hsame => iff_of_true hsame hsettled
    · exact ⟨h.ret _, iff_of_true unchanged_ret hsettled⟩

theorem verifies_of_request {a : Action} {r : Request} (ha : a.request = some r) :
    a.verifies kind = none := by
  cases a <;> first | rfl | cases ha

theorem step_request {a : Action} {r : Request} (ha : a.request = some r)
    (hs : step kind s a = some t) : t = s.setTimeout r.timeout r.reply r.rcv r.snd r.nbio := by
  obtain ⟨-, hs⟩ := Option.ite_none_left_eq_some.mp hs
  cases a with
  | setTimeout timeout reply rcv snd nbio =>
      cases ha
      cases hs
      rfl
  | setBlocking blocking reply rcv snd nbio =>
      cases ha
      cases hs
      rfl
  | _ => cases ha

theorem Typed.step {a : Action} (h : s.Typed) (hok : Settled kind s a)
    (hs : step kind s a = some t) : t.Typed ∧ Consistent s a t := by
  cases ha : a.request with
  | some r =>
      obtain ⟨ht, hsame⟩ := h.setTimeout (hok.timeout (by simp [ha])) r.timeout r.reply r.rcv r.snd
        r.nbio
      rw [step_request ha hs]
      exact ⟨ht, ht.consistent a hsame⟩
  | none =>
      obtain ⟨ht, hsame⟩ := h.call ha hs
      exact ⟨ht, ht.consistent a (hsame.mpr hok)⟩

theorem Typed.not_consistent {a : Action} (h : s.Typed) (hs : InternetSocket.step kind s a = some t)
    (hok : ¬ Settled kind s a) : ¬ Consistent s a t := by
  intro hconsistent
  cases ha : a.request with
  | some r =>
      rw [step_request ha hs] at hconsistent
      refine hok ⟨fun _ => ?_, fun version reply heq => ?_⟩
      · by_contra hearly
        obtain ⟨hopened, hid⟩ := not_or.mp hearly
        have hmem := h.setTimeout_early (Bool.eq_false_iff.mpr hopened) (not_not.mp hid) r.timeout
          r.reply r.rcv r.snd r.nbio
        obtain ⟨family, hfamily⟩ := hconsistent.creates 0 hmem
        cases family <;> cases hfamily
      · cases (verifies_of_request ha).symm.trans heq
  | none => exact hok ((h.call ha hs).2.mp hconsistent.unchanged)

/-- Whatever is called in whatever order, on a new or an accepted socket: each call is right
exactly if no timeout is set on a socket that is neither open nor there, and no creation fails
for another family than the one that is set. -/
theorem consistent_iff_settled (kind : Kind) (accepted : Option (ℕ × Family))
    (acts : List Action) :
    Steps (step kind) Consistent (new accepted) acts ↔
      Meets (step kind) (Settled kind) (new accepted) acts := by
  apply steps_iff_meets Typed
  · exact fun _ _ _ h hok hs => (h.step hok hs).1
  · exact fun _ _ _ h hok hs => (h.step hok hs).2
  · exact fun _ _ _ h hs hok => h.not_consistent hs hok
  · exact typed_new accepted

/-- A timeout before `open` asks for a socket of family 0. -/
theorem earlyTimeout_not_consistent :
    ¬ ∀ acts, Steps (step .udp) Consistent (new none) acts := by
  intro h
  have hstep := (h [.setTimeout 1000 3 0 0 0] _ rfl).1
  obtain ⟨family, hfamily⟩ := hstep.creates 0 (by decide)
  cases family <;> cases hfamily

end OpenIotSdk.Netsocket.InternetSocket
