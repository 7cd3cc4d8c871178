import OpenIotSdk.Verification.Netsocket.Family

/-! # The blocking mode of a socket

What the user has requested, and the options of the socket that the stack has created. -/

namespace OpenIotSdk.Netsocket.InternetSocket

open Transition

/-- The options of the socket are what the user has requested, if there is one. -/
structure Honoured (s : InternetSocket) : Prop where
  blocking : s.id ≠ iotSocketIdInvalid → (s.iot.nonblocking = true ↔ s.requested = some 0)
  timeouts : s.id ≠ iotSocketIdInvalid → ∀ timeout, s.requested = some timeout → timeout ≠ 0 →
    s.iot.rcvTimeout = timeoutValue timeout ∧ s.iot.sndTimeout = timeoutValue timeout

/-- A timeout other than 0 is set, and the stack refuses to set `IOT_SOCKET_IO_FIONBIO`. -/
def Refused (s : InternetSocket) (r : Request) : Prop :=
  r.timeout ≠ 0 ∧ r.nbio ≠ 0 ∧
    (r.rcv = 0 ∨ s.id ≠ iotSocketIdInvalid ∧ s.iot.rcvTimeout = timeoutValue r.timeout) ∧
    (r.snd = 0 ∨ s.id ≠ iotSocketIdInvalid ∧ s.iot.sndTimeout = timeoutValue r.timeout)

/-- No timeout is requested for a socket that exists, or exists then, unless the stack refuses
the mode; and a socket is created only as long as none has been requested. -/
structure Undemanding (kind : Kind) (s : InternetSocket) (a : Action) : Prop where
  timeout : ∀ r, a.request = some r → s.id ≠ iotSocketIdInvalid ∨ 0 ≤ r.reply → Refused s r
  creation : ∀ version reply, a.verifies kind = some (version, reply) →
    s.opened = true → s.id = iotSocketIdInvalid → 0 ≤ reply → s.requested = none

/-- The invariant: a socket stays as blocking as it is created. -/
structure Untouched (s : InternetSocket) : Prop extends s.Honoured where
  created : s.id ≠ iotSocketIdInvalid → s.iot.nonblocking = false

variable {s t : InternetSocket} {kind : Kind}

theorem timeoutValue_ne_zero {timeout : ℤ} (h : timeout ≠ 0) : timeoutValue timeout ≠ 0 := by
  dsimp only [timeoutValue, osWaitForever]
  split <;> omega

theorem untouched_new (accepted : Option (ℕ × Family)) : (new accepted).Untouched := by
  cases accepted with
  | none => exact ⟨⟨fun hid => absurd rfl hid, fun hid => absurd rfl hid⟩, fun _ => rfl⟩
  | some socket => exact ⟨⟨fun _ => ⟨nofun, nofun⟩, nofun⟩, fun _ => rfl⟩

/-- Calls that leave the socket, its options and the request alone, or close it. -/
theorem Untouched.congr (h : s.Untouched)
    (hid : t.id = iotSocketIdInvalid ∨ t.id = s.id ∧ t.iot = s.iot ∧ t.requested = s.requested) :
    t.Untouched := by
  rcases hid with hid | ⟨hid, hiot, hrequested⟩
  · exact ⟨⟨fun hvalid => absurd hid hvalid, fun hvalid => absurd hid hvalid⟩,
      fun hvalid => absurd hid hvalid⟩
  · refine ⟨⟨?_, ?_⟩, ?_⟩
    · rw [hid, hiot, hrequested]
      exact h.blocking
    · rw [hid, hiot, hrequested]
      exact h.timeouts
    · rw [hid, hiot]
      exact h.created

theorem honoured_create_iff {code : ℕ} (hid : t.id ≠ iotSocketIdInvalid)
    (hiot : t.iot = .create code) : t.Honoured ↔ t.requested = none := by
  constructor
  · intro h
    have hblocking := h.blocking hid
    rw [hiot] at hblocking
    cases hrequested : t.requested with
    | none => rfl
    | some timeout =>
        have hne : timeout ≠ 0 := by
          rintro rfl
          cases hblocking.mpr hrequested
        have hrcv := (h.timeouts hid timeout hrequested hne).1
        rw [hiot] at hrcv
        exact absurd hrcv.symm (timeoutValue_ne_zero hne)
  · intro hrequested
    refine ⟨fun _ => ?_, fun _ timeout heq => ?_⟩
    · rw [hiot, hrequested]
      exact ⟨nofun, nofun⟩
    · cases hrequested.symm.trans heq

/-! ## The calls that set no timeout -/

theorem onSocket_iot (s : InternetSocket) (version : Version) (reply error rc : ℤ) :
    (s.opened = true ∧ s.id = iotSocketIdInvalid ∧ 0 ≤ reply ∧
      (s.onSocket version reply error rc).id = reply ∧
      (s.onSocket version reply error rc).requested = s.requested ∧
      ∃ code, (s.onSocket version reply error rc).iot = .create code) ∨
    (¬ (s.opened = true ∧ s.id = iotSocketIdInvalid ∧ 0 ≤ reply) ∧
      (s.onSocket version reply error rc).id = s.id ∧
      (s.onSocket version reply error rc).iot = s.iot ∧
      (s.onSocket version reply error rc).requested = s.requested) := by
  dsimp only [InternetSocket.onSocket]
  obtain ⟨hid, hverify⟩ | ⟨hid, hopened, hverify⟩ | ⟨hid, hopened, hreply, hverify⟩ |
    ⟨hid, hopened, hreply, hverify⟩ := s.verifySocketType_cases version reply
  · rw [hverify]
    refine Or.inr ⟨fun hall => hid hall.2.1, ?_⟩
    dsimp only
    split <;> exact ⟨rfl, rfl, rfl⟩
  · rw [hverify]
    refine Or.inr ⟨fun hall => ?_, rfl, rfl, rfl⟩
    cases hall.1.symm.trans hopened
  · rw [hverify]
    exact Or.inl ⟨hopened, hid, hreply, rfl, rfl, _, rfl⟩
  · rw [hverify]
    exact Or.inr ⟨fun hall => hreply.not_ge hall.2.2, rfl, rfl, rfl⟩

/-- Such a call honours the request exactly if it creates no socket after one. -/
theorem Untouched.onSocket (h : s.Untouched) (version : Version) (reply error rc : ℤ) :
    ((s.onSocket version reply error rc).Honoured ↔ (s.opened = true →
      s.id = iotSocketIdInvalid → 0 ≤ reply → s.requested = none)) ∧
    ((s.onSocket version reply error rc).Honoured →
      (s.onSocket version reply error rc).Untouched) := by
  obtain ⟨hopened, hid, hreply, hid', hrequested, code, hiot⟩ | ⟨hnot, hid, hiot, hrequested⟩ :=
    s.onSocket_iot version reply error rc
  · have hvalid : (s.onSocket version reply error rc).id ≠ iotSocketIdInvalid := by
      rw [hid', iotSocketIdInvalid]
      omega
    refine ⟨?_, fun hhonoured => ⟨hhonoured, fun _ => by rw [hiot]; rfl⟩⟩
    rw [honoured_create_iff hvalid hiot, hrequested]
    exact ⟨fun hnone _ _ _ => hnone, fun hnone => hnone hopened hid hreply⟩
  · have ht := h.congr (Or.inr ⟨hid, hiot, hrequested⟩)
    refine ⟨iff_of_true ht.toHonoured fun hopened hinvalid hreply => ?_, fun _ => ht⟩
    exact absurd ⟨hopened, hinvalid, hreply⟩ hnot

theorem Untouched.open (h : s.Untouched) (version : Version) : (s.open version).Untouched := by
  apply h.congr
  refine Or.inr ?_
  dsimp only [InternetSocket.open]
  split
  · exact ⟨rfl, rfl, rfl⟩
  · cases version with
    | unspec => exact ⟨rfl, rfl, rfl⟩
    | ipv4 =>
        dsimp only
        split <;> exact ⟨rfl, rfl, rfl⟩
    | ipv6 =>
        dsimp only
        split <;> exact ⟨rfl, rfl, rfl⟩

theorem Untouched.close (h : s.Untouched) (rc : ℤ) : (s.close rc).Untouched := by
  apply h.congr
  dsimp only [InternetSocket.close]
  by_cases hrc : rc = 0
  · rw [if_pos hrc]
    refine Or.inl ?_
    split <;> rfl
  · rw [if_neg hrc]
    refine Or.inr ?_
    split <;> exact ⟨rfl, rfl, rfl⟩

theorem Untouched.ret (h : s.Untouched) (result : ℤ) : (s.ret result).Untouched :=
  h.congr (Or.inr ⟨rfl, rfl, rfl⟩)

theorem Untouched.call (h : s.Untouched) {a : Action} (ha : a.request = none)
    (hs : step kind s a = some t) :
    (t.Honoured ↔ Undemanding kind s a) ∧ (t.Honoured → t.Untouched) := by
  have htimeout : ∀ {p : Request → Prop} r, a.request = some r → p r :=
    fun r heq => by cases ha.symm.trans heq
  obtain ⟨version, reply, hverifies, hcall⟩ | ⟨hnone, hcall⟩ := step_call ha hs
  · have hiff : Undemanding kind s a ↔ (s.opened = true → s.id = iotSocketIdInvalid →
        0 ≤ reply → s.requested = none) := by
      refine ⟨fun hok => hok.creation version reply hverifies, fun hcreation => ⟨htimeout, ?_⟩⟩
      intro version' reply' heq
      cases hverifies.symm.trans heq
      exact hcreation
    rw [hiff]
    obtain ⟨error, rc, rfl⟩ | ⟨hopened, result, rfl⟩ := hcall
    · exact h.onSocket version reply error rc
    · refine ⟨iff_of_true (h.ret result).toHonoured fun htrue => ?_, fun _ => h.ret result⟩
      cases htrue.symm.trans hopened
  · have hok : Undemanding kind s a :=
      ⟨htimeout, fun _ _ heq => by cases hnone.symm.trans heq⟩
    have ht : t.Untouched := by
      obtain ⟨version, rfl⟩ | ⟨rc, rfl⟩ | ⟨result, rfl⟩ := hcall
      · exact h.open version
      · exact h.close rc
      · exact h.ret result
    exact ⟨iff_of_true ht.toHonoured hok, fun _ => ht⟩

/-! ## `set_timeout` -/

theorem setOpt_id (s : InternetSocket) (rc : ℤ) (set : IotSocket → IotSocket) :
    (s.setOpt rc set).id = s.id := by
  dsimp only [setOpt]
  split <;> rfl

theorem setOpt_requested (s : InternetSocket) (rc : ℤ) (set : IotSocket → IotSocket) :
    (s.setOpt rc set).requested = s.requested := by
  dsimp only [setOpt]
  split <;> rfl

theorem setOpt_iot (s : InternetSocket) (rc : ℤ) (set : IotSocket → IotSocket) :
    (s.setOpt rc set).iot = if rc = 0 then set s.iot else s.iot := by
  dsimp only [setOpt]
  split <;> rfl

/-- The options after a timeout is set on a blocking socket: it goes on to block unless
`IOT_SOCKET_IO_FIONBIO` is set to 1, for a timeout that is not 0. -/
theorem setTimeoutOpts_spec (s : InternetSocket) (hblocking : s.iot.nonblocking = false)
    (timeout rcv snd nbio : ℤ) :
    (s.setTimeoutOpts timeout rcv snd nbio).id = s.id ∧
      (s.setTimeoutOpts timeout rcv snd nbio).requested = s.requested ∧
      ((s.setTimeoutOpts timeout rcv snd nbio).iot.nonblocking = true ↔
        timeout ≠ 0 ∧ nbio = 0) ∧
      (timeout ≠ 0 →
        (s.setTimeoutOpts timeout rcv snd nbio).iot.rcvTimeout =
          (if rcv = 0 then timeoutValue timeout else s.iot.rcvTimeout) ∧
        (s.setTimeoutOpts timeout rcv snd nbio).iot.sndTimeout =
          if snd = 0 then timeoutValue timeout else s.iot.sndTimeout) := by
  rcases eq_or_ne timeout 0 with rfl | hne
  · rw [setTimeoutOpts_zero]
    simp only [setOpt_id, setOpt_requested, setOpt_iot]
    refine ⟨trivial, trivial, iff_of_false ?_ (fun h => h.1 rfl), fun h => absurd rfl h⟩
    split
    · nofun
    · rw [hblocking]
      nofun
  · rw [setTimeoutOpts_of_ne s hne]
    simp only [setOpt_id, setOpt_requested, setOpt_iot]
    refine ⟨trivial, trivial, ?_, fun _ => ?_⟩
    · by_cases hnbio : nbio = 0
      · simp [hnbio, hne]
      · simp only [hnbio, if_false, and_false, iff_false]
        split <;> split <;> simp [hblocking]
    · constructor <;> split <;> split <;> split <;> rfl

theorem honoured_setTimeoutOpts_iff (hid : s.id ≠ iotSocketIdInvalid)
    (hblocking : s.iot.nonblocking = false) {timeout : ℤ} (hrequested : s.requested = some timeout)
    (rcv snd nbio : ℤ) :
    ((s.setTimeoutOpts timeout rcv snd nbio).ret 0).Honoured ↔
      timeout ≠ 0 ∧ nbio ≠ 0 ∧ (rcv = 0 ∨ s.iot.rcvTimeout = timeoutValue timeout) ∧
        (snd = 0 ∨ s.iot.sndTimeout = timeoutValue timeout) := by
  obtain ⟨hid', hrequested', hmode, htimeouts⟩ :=
    s.setTimeoutOpts_spec hblocking timeout rcv snd nbio
  have hvalid : ((s.setTimeoutOpts timeout rcv snd nbio).ret 0).id ≠ iotSocketIdInvalid := by
    change (s.setTimeoutOpts timeout rcv snd nbio).id ≠ _
    rwa [hid']
  have hrequest : ((s.setTimeoutOpts timeout rcv snd nbio).ret 0).requested = some timeout :=
    hrequested'.trans hrequested
  have hvalue : ∀ (answer : ℤ) (base : ℕ),
      ((if answer = 0 then timeoutValue timeout else base) = timeoutValue timeout ↔
        answer = 0 ∨ base = timeoutValue timeout) := by
    intro answer base
    by_cases hanswer : answer = 0 <;> simp [hanswer]
  constructor
  · intro h
    have hiff := h.blocking hvalid
    rw [hrequest] at hiff
    have hne : timeout ≠ 0 := by
      rintro rfl
      exact (hmode.mp (hiff.mpr rfl)).1 rfl
    refine ⟨hne, fun hnbio => ?_, ?_⟩
    · cases hiff.mp (hmode.mpr ⟨hne, hnbio⟩)
      exact hne rfl
    · obtain ⟨hrcv, hsnd⟩ := h.timeouts hvalid timeout hrequest hne
      exact ⟨(hvalue rcv _).mp ((htimeouts hne).1.symm.trans hrcv),
        (hvalue snd _).mp ((htimeouts hne).2.symm.trans hsnd)⟩
  · rintro ⟨hne, hnbio, hrcv, hsnd⟩
    refine ⟨fun _ => ?_, fun _ other hother _ => ?_⟩
    · rw [hrequest]
      refine iff_of_false (fun hset => hnbio (hmode.mp hset).2) fun hzero => ?_
      cases hzero
      exact hne rfl
    · cases hrequest.symm.trans hother
      exact ⟨(htimeouts hne).1.trans ((hvalue rcv _).mpr hrcv),
        (htimeouts hne).2.trans ((hvalue snd _).mpr hsnd)⟩

theorem setTimeout_opts (s : InternetSocket) (timeout reply rcv snd nbio : ℤ) :
    (s.id = iotSocketIdInvalid ∧ reply < 0 ∧
      (s.setTimeout timeout reply rcv snd nbio).id = iotSocketIdInvalid) ∨
    ∃ u : InternetSocket, u.id ≠ iotSocketIdInvalid ∧ u.requested = some timeout ∧
      s.setTimeout timeout reply rcv snd nbio = (u.setTimeoutOpts timeout rcv snd nbio).ret 0 ∧
      ((s.id ≠ iotSocketIdInvalid ∧ u.iot = s.iot) ∨
        s.id = iotSocketIdInvalid ∧ 0 ≤ reply ∧ ∃ code, u.iot = .create code) := by
  obtain ⟨hid, heq⟩ | ⟨hid, hreply, heq⟩ | ⟨hid, hreply, heq⟩ :=
    s.setTimeout_cases timeout reply rcv snd nbio
  · refine Or.inr ⟨_, ?_, ?_, heq, Or.inl ⟨hid, ?_⟩⟩
    · exact hid
    · rfl
    · rfl
  · have hnew : reply ≠ iotSocketIdInvalid := by
      rw [iotSocketIdInvalid]
      omega
    refine Or.inr ⟨_, ?_, ?_, heq, Or.inr ⟨hid, hreply, s.afType, ?_⟩⟩
    · exact hnew
    · rfl
    · rfl
  · rw [heq]
    exact Or.inl ⟨hid, hreply, hid⟩

theorem Untouched.setTimeout (h : s.Untouched) (r : Request) :
    ((s.setTimeout r.timeout r.reply r.rcv r.snd r.nbio).Honoured ↔
      (s.id ≠ iotSocketIdInvalid ∨ 0 ≤ r.reply → Refused s r)) ∧
    ((s.setTimeout r.timeout r.reply r.rcv r.snd r.nbio).Honoured →
      (s.setTimeout r.timeout r.reply r.rcv r.snd r.nbio).Untouched) := by
  obtain ⟨hid, hreply, hid'⟩ | ⟨u, hu, hrequested, heq, hiot⟩ :=
    s.setTimeout_opts r.timeout r.reply r.rcv r.snd r.nbio
  · have ht := h.congr (Or.inl hid')
    refine ⟨iff_of_true ht.toHonoured fun hexists => ?_, fun _ => ht⟩
    exact (hexists.resolve_left (not_not.mpr hid)).not_gt hreply |>.elim
  · rw [heq]
    have hexists : s.id ≠ iotSocketIdInvalid ∨ 0 ≤ r.reply :=
      hiot.imp And.left fun hnew => hnew.2.1
    have hblocking : u.iot.nonblocking = false := by
      obtain ⟨hid, hsame⟩ | ⟨-, -, code, hnew⟩ := hiot
      · rw [hsame]
        exact h.created hid
      · rw [hnew]
        rfl
    have hiff := honoured_setTimeoutOpts_iff hu hblocking hrequested r.rcv r.snd r.nbio
    constructor
    · rw [hiff, imp_iff_right hexists]
      obtain ⟨hid, hsame⟩ | ⟨hid, -, code, hnew⟩ := hiot
      · simp only [Refused, hsame, hid, ne_eq, not_false_eq_true, true_and]
      · -- The options of a new socket are not the ones that a timeout sets.
        have hdefault : ∀ {value : ℕ}, r.timeout ≠ 0 → value = 0 → value ≠ timeoutValue r.timeout :=
          fun hne hzero heq => timeoutValue_ne_zero hne (heq.symm.trans hzero)
        simp only [Refused, hnew, hid, ne_eq, not_true_eq_false, false_and, or_false]
        refine and_congr_right fun hne => and_congr_right fun _ => ?_
        exact and_congr (or_iff_left (hdefault hne rfl)) (or_iff_left (hdefault hne rfl))
    · intro hhonoured
      obtain ⟨hne, hnbio, -⟩ := hiff.mp hhonoured
      refine ⟨hhonoured, fun _ => ?_⟩
      have hmode := (u.setTimeoutOpts_spec hblocking r.timeout r.rcv r.snd r.nbio).2.2.1
      exact Bool.eq_false_iff.mpr fun hset => hnbio (hmode.mp hset).2

/-! ## Runs -/

theorem Untouched.step {a : Action} (h : s.Untouched) (hs : InternetSocket.step kind s a = some t) :
    (t.Honoured ↔ Undemanding kind s a) ∧ (t.Honoured → t.Untouched) := by
  cases ha : a.request with
  | none => exact h.call ha hs
  | some r =>
      rw [step_request ha hs]
      obtain ⟨hiff, hkeep⟩ := h.setTimeout r
      refine ⟨hiff.trans ⟨fun hrefused => ⟨?_, ?_⟩, fun hok => hok.timeout r ha⟩, hkeep⟩
      · intro r' heq
        cases ha.symm.trans heq
        exact hrefused
      · intro version reply heq
        cases (verifies_of_request ha).symm.trans heq

/-- Whatever is called in whatever order, on a new or an accepted socket: the options are as
requested throughout exactly if no timeout is ever set with success, and no socket is created
after a request. -/
theorem honoured_iff_undemanding (kind : Kind) (accepted : Option (ℕ × Family))
    (acts : List Action) :
    Always (step kind) Honoured (new accepted) acts ↔
      Meets (step kind) (Undemanding kind) (new accepted) acts := by
  apply always_iff_meets Untouched
  · intro s a t h hok hs
    obtain ⟨hiff, hkeep⟩ := h.step hs
    exact hkeep (hiff.mpr hok)
  · exact fun _ h => h.toHonoured
  · exact fun _ _ _ h hs hok hhonoured => hok ((h.step hs).1.mp hhonoured)
  · exact untouched_new accepted

/-- A socket that is set to block does not. -/
theorem setBlocking_not_honoured : ¬ ∀ acts, Always (step .udp) Honoured (new none) acts := by
  intro h
  have hhonoured := (h [.open .ipv4, .setBlocking true 3 0 0 0]).reached rfl
  cases (hhonoured.blocking (by decide)).mp rfl

end OpenIotSdk.Netsocket.InternetSocket
