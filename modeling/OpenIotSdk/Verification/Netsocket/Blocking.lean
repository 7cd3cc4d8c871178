import OpenIotSdk.Verification.Netsocket.Send
import OpenIotSdk.Verification.Netsocket.Timeout

/-! # Blocking and non-blocking `TCPSocket::send`

The loop of `send` goes on while `_timeout` is 0, which is the non-blocking mode. The comment on
it and `Socket::send` promise the opposite. -/

namespace OpenIotSdk.Netsocket

open Transition InternetSocket

variable {β : Type}

/-! ## The mode of a socket -/

/-- A TCP socket, and the last timeout that was set on it with success. -/
structure Observed where
  socket : InternetSocket
  set : Option ℤ

def observe (o : Observed) (a : Action) : Option Observed :=
  (InternetSocket.step .tcp o.socket a).map fun t =>
    ⟨t, match a.request with
      | none => o.set
      | some r => if t.rejected then o.set else some r.timeout⟩

/-- The default, or a negative timeout. -/
def Blocking (set : Option ℤ) : Prop := ∀ timeout, set = some timeout → timeout < 0

def timeoutAfter : Option ℤ → ℕ
  | none => osWaitForever
  | some timeout => timeoutValue timeout

theorem timeoutAfter_ne_zero_iff {set : Option ℤ} : timeoutAfter set ≠ 0 ↔ set ≠ some 0 := by
  cases set with
  | none => exact iff_of_true (by decide) nofun
  | some timeout =>
      constructor
      · rintro hne heq
        cases heq
        exact hne rfl
      · exact fun hne => timeoutValue_ne_zero fun hzero => hne (congrArg some hzero)

theorem Blocking.timeoutAfter_ne_zero {set : Option ℤ} (h : Blocking set) :
    timeoutAfter set ≠ 0 :=
  timeoutAfter_ne_zero_iff.mpr fun heq => absurd (h 0 heq) (by decide)

theorem mode_cases (set : Option ℤ) :
    Blocking set ∨ set = some 0 ∨ ∃ timeout, set = some timeout ∧ 0 < timeout := by
  cases set with
  | none => exact .inl nofun
  | some timeout =>
      rcases lt_trichotomy timeout 0 with hneg | rfl | hpos
      · refine .inl fun other heq => ?_
        cases heq
        exact hneg
      · exact .inr (.inl rfl)
      · exact .inr (.inr ⟨timeout, rfl, hpos⟩)

namespace InternetSocket

variable {s t : InternetSocket} {kind : Kind}

theorem onSocket_timeout (s : InternetSocket) (version : Version) (reply error rc : ℤ) :
    (s.onSocket version reply error rc).timeout = s.timeout := by
  dsimp only [InternetSocket.onSocket]
  obtain ⟨-, hverify⟩ | ⟨-, -, hverify⟩ | ⟨-, -, -, hverify⟩ | ⟨-, -, -, hverify⟩ :=
    s.verifySocketType_cases version reply
  · rw [hverify]
    dsimp only
    split <;> rfl
  all_goals
    rw [hverify]
    rfl

theorem open_timeout (s : InternetSocket) (version : Version) :
    (s.open version).timeout = s.timeout := by
  dsimp only [InternetSocket.open]
  split
  · rfl
  · cases version with
    | unspec => rfl
    | ipv4 =>
        dsimp only
        split <;> rfl
    | ipv6 =>
        dsimp only
        split <;> rfl

theorem close_timeout (s : InternetSocket) (rc : ℤ) : (s.close rc).timeout = s.timeout := by
  have hclosed : (if rc = 0 then
      { s with opened := false, id := iotSocketIdInvalid, afType := 0 } else s).timeout =
        s.timeout := by
    split <;> rfl
  dsimp only [InternetSocket.close]
  split <;> exact hclosed

theorem setOpt_timeout (s : InternetSocket) (rc : ℤ) (set : IotSocket → IotSocket) :
    (s.setOpt rc set).timeout = s.timeout := by
  dsimp only [setOpt]
  split <;> rfl

theorem setTimeoutOpts_timeout (s : InternetSocket) (timeout rcv snd nbio : ℤ) :
    (s.setTimeoutOpts timeout rcv snd nbio).timeout = timeoutValue timeout := by
  rcases eq_or_ne timeout 0 with rfl | hne
  · rw [setTimeoutOpts_zero, setOpt_timeout]
    rfl
  · rw [setTimeoutOpts_of_ne s hne, setOpt_timeout, setOpt_timeout, setOpt_timeout]

/-- `set_timeout` sets the timeout unless it cannot create a socket. -/
theorem setTimeout_timeout (s : InternetSocket) (timeout reply rcv snd nbio : ℤ) :
    ((s.setTimeout timeout reply rcv snd nbio).rejected = true ∧
      (s.setTimeout timeout reply rcv snd nbio).timeout = s.timeout) ∨
    ((s.setTimeout timeout reply rcv snd nbio).rejected = false ∧
      (s.setTimeout timeout reply rcv snd nbio).timeout = timeoutValue timeout) := by
  obtain ⟨-, heq⟩ | ⟨-, -, heq⟩ | ⟨-, -, heq⟩ := s.setTimeout_cases timeout reply rcv snd nbio
  · rw [heq]
    exact .inr ⟨rfl, setTimeoutOpts_timeout _ timeout rcv snd nbio⟩
  · rw [heq]
    exact .inr ⟨rfl, setTimeoutOpts_timeout _ timeout rcv snd nbio⟩
  · rw [heq]
    exact .inl ⟨rfl, rfl⟩

theorem step_timeout {a : Action} (ha : a.request = none) (hs : step kind s a = some t) :
    t.timeout = s.timeout := by
  obtain ⟨version, reply, -, hcall⟩ | ⟨-, hcall⟩ := step_call ha hs
  · obtain ⟨error, rc, rfl⟩ | ⟨-, result, rfl⟩ := hcall
    · exact s.onSocket_timeout version reply error rc
    · rfl
  · obtain ⟨version, rfl⟩ | ⟨rc, rfl⟩ | ⟨result, rfl⟩ := hcall
    · exact s.open_timeout version
    · exact s.close_timeout rc
    · rfl

end InternetSocket

def Observed.Tracked (o : Observed) : Prop := o.socket.timeout = timeoutAfter o.set

theorem Observed.Tracked.step {o o' : Observed} {a : Action} (h : o.Tracked)
    (hs : observe o a = some o') : o'.Tracked := by
  obtain ⟨t, ht, rfl⟩ := Option.map_eq_some_iff.mp hs
  cases ha : a.request with
  | none => exact (step_timeout ha ht).trans h
  | some r =>
      have htimeout := o.socket.setTimeout_timeout r.timeout r.reply r.rcv r.snd r.nbio
      rw [← step_request ha ht] at htimeout
      dsimp only [Tracked]
      rcases htimeout with ⟨hrejected, htimeout⟩ | ⟨hrejected, htimeout⟩
      · rw [if_pos hrejected, htimeout]
        exact h
      · rw [if_neg (ne_true_of_eq_false hrejected), htimeout]
        rfl

/-! ## The first answer of the stack -/

/-- The answers accept a part of `size` bytes, and none of them is an error. -/
def Partial (size : ℕ) (replies : List ℤ) : Prop :=
  replies ≠ [] ∧ (∀ rc ∈ results size replies, 0 ≤ rc) ∧ taken (results size replies) < size

theorem partial_singleton {size : ℕ} {reply : ℤ} :
    Partial size [reply] ↔ 0 ≤ iotSocketSend reply size ∧ iotSocketSend reply size < size := by
  have hone : results size [reply] = [iotSocketSend reply size] := by simp [results]
  rw [Partial, hone, taken_cons, taken_nil]
  simp only [List.mem_singleton, forall_eq]
  constructor
  · rintro ⟨-, hpos, hlt⟩
    exact ⟨hpos, by omega⟩
  · rintro ⟨hpos, hlt⟩
    exact ⟨List.cons_ne_nil _ _, hpos, by omega⟩

theorem Partial.first {size : ℕ} {reply : ℤ} {replies : List ℤ}
    (h : Partial size (reply :: replies)) : Partial size [reply] := by
  obtain ⟨-, hall, hlt⟩ := h
  rw [partial_singleton]
  rw [results] at hall hlt
  split at hall
  · next hlast =>
      rw [if_pos hlast, taken_cons, taken_nil] at hlt
      have hpos := hall _ (List.mem_singleton_self _)
      exact ⟨hpos, by omega⟩
  · next hmore =>
      rw [not_or] at hmore
      exact ⟨by omega, by omega⟩

/-- A partial answer ends the call unless `_timeout` is 0. -/
theorem send_part {socket : Socket} (hid : socket.id ≠ iotSocketIdInvalid) {data : Buffer β}
    {reply : ℤ} (h : Partial data.bytes.length [reply]) :
    ∀ replies, send socket data (reply :: replies) =
      if socket.timeout = 0 then
        sendLoop 0 data.bytes (iotSocketSend reply data.bytes.length).toNat
          (data.bytes.take (iotSocketSend reply data.bytes.length).toNat) replies
      else some ⟨taken (results data.bytes.length [reply]),
        data.bytes.take (iotSocketSend reply data.bytes.length).toNat⟩ := by
  intro replies
  have hle := iotSocketSend_le reply data.bytes.length
  have hone : results data.bytes.length [reply] = [iotSocketSend reply data.bytes.length] := by
    simp [results]
  obtain ⟨hpos, hlt⟩ := partial_singleton.mp h
  rw [send, if_neg hid, sendLoop, hone]
  simp only [Nat.sub_zero, List.drop_zero, List.nil_append, Nat.zero_add, taken_cons, taken_nil,
    Nat.add_zero]
  generalize iotSocketSend reply data.bytes.length = rc at hle hpos hlt ⊢
  rw [iotSocketErrorToMbed_of_nonneg hpos, if_pos hpos, if_neg (by omega), toInt32_of_lt (by omega)]
  by_cases htimeout : socket.timeout = 0
  · rw [if_pos htimeout, if_pos htimeout, htimeout]
  · rw [if_neg htimeout, if_neg htimeout]

theorem nsapiErrorNoSocket_neg : nsapiErrorNoSocket < 0 := by decide

theorem send_settled {socket : Socket} {data : Buffer β} {reply : ℤ}
    (h : ¬ Partial data.bytes.length [reply]) (replies : List ℤ) {o : Outcome β}
    (ho : send socket data (reply :: replies) = some o) : o.ret < 0 ∨ o.sent = data.bytes := by
  rw [send] at ho
  split at ho
  · cases ho
    exact .inl nsapiErrorNoSocket_neg
  · rw [partial_singleton, not_and_or, not_le, not_lt] at h
    rw [sendLoop] at ho
    simp only [Nat.sub_zero, List.drop_zero, List.nil_append, Nat.zero_add] at ho
    generalize iotSocketSend reply data.bytes.length = rc at h ho
    rcases lt_or_ge rc 0 with hneg | hpos
    · have herror := iotSocketErrorToMbed_neg hneg
      rw [if_neg (by omega)] at ho
      cases ho
      exact .inl herror
    · have hall := h.resolve_left (by omega)
      rw [iotSocketErrorToMbed_of_nonneg hpos, if_pos hpos, if_pos (by omega)] at ho
      obtain rfl := Option.some.inj ho
      exact .inr (List.take_of_length_le (by omega))

/-! ## What the mode promises -/

/-- A blocking call goes on after partial answers and returns a count only for the whole buffer;
a non-blocking one returns what the stack has accepted. -/
structure SendsAs (set : Option ℤ) (c : Call β) : Prop where
  persists : Blocking set → c.socket.id ≠ iotSocketIdInvalid → ∀ front, front <+: c.replies →
    Partial c.data.bytes.length front → send c.socket c.data front = none
  whole : Blocking set → ∀ o, c.outcome = some o → 0 ≤ o.ret → o.sent = c.data.bytes
  stops : set = some 0 → c.socket.id ≠ iotSocketIdInvalid → ∀ reply, [reply] <+: c.replies →
    Partial c.data.bytes.length [reply] → ∃ o, send c.socket c.data [reply] = some o ∧
      o.ret = taken (results c.data.bytes.length [reply])

/-- The first answer of the stack is an error or accepts the whole buffer. -/
def Call.AtOnce (c : Call β) : Prop :=
  ∀ reply, [reply] <+: c.replies → ¬ Partial c.data.bytes.length [reply]

theorem Call.AtOnce.sendsAs {c : Call β} (h : c.AtOnce) (set : Option ℤ) : SendsAs set c where
  persists := by
    rintro - - front hfront hpart
    cases front with
    | nil => exact absurd rfl hpart.1
    | cons reply front =>
        exact absurd hpart.first (h reply (List.prefix_append [reply] front |>.trans hfront))
  whole := by
    intro _ o ho hret
    obtain ⟨socket, data, replies⟩ := c
    cases replies with
    | nil =>
        simp only [Call.outcome, send] at ho
        split at ho
        · cases ho
          exact absurd hret nsapiErrorNoSocket_neg.not_ge
        · cases ho
    | cons reply replies =>
        have hnot := h reply (List.prefix_append [reply] replies)
        exact (send_settled hnot replies ho).resolve_left (by omega)
  stops := fun _ _ reply hreply hpart => absurd hpart (h reply hreply)

theorem not_sendsAs {set : Option ℤ} {c : Call β} (hid : c.socket.id ≠ iotSocketIdInvalid)
    (htimeout : c.socket.timeout = timeoutAfter set) (hmode : Blocking set ∨ set = some 0)
    {reply : ℤ} (hreply : [reply] <+: c.replies) (h : Partial c.data.bytes.length [reply]) :
    ¬ SendsAs set c := by
  intro hsends
  have hsend := send_part hid h []
  rcases hmode with hblocking | hzero
  · rw [if_neg (htimeout ▸ hblocking.timeoutAfter_ne_zero),
      hsends.persists hblocking hid [reply] hreply h] at hsend
    cases hsend
  · have htimeout : c.socket.timeout = 0 := by rw [htimeout, hzero]; rfl
    obtain ⟨o, ho, -⟩ := hsends.stops hzero hid reply hreply h
    rw [if_pos htimeout, ho] at hsend
    cases hsend

/-- A call is as its mode promises exactly if the socket has neither of the two modes, or does not
exist, or the first answer of the stack settles the call. -/
theorem sendsAs_iff {set : Option ℤ} {c : Call β} (htimeout : c.socket.timeout = timeoutAfter set) :
    SendsAs set c ↔ c.socket.id = iotSocketIdInvalid ∨
      (∃ timeout, set = some timeout ∧ 0 < timeout) ∨ c.AtOnce := by
  constructor
  · intro h
    by_contra hnot
    rw [not_or, not_or] at hnot
    obtain ⟨hid, hlimit, hpart⟩ := hnot
    simp only [Call.AtOnce, not_forall, not_not] at hpart
    obtain ⟨reply, hreply, hpart⟩ := hpart
    have hmode : Blocking set ∨ set = some 0 :=
      (mode_cases set).imp_right fun hmode => hmode.resolve_right hlimit
    exact not_sendsAs hid htimeout hmode hreply hpart h
  · rintro (hid | ⟨timeout, rfl, hpos⟩ | honce)
    · refine ⟨fun _ hvalid => absurd hid hvalid, fun _ o ho hret => ?_,
        fun _ hvalid => absurd hid hvalid⟩
      rw [Call.outcome, send, if_pos hid] at ho
      cases ho
      exact absurd hret nsapiErrorNoSocket_neg.not_ge
    · have hnot : ¬ Blocking (some timeout) := fun h => absurd (h timeout rfl) hpos.not_gt
      refine ⟨fun h => absurd h hnot, fun h => absurd h hnot, fun hzero => ?_⟩
      cases hzero
      exact absurd hpos (by decide)
    · exact honce.sendsAs set

/-- After any calls on a new or an accepted socket, for any buffer and any answers of the stack:
`send` is as the mode promises exactly if there is no socket, or it has a time limit, or the first
answer is an error or accepts everything. -/
theorem send_sendsAs_iff (accepted : Option (ℕ × Family)) (actions : List Action) :
    Always observe (fun o => ∀ (data : Buffer β) (replies : List ℤ),
      (SendsAs o.set ⟨⟨o.socket.id, o.socket.timeout⟩, data, replies⟩ ↔
        o.socket.id = iotSocketIdInvalid ∨ (∃ timeout, o.set = some timeout ∧ 0 < timeout) ∨
          Call.AtOnce ⟨⟨o.socket.id, o.socket.timeout⟩, data, replies⟩))
      ⟨new accepted, none⟩ actions := by
  have hnew : Observed.Tracked ⟨new accepted, none⟩ := by
    cases accepted with
    | none => rfl
    | some socket => rfl
  refine Always.of_inductive Observed.Tracked (fun _ _ _ h hs => h.step hs) ?_ hnew actions
  intro o h data replies
  have htimeout : o.socket.timeout = timeoutAfter o.set := h
  exact sendsAs_iff htimeout

/-- A blocking socket to which the stack answers that it has accepted one byte of two. -/
theorem blockingSend_incomplete : ¬ ∀ (accepted : Option (ℕ × Family)) (actions : List Action),
    Always observe (fun o => ∀ (data : Buffer ℕ) (replies : List ℤ),
      SendsAs o.set ⟨⟨o.socket.id, o.socket.timeout⟩, data, replies⟩)
      ⟨new accepted, none⟩ actions := by
  intro h
  have hsends := (h (some (0, .inet)) []) ⟨[7, 8], by decide⟩ [1]
  have hwhole := hsends.whole (by rintro timeout heq; cases heq) ⟨1, [7]⟩ rfl (by decide)
  exact absurd hwhole (by decide)

end OpenIotSdk.Netsocket
