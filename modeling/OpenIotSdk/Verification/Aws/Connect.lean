import OpenIotSdk.Model.Aws.NetworkManager

/-! # What `AwsNetwork_connect` reports and closes

Between two attempts the context holds no socket and has no secured connection. -/

namespace OpenIotSdk.Aws.NetworkContext

open Netsocket (mbedtlsErrSslWantRead mbedtlsErrSslWantWrite)

structure Idle (ctx : NetworkContext) : Prop where
  fd : ctx.socketFd = iotSocketEsock
  secured : ctx.secured = none
  balanced : ctx.sockets.ledger.Balanced []

/-- The last socket that was created is held, and no other one. -/
structure Holds (ctx : NetworkContext) (socket : ℕ) : Prop where
  fd : ctx.socketFd ≠ iotSocketEsock
  number : ctx.sockets.number ctx.socketFd = some socket
  last : ctx.sockets.ledger.issued = socket + 1
  balanced : ctx.sockets.ledger.Balanced [socket]

/-- Before anything has been secured in an attempt. -/
def Unsecured (ctx : NetworkContext) : Prop :=
  ctx.secured = none ∧ (ctx.Idle ∨ ∃ socket, ctx.Holds socket)

/-- The connection that is made in an attempt. -/
structure Established (connectCb : Bool) (a : Answers) (ctx : NetworkContext) (socket : ℕ) :
    Prop where
  created : 0 ≤ a.create
  fd : ctx.socketFd = a.create
  holds : ctx.Holds socket
  connected : ctx.sockets.connected socket = true
  secured : ctx.secured = some socket
  verified : a.flags = 0
  hook : connectCb = true → a.hook = 0

variable {ctx : NetworkContext} {a : Answers} {connectCb : Bool} {socket : ℕ}

theorem idle_initial : initial.Idle := ⟨rfl, rfl, Ledger.balanced_empty⟩

/-! ## Cleaning up -/

theorem Holds.close_balanced (h : ctx.Holds socket) :
    (ctx.sockets.iotSocketClose ctx.socketFd).ledger.Balanced [] := by
  dsimp only [Sockets.iotSocketClose]
  rw [h.number]
  exact h.balanced.settle List.Perm.rfl

theorem Holds.idle_closeSocket (h : ctx.Holds socket) (hsecured : ctx.secured = none) :
    ctx.closeSocket.Idle :=
  ⟨rfl, hsecured, h.close_balanced⟩

/-- An attempt that fails has closed its socket. -/
structure GaveUp (ctx : NetworkContext) (r : NetworkContext × Option ℤ) : Prop where
  idle : r.1.Idle
  attempts : r.1.attempts = ctx.attempts
  result : r.2 = none ∨ r.2 = some (-1)

theorem Unsecured.handleSocketError (h : ctx.Unsecured) (a : Answers) :
    GaveUp ctx (ctx.handleSocketError a) := by
  have hidle : (if ctx.socketFd ≠ iotSocketEsock then ctx.closeSocket else ctx).Idle := by
    obtain ⟨hsecured, hidle | ⟨socket, hholds⟩⟩ := h
    · rw [if_neg (not_not_intro hidle.fd)]
      exact hidle
    · rw [if_pos hholds.fd]
      exact hholds.idle_closeSocket hsecured
  have hattempts : (if ctx.socketFd ≠ iotSocketEsock then ctx.closeSocket else ctx).attempts =
      ctx.attempts := by
    split <;> rfl
  dsimp only [NetworkContext.handleSocketError]
  split
  · exact ⟨hidle, hattempts, .inr rfl⟩
  · exact ⟨hidle, hattempts, .inl rfl⟩

theorem Holds.handleTlsError (h : ctx.Holds socket) (a : Answers) :
    GaveUp ctx (ctx.handleTlsError a) := by
  dsimp only [NetworkContext.handleTlsError]
  split
  · -- The whole context is closed and initialised.
    have hclose : ctx.close = { ctx with secured := none }.closeSocket := if_pos h.fd
    rw [hclose]
    exact ⟨⟨rfl, rfl, h.close_balanced⟩, rfl, .inr rfl⟩
  · have hunsecured : ({ ctx with secured := none } : NetworkContext).Unsecured :=
      ⟨rfl, .inr ⟨socket, ⟨h.fd, h.number, h.last, h.balanced⟩⟩⟩
    obtain ⟨hidle, hattempts, hresult⟩ := hunsecured.handleSocketError a
    exact ⟨hidle, hattempts, hresult⟩

/-! ## The stages of an attempt -/

/-- A socket that is created is held, unless its options cannot be set. -/
theorem Idle.configureSocket (h : ctx.Idle) (a : Answers) :
    (ctx.configureSocket a).1.Unsecured ∧ (ctx.configureSocket a).1.attempts = ctx.attempts ∧
      ((ctx.configureSocket a).2 = 0 → 0 ≤ a.create ∧ (ctx.configureSocket a).1.socketFd = a.create ∧
        ∃ socket, (ctx.configureSocket a).1.Holds socket) := by
  dsimp only [NetworkContext.configureSocket]
  split
  · next hcreate => exact ⟨⟨h.secured, .inl h⟩, rfl, fun hzero => by omega⟩
  · next hcreate =>
      have hfd : a.create ≠ iotSocketEsock := by
        rintro heq
        rw [heq] at hcreate
        exact hcreate (by decide)
      have hholds : ({ ctx with
          socketFd := a.create
          sockets := ctx.sockets.iotSocketCreate a.create } : NetworkContext).Holds
          ctx.sockets.ledger.issued :=
        ⟨hfd, Function.update_self _ _ _, rfl, h.balanced.issue List.Perm.rfl⟩
      split
      · next hoption =>
          exact ⟨⟨h.secured, .inl (hholds.idle_closeSocket h.secured)⟩, rfl,
            fun hzero => absurd hzero hoption⟩
      · exact ⟨⟨h.secured, .inr ⟨_, hholds⟩⟩, rfl, fun _ => ⟨not_lt.mp hcreate, rfl, _, hholds⟩⟩

theorem Holds.connectServer (h : ctx.Holds socket) (a : Answers) :
    (ctx.connectServer a).1.Holds socket ∧ (ctx.connectServer a).1.attempts = ctx.attempts ∧
      (ctx.connectServer a).1.socketFd = ctx.socketFd ∧
      (ctx.connectServer a).1.secured = ctx.secured ∧
      ((ctx.connectServer a).2 = 0 → (ctx.connectServer a).1.sockets.connected socket = true) := by
  dsimp only [NetworkContext.connectServer]
  split
  · next hhost => exact ⟨h, rfl, rfl, rfl, fun hzero => by omega⟩
  · dsimp only [Sockets.iotSocketConnect]
    rw [h.number]
    dsimp only
    split
    · exact ⟨⟨h.fd, h.number, h.last, h.balanced⟩, rfl, rfl, rfl,
        fun _ => Function.update_self _ _ _⟩
    · next hrc => exact ⟨h, rfl, rfl, rfl, fun hzero => absurd hzero hrc⟩

/-- A call of `mbedtls_ssl_handshake` on an unsecured context fails, or secures its socket. -/
theorem Holds.sslHandshake (h : ctx.Holds socket) (hsecured : ctx.secured = none) (reply : ℤ) :
    (ctx.sslHandshake reply).2 < 0 ∧ (ctx.sslHandshake reply).1 = ctx ∨
      (ctx.sslHandshake reply).2 = 0 ∧
        (ctx.sslHandshake reply).1 = { ctx with secured := some socket } := by
  dsimp only [NetworkContext.sslHandshake]
  rw [if_neg (not_not_intro hsecured)]
  split
  · exact .inr ⟨rfl, by rw [h.number]⟩
  · next hresult =>
      refine .inl ⟨?_, rfl⟩
      dsimp only [handshakeResult] at hresult ⊢
      omega

theorem Holds.handshake (h : ctx.Holds socket) (hsecured : ctx.secured = none) (last : ℤ)
    (replies : List ℤ) :
    (NetworkContext.handshake last ctx replies).2 < 0 ∧
        (NetworkContext.handshake last ctx replies).1 = ctx ∨
      (NetworkContext.handshake last ctx replies).2 = 0 ∧
        (NetworkContext.handshake last ctx replies).1 = { ctx with secured := some socket } := by
  induction replies with
  | nil => exact h.sslHandshake hsecured last
  | cons reply replies ih =>
      dsimp only [NetworkContext.handshake]
      obtain ⟨hres, hctx⟩ | ⟨hres, hctx⟩ := h.sslHandshake hsecured reply
      · split
        · rw [hctx]
          exact ih
        · exact .inl ⟨hres, hctx⟩
      · have hdone : ¬ WantsMore (ctx.sslHandshake reply).2 := fun hmore => hmore.1 hres
        rw [if_neg hdone]
        exact .inr ⟨hres, hctx⟩

theorem Holds.connectTls (h : ctx.Holds socket) (hsecured : ctx.secured = none) (a : Answers) :
    (ctx.connectTls a).1.Holds socket ∧ (ctx.connectTls a).1.attempts = ctx.attempts ∧
      (ctx.connectTls a).1.socketFd = ctx.socketFd ∧
      (ctx.connectTls a).1.sockets = ctx.sockets ∧
      ((ctx.connectTls a).2 = 0 → (ctx.connectTls a).1.secured = some socket ∧ a.flags = 0) := by
  have hkeep : ∀ c : NetworkContext, c = ctx ∨ c = { ctx with secured := some socket } →
      c.Holds socket ∧ c.attempts = ctx.attempts ∧ c.socketFd = ctx.socketFd ∧
        c.sockets = ctx.sockets := by
    rintro c (rfl | rfl)
    · exact ⟨h, rfl, rfl, rfl⟩
    · exact ⟨⟨h.fd, h.number, h.last, h.balanced⟩, rfl, rfl, rfl⟩
  dsimp only [NetworkContext.connectTls]
  obtain ⟨hres, hctx⟩ | ⟨hres, hctx⟩ := h.handshake hsecured a.last a.replies
  · obtain ⟨hholds, hattempts, hfd, hsockets⟩ := hkeep _ (.inl hctx)
    rw [if_pos hres]
    exact ⟨hholds, hattempts, hfd, hsockets, fun hzero => by omega⟩
  · obtain ⟨hholds, hattempts, hfd, hsockets⟩ := hkeep _ (.inr hctx)
    rw [if_neg hres.ge.not_gt]
    split
    · next hflags =>
        split
        · exact ⟨hholds, hattempts, hfd, hsockets, fun hzero => by omega⟩
        · refine ⟨hholds, hattempts, hfd, hsockets, fun hzero => absurd ?_ hflags⟩
          exact BitVec.toInt_inj.mp hzero
    · next hflags =>
        exact ⟨hholds, hattempts, hfd, hsockets, fun _ =>
          ⟨congrArg NetworkContext.secured hctx, not_not.mp hflags⟩⟩

/-! ## Attempts -/

theorem GaveUp.of_attempts {c : NetworkContext} {r : NetworkContext × Option ℤ} (h : GaveUp c r)
    (hattempts : c.attempts = ctx.attempts + 1) :
    GaveUp { ctx with attempts := ctx.attempts + 1 } r :=
  ⟨h.idle, h.attempts.trans hattempts, h.result⟩

/-- An attempt establishes a connection, or closes whatever it has opened. -/
theorem Idle.attempt (h : ctx.Idle) (connectCb : Bool) (a : Answers) :
    ((ctx.attempt connectCb a).2 = some 0 ∧
        (ctx.attempt connectCb a).1.attempts = ctx.attempts + 1 ∧
        ∃ socket, Established connectCb a (ctx.attempt connectCb a).1 socket) ∨
      GaveUp { ctx with attempts := ctx.attempts + 1 } (ctx.attempt connectCb a) := by
  have hstart : ({ ctx with attempts := ctx.attempts + 1 } : NetworkContext).Idle :=
    ⟨h.fd, h.secured, h.balanced⟩
  obtain ⟨hunsecured, hattempts, hcreated⟩ := hstart.configureSocket a
  dsimp only [NetworkContext.attempt]
  split
  · exact .inr ((hunsecured.handleSocketError a).of_attempts hattempts)
  · next hsocket =>
      obtain ⟨hcreate, hfd, socket, hholds⟩ := hcreated (not_not.mp hsocket)
      obtain ⟨hholds, hattempts', hfd', hsecured, hconnected⟩ := hholds.connectServer a
      split
      · have hnone := hsecured.trans hunsecured.1
        have hunsecured' : (connectServer _ a).1.Unsecured := ⟨hnone, .inr ⟨socket, hholds⟩⟩
        exact .inr ((hunsecured'.handleSocketError a).of_attempts (hattempts'.trans hattempts))
      · next hserver =>
          have hnone := hsecured.trans hunsecured.1
          obtain ⟨hholds, hattempts'', hfd'', hsockets, hsecured'⟩ := hholds.connectTls hnone a
          have hcount := hattempts''.trans (hattempts'.trans hattempts)
          split
          · exact .inr ((hholds.handleTlsError a).of_attempts hcount)
          · next htls =>
              obtain ⟨hsecured', hverified⟩ := hsecured' (not_not.mp htls)
              split
              · exact .inr ((hholds.handleTlsError a).of_attempts hcount)
              · next hhook =>
                  refine .inl ⟨rfl, hcount, socket, hcreate, hfd''.trans (hfd'.trans hfd), hholds, ?_,
                    hsecured', hverified, fun hcb => ?_⟩
                  · rw [hsockets]
                    exact hconnected (not_not.mp hserver)
                  · exact not_not.mp (not_and.mp hhook hcb)

theorem connectLoop_of_some {r : ℤ} {answers : ℕ → Answers} {retries : ℕ}
    (h : (ctx.attempt connectCb (answers 0)).2 = some r) :
    ctx.connectLoop connectCb retries answers = ((ctx.attempt connectCb (answers 0)).1, r) := by
  rw [NetworkContext.connectLoop.eq_def]
  generalize ctx.attempt connectCb (answers 0) = outcome at h ⊢
  obtain ⟨ctx', result⟩ := outcome
  cases h
  cases retries <;> rfl

theorem connectLoop_of_none {answers : ℕ → Answers} {retries : ℕ}
    (h : (ctx.attempt connectCb (answers 0)).2 = none) :
    ctx.connectLoop connectCb retries answers = match retries with
      | 0 => ((ctx.attempt connectCb (answers 0)).1, -1)
      | retries + 1 => (ctx.attempt connectCb (answers 0)).1.connectLoop connectCb retries
          fun i => answers (i + 1) := by
  rw [NetworkContext.connectLoop.eq_def]
  generalize ctx.attempt connectCb (answers 0) = outcome at h ⊢
  obtain ⟨ctx', result⟩ := outcome
  cases h
  cases retries <;> rfl

/-- A context that has a connection of one of `answers`, or is as before it was used. -/
def Concluded (connectCb : Bool) (retries start : ℕ) (answers : ℕ → Answers)
    (r : NetworkContext × ℤ) : Prop :=
  (r.2 = 0 ∧ ∃ i ≤ retries, r.1.attempts = start + i + 1 ∧
    ∃ socket, Established connectCb (answers i) r.1 socket) ∨ (r.2 = -1 ∧ r.1.Idle)

theorem Idle.connectLoop (h : ctx.Idle) (connectCb : Bool) (retries : ℕ) (answers : ℕ → Answers) :
    Concluded connectCb retries ctx.attempts answers
      (ctx.connectLoop connectCb retries answers) := by
  induction retries generalizing ctx answers with
  | zero =>
      obtain ⟨hresult, hattempts, hestablished⟩ | ⟨hidle, -, hresult⟩ :=
        h.attempt connectCb (answers 0)
      · rw [connectLoop_of_some hresult]
        exact .inl ⟨rfl, 0, le_rfl, hattempts, hestablished⟩
      · obtain hresult | hresult := hresult
        · rw [connectLoop_of_none hresult]
          exact .inr ⟨rfl, hidle⟩
        · rw [connectLoop_of_some hresult]
          exact .inr ⟨rfl, hidle⟩
  | succ retries ih =>
      obtain ⟨hresult, hattempts, hestablished⟩ | ⟨hidle, hattempts, hresult⟩ :=
        h.attempt connectCb (answers 0)
      · rw [connectLoop_of_some hresult]
        exact .inl ⟨rfl, 0, Nat.zero_le _, hattempts, hestablished⟩
      · obtain hresult | hresult := hresult
        · rw [connectLoop_of_none hresult]
          -- The next attempt is the first one of the rest.
          obtain ⟨hzero, i, hi, hcount, hestablished⟩ | hfailed :=
            ih hidle fun i => answers (i + 1)
          · rw [hattempts] at hcount
            refine .inl ⟨hzero, i + 1, Nat.succ_le_succ hi, hcount.trans ?_, hestablished⟩
            dsimp only
            omega
          · exact .inr hfailed
        · rw [connectLoop_of_some hresult]
          exact .inr ⟨rfl, hidle⟩

/-- Whatever is answered in whatever attempt: `AwsNetwork_connect` returns 0 only for a connection
that the last attempt has established, and its socket is the only one that is not closed; and it
returns -1 with no socket. -/
theorem connect_concluded (connectCb : Bool) (retries : ℕ) (tls : TlsAnswers)
    (answers : ℕ → Answers) :
    Concluded connectCb retries 0 answers (initial.connect connectCb retries tls answers) := by
  rw [NetworkContext.connect]
  split
  · exact .inr ⟨rfl, idle_initial⟩
  · exact idle_initial.connectLoop connectCb retries answers

/-- The first attempt fails in a handshake that has wanted more, the second one succeeds. -/
def secondTime (i : ℕ) : Answers where
  create := i
  rcvTimeo := 0
  hostByName := 0
  connect := 0
  replies := [mbedtlsErrSslWantRead, mbedtlsErrSslWantWrite]
  last := if i = 0 then -1 else 0
  ends := by
    split
    · decide
    · decide
  flags := 0
  verifyInfo := 0
  hook := 0
  sessionReset := 0
  random := 0

theorem connect_concluded_secondTime :
    Concluded true 1 0 secondTime (initial.connect true 1 ⟨0, 0, 0, 0, 0, 0, 0, 0⟩ secondTime) ∧
      (initial.connect true 1 ⟨0, 0, 0, 0, 0, 0, 0, 0⟩ secondTime).2 = 0 :=
  ⟨connect_concluded true 1 _ secondTime, by decide⟩

end OpenIotSdk.Aws.NetworkContext
