import OpenIotSdk.Library.Ledger
import OpenIotSdk.Model.IotSocket
import OpenIotSdk.Model.Netsocket.TlsSocketWrapper

/-! # `AwsNetwork_connect`

`aws_network_manager.c`. What the stack, Mbed TLS and the hook answer in each attempt are
arguments. The backoff algorithm allows a number of retries, and then reports exhaustion. -/

namespace OpenIotSdk.Aws

open Netsocket (mbedtlsErrSslWantRead mbedtlsErrSslWantWrite)

/-! ## Sockets -/

/-- The sockets of the stack. An id can be used again. -/
structure Sockets where
  ledger : Ledger -- the sockets created, and how often each was passed to `iotSocketClose`
  number : ℤ → Option ℕ -- the last one that was created with each id
  connected : ℕ → Bool

namespace Sockets

def empty : Sockets := ⟨.empty, fun _ => none, fun _ => false⟩

/-- `iotSocketCreate` returns `id`. -/
def iotSocketCreate (k : Sockets) (id : ℤ) : Sockets :=
  { k with
    ledger := k.ledger.issue
    number := Function.update k.number id (some k.ledger.issued)
    connected := Function.update k.connected k.ledger.issued false }

/-- `iotSocketConnect`, when the stack answers `rc`. -/
def iotSocketConnect (k : Sockets) (id rc : ℤ) : Sockets :=
  match k.number id with
  | some socket =>
      if rc = 0 then { k with connected := Function.update k.connected socket true } else k
  | none => k

/-- `iotSocketClose`, whatever the stack answers. -/
def iotSocketClose (k : Sockets) (id : ℤ) : Sockets :=
  match k.number id with
  | some socket => { k with ledger := k.ledger.settle socket }
  | none => k

end Sockets

/-! ## Answers -/

/-- What Mbed TLS answers in `AwsNetwork_configure_tls_contexts`. -/
structure TlsAnswers where
  seed : ℤ
  caCert : ℤ
  clientCert : ℤ
  defaults : ℤ
  pkey : ℤ
  ownCert : ℤ
  setup : ℤ
  hostname : ℤ

/-- `mbedtls_ssl_handshake` returns 0 or an error. -/
def handshakeResult (reply : ℤ) : ℤ := min reply 0

/-- The loop of `AwsNetwork_connect_tls` goes on. -/
def WantsMore (res : ℤ) : Prop :=
  res ≠ 0 ∧ (res = mbedtlsErrSslWantRead ∨ res = mbedtlsErrSslWantWrite)

instance (res : ℤ) : Decidable (WantsMore res) :=
  inferInstanceAs (Decidable (res ≠ 0 ∧ _))

/-- What is answered in one attempt. The handshake may want more any number of times, but comes to
an end. -/
structure Answers where
  create : ℤ
  rcvTimeo : ℤ
  hostByName : ℤ
  connect : ℤ
  replies : List ℤ
  last : ℤ
  ends : ¬ WantsMore (handshakeResult last)
  flags : BitVec 32 -- of `mbedtls_ssl_get_verify_result`
  verifyInfo : ℤ
  hook : ℤ
  sessionReset : ℤ
  random : ℤ

/-! ## The context -/

structure NetworkContext where
  socketFd : ℤ
  secured : Option ℕ -- the socket over which `ssl` has completed its handshake
  sockets : Sockets
  attempts : ℕ -- how often the loop has been entered

namespace NetworkContext

variable (ctx : NetworkContext)

/-- `AwsNetwork_init`. -/
def init : NetworkContext := { ctx with socketFd := iotSocketEsock, secured := none }

/-- A context that has been initialised and not been used. -/
def initial : NetworkContext := init ⟨iotSocketEsock, none, .empty, 0⟩

/-- The socket is closed and forgotten. -/
def closeSocket : NetworkContext :=
  { ctx with sockets := ctx.sockets.iotSocketClose ctx.socketFd, socketFd := iotSocketEsock }

/-- `AwsNetwork_close`. -/
def close : NetworkContext :=
  let ctx := { ctx with secured := none }
  if ctx.socketFd ≠ iotSocketEsock then ctx.closeSocket
  else { ctx with socketFd := iotSocketEsock }

/-- `AwsNetwork_configure_tls_contexts`, whose first error is returned. -/
def configureTlsContexts (a : TlsAnswers) : ℤ :=
  if a.seed ≠ 0 then a.seed
  else if a.caCert ≠ 0 then a.caCert
  else if a.clientCert ≠ 0 then a.clientCert
  else if a.defaults ≠ 0 then a.defaults
  else if a.pkey ≠ 0 then a.pkey
  else if a.ownCert ≠ 0 then a.ownCert
  else if a.setup ≠ 0 then a.setup
  else if a.hostname ≠ 0 then a.hostname
  else 0

/-- `AwsNetwork_configure_socket`. The result of `iotSocketSetOpt` for `IOT_SOCKET_SO_SNDTIMEO` is
not looked at. -/
def configureSocket (a : Answers) : NetworkContext × ℤ :=
  if a.create < 0 then (ctx, a.create)
  else
    let ctx := { ctx with socketFd := a.create, sockets := ctx.sockets.iotSocketCreate a.create }
    if a.rcvTimeo ≠ 0 then (ctx.closeSocket, a.rcvTimeo)
    else (ctx, 0)

/-- `AwsNetwork_connect_server`. -/
def connectServer (a : Answers) : NetworkContext × ℤ :=
  if a.hostByName < 0 then (ctx, a.hostByName)
  else ({ ctx with sockets := ctx.sockets.iotSocketConnect ctx.socketFd a.connect }, a.connect)

/-- `mbedtls_ssl_handshake` does nothing more where the handshake is over. -/
def sslHandshake (reply : ℤ) : NetworkContext × ℤ :=
  if ctx.secured ≠ none then (ctx, 0)
  else if handshakeResult reply = 0 then
    ({ ctx with secured := ctx.sockets.number ctx.socketFd }, 0)
  else (ctx, handshakeResult reply)

/-- The loop of `AwsNetwork_connect_tls`. -/
def handshake (last : ℤ) : NetworkContext → List ℤ → NetworkContext × ℤ
  | ctx, [] => ctx.sslHandshake last
  | ctx, reply :: replies =>
      let (ctx, res) := ctx.sslHandshake reply
      if WantsMore res then handshake last ctx replies else (ctx, res)

/-- `AwsNetwork_connect_tls`. -/
def connectTls (a : Answers) : NetworkContext × ℤ :=
  let (ctx, res) := handshake a.last ctx a.replies
  if res < 0 then (ctx, res)
  else if a.flags ≠ 0 then
    if a.verifyInfo < 0 then (ctx, a.verifyInfo) else (ctx, a.flags.toInt)
  else (ctx, 0)

/-! ## `AwsNetwork_connect` -/

/-- From `handle_socket_error` on, the end of an attempt, with what is returned if no other one
follows in any case. -/
def handleSocketError (a : Answers) : NetworkContext × Option ℤ :=
  let ctx := if ctx.socketFd ≠ iotSocketEsock then ctx.closeSocket else ctx
  if a.random ≠ 0 then (ctx, some (-1)) else (ctx, none)

/-- From `handle_tls_error` on. -/
def handleTlsError (a : Answers) : NetworkContext × Option ℤ :=
  if a.sessionReset ≠ 0 then (ctx.close.init, some (-1))
  else { ctx with secured := none }.handleSocketError a

/-- From `handle_hook_error` on: the result of `mbedtls_ssl_close_notify` is only logged. -/
def handleHookError (a : Answers) : NetworkContext × Option ℤ := ctx.handleTlsError a

/-- The body of the loop, up to the backoff. -/
def attempt (connectCb : Bool) (a : Answers) : NetworkContext × Option ℤ :=
  let (ctx, err) := { ctx with attempts := ctx.attempts + 1 }.configureSocket a
  if err ≠ 0 then ctx.handleSocketError a
  else
    let (ctx, err) := ctx.connectServer a
    if err ≠ 0 then ctx.handleSocketError a
    else
      let (ctx, err) := ctx.connectTls a
      if err ≠ 0 then ctx.handleTlsError a
      else if connectCb = true ∧ a.hook ≠ 0 then ctx.handleHookError a
      else (ctx, some 0)

/-- The loop, when the backoff algorithm allows `retries` more attempts. -/
def connectLoop (ctx : NetworkContext) (connectCb : Bool) (retries : ℕ) (answers : ℕ → Answers) :
    NetworkContext × ℤ :=
  match ctx.attempt connectCb (answers 0), retries with
  | (ctx, some result), _ => (ctx, result)
  | (ctx, none), 0 => (ctx, -1)
  | (ctx, none), retries + 1 => ctx.connectLoop connectCb retries fun i => answers (i + 1)

/-- `AwsNetwork_connect`. -/
def connect (connectCb : Bool) (retries : ℕ) (tls : TlsAnswers) (answers : ℕ → Answers) :
    NetworkContext × ℤ :=
  if configureTlsContexts tls ≠ 0 then (ctx, -1)
  else ctx.connectLoop connectCb retries answers

end NetworkContext

end OpenIotSdk.Aws
