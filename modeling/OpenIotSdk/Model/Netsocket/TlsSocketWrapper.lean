import OpenIotSdk.Library.Ledger
import OpenIotSdk.Model.Netsocket.InternetSocket

/-! # `TLSSocketWrapper`

`TLSSocketWrapper.cpp`, with certificates, keys and one transport. Each public operation is one
step, and so is the destructor. What Mbed TLS, the allocator and the transport answer are
arguments. A function of Mbed TLS that is given no configuration changes nothing, and neither
does a call through a null `_transport`; both are noted. -/

namespace OpenIotSdk.Netsocket

def nsapiErrorDeviceError : ℤ := -3012

/-- `MBEDTLS_ERR_SSL_WANT_READ`. -/
def mbedtlsErrSslWantRead : ℤ := -0x6900

/-- `MBEDTLS_ERR_SSL_PEER_CLOSE_NOTIFY`. -/
def mbedtlsErrSslPeerCloseNotify : ℤ := -0x7880

/-- `control_transport`. -/
inductive ControlTransport where
  | keep
  | connectAndClose
  | connect
  | close
  deriving DecidableEq

/-- A pointer to what the wrapper has allocated, or to what the user has. -/
inductive Pointer where
  | own (number : ℕ)
  | user (number : ℕ)
  deriving DecidableEq

/-- The objects of one kind. -/
structure Heap where
  ledger : Ledger -- what the wrapper has allocated and freed
  misfreed : Bool -- something of the user's was freed

namespace Heap

def empty : Heap := ⟨.empty, false⟩

/-- `new`. -/
def alloc (h : Heap) : Heap := { h with ledger := h.ledger.issue }

/-- The pointer that `new` gives. -/
def fresh (h : Heap) : Pointer := .own h.ledger.issued

/-- The object is freed and deleted. -/
def free (h : Heap) : Pointer → Heap
  | .own number => { h with ledger := h.ledger.settle number }
  | .user _ => { h with misfreed := true }

/-- What the user can have a pointer to. -/
def Known (h : Heap) : Pointer → Prop
  | .own number => number < h.ledger.issued
  | .user _ => True

instance (h : Heap) : DecidablePred h.Known
  | .own number => inferInstanceAs (Decidable (number < h.ledger.issued))
  | .user _ => isTrue trivial

def Freed (h : Heap) : Pointer → Prop
  | .own number => h.ledger.settled number ≠ 0
  | .user _ => h.misfreed = true

instance (h : Heap) : DecidablePred h.Freed
  | .own number => inferInstanceAs (Decidable (h.ledger.settled number ≠ 0))
  | .user _ => inferInstanceAs (Decidable (h.misfreed = true))

end Heap

/-- The certificates that a configuration refers to. -/
structure SslConfig where
  caChain : Option Pointer
  ownCerts : List Pointer -- `mbedtls_ssl_conf_own_cert` adds to them

def SslConfig.certs (c : SslConfig) : List Pointer := c.caChain.toList ++ c.ownCerts

/-- The answers in `get_ssl_config`: of `new`, and of `mbedtls_ssl_config_defaults`. -/
structure ConfigAnswer where
  alloc : Bool
  defaults : ℤ
  deriving DecidableEq

/-- The answers in `continue_handshake`: of `mbedtls_ssl_handshake`, and, where the certificate of
the server is printed, of `new` for the text. -/
structure HandshakeAnswer where
  handshake : ℤ
  buf : Bool
  deriving DecidableEq

/-- The answers in `start_handshake`: `mbedtls_ssl_setup` may leave a reference where it fails. -/
structure StartAnswer extends HandshakeAnswer where
  seed : ℤ
  rng : ConfigAnswer
  conf : ConfigAnswer
  setup : ℤ
  keeps : Bool
  deriving DecidableEq

structure TlsSocketWrapper where
  transport : Bool -- `_transport` is no null pointer
  connectTransport : Bool
  closeTransport : Bool
  tlsInitialized : Bool
  handshakeCompleted : Bool
  cacert : Option Pointer
  clicert : Option Pointer
  sslConf : Option Pointer
  cacertAllocated : Bool
  clicertAllocated : Bool
  sslConfAllocated : Bool
  ssl : Option Pointer -- the configuration that `_ssl` refers to
  contents : Pointer → SslConfig
  certs : Heap
  configs : Heap
  destroyed : Bool
  established : Bool -- a handshake has been completed, and `close` not called since
  nullTransport : Bool -- a null `_transport` was dereferenced
  nullConf : Bool -- a null configuration was passed to Mbed TLS
  early : Bool -- `mbedtls_ssl_read` or `mbedtls_ssl_write` was called without a connection
  result : Option ℤ -- of the last operation, where it has one

namespace TlsSocketWrapper

/-- `TLSSocketWrapper()`. -/
def new (transport : Bool) (control : ControlTransport) : TlsSocketWrapper where
  transport := transport
  connectTransport := control = .connect ∨ control = .connectAndClose
  closeTransport := control = .close ∨ control = .connectAndClose
  tlsInitialized := false
  handshakeCompleted := false
  cacert := none
  clicert := none
  sslConf := none
  cacertAllocated := false
  clicertAllocated := false
  sslConfAllocated := false
  ssl := none
  contents := fun _ => ⟨none, []⟩
  certs := .empty
  configs := .empty
  destroyed := false
  established := false
  nullTransport := false
  nullConf := false
  early := false
  result := none

variable (w : TlsSocketWrapper)

/-- The operation returns. -/
def ret (result : ℤ) : TlsSocketWrapper := { w with result := some result }

/-- The operation has no result. -/
def done : TlsSocketWrapper := { w with result := none }

/-- `_transport` is dereferenced. -/
def useTransport : TlsSocketWrapper := if w.transport then w else { w with nullTransport := true }

/-! ## The configuration -/

/-- `set_ssl_config`. -/
def setSslConfig (conf : Option Pointer) : TlsSocketWrapper :=
  match w.sslConf, w.sslConfAllocated with
  | some old, true =>
      { w with configs := w.configs.free old, sslConfAllocated := false, sslConf := conf }
  | _, _ => { w with sslConf := conf }

/-- `get_ssl_config` returns `sslConf`. -/
def getSslConfig (answer : ConfigAnswer) : TlsSocketWrapper :=
  if w.sslConf ≠ none then w
  else if answer.alloc = false then w
  else
    let w :=
      { w with
        sslConf := some w.configs.fresh
        sslConfAllocated := true
        contents := Function.update w.contents w.configs.fresh ⟨none, []⟩
        configs := w.configs.alloc }
    if answer.defaults ≠ 0 then w.setSslConfig none else w

/-- A function of Mbed TLS is given what `get_ssl_config` returns. -/
def configure (answer : ConfigAnswer) (set : SslConfig → SslConfig) : TlsSocketWrapper :=
  let w := w.getSslConfig answer
  match w.sslConf with
  | some conf => { w with contents := Function.update w.contents conf (set (w.contents conf)) }
  | none => { w with nullConf := true }

/-! ## The certificates -/

/-- `set_ca_chain`. -/
def setCaChain (crt : Option Pointer) (answer : ConfigAnswer) : TlsSocketWrapper :=
  let w := match w.cacert, w.cacertAllocated with
    | some old, true => { w with certs := w.certs.free old, cacertAllocated := false }
    | _, _ => w
  { w with cacert := crt }.configure answer fun c => { c with caChain := crt }

/-- `set_own_cert`, when `mbedtls_ssl_conf_own_cert` answers `rc`. -/
def setOwnCert (crt : Option Pointer) (answer : ConfigAnswer) (rc : ℤ) : TlsSocketWrapper :=
  let w := match w.clicert, w.clicertAllocated with
    | some old, true => { w with certs := w.certs.free old, clicertAllocated := false }
    | _, _ => w
  let w := { w with clicert := crt }
  match crt with
  | some new => w.configure answer fun c =>
      if rc = 0 then { c with ownCerts := c.ownCerts ++ [new] } else c
  | none => w

def setRootCaCert (alloc : Bool) (parse : ℤ) (answer : ConfigAnswer) : TlsSocketWrapper :=
  if alloc = false then w.ret nsapiErrorNoMemory
  else
    let crt := w.certs.fresh
    let w := { w with certs := w.certs.alloc }
    if parse ≠ 0 then { w with certs := w.certs.free crt }.ret nsapiErrorParameter
    else { w.setCaChain (some crt) answer with cacertAllocated := true }.ret nsapiErrorOk

def setClientCertKey (alloc : Bool) (parse key : ℤ) (answer : ConfigAnswer) (rc : ℤ) :
    TlsSocketWrapper :=
  if alloc = false then w.ret nsapiErrorNoMemory
  else
    let crt := w.certs.fresh
    let w := { w with certs := w.certs.alloc }
    if parse ≠ 0 then { w with certs := w.certs.free crt }.ret nsapiErrorParameter
    else if key ≠ 0 then { w with certs := w.certs.free crt }.ret nsapiErrorParameter
    else { w.setOwnCert (some crt) answer rc with clicertAllocated := true }.ret nsapiErrorOk

/-! ## The handshake -/

def continueHandshake (answer : HandshakeAnswer) : TlsSocketWrapper × ℤ :=
  if w.handshakeCompleted then (w, nsapiErrorIsConnected)
  else if w.tlsInitialized = false then (w, nsapiErrorNoConnection)
  else if answer.handshake < 0 then
    if answer.handshake = mbedtlsErrSslWantRead ∨ answer.handshake = mbedtlsErrSslWantWrite then
      (w, nsapiErrorAlready)
    else (w, nsapiErrorAuthFailure)
  else if answer.buf = false then ({ w with established := true }, nsapiErrorNoMemory)
  else ({ w with established := true, handshakeCompleted := true }, nsapiErrorIsConnected)

/-- `mbedtls_ssl_setup`. -/
def sslSetup (answer : StartAnswer) : TlsSocketWrapper :=
  { w with ssl := if answer.setup = 0 ∨ answer.keeps = true then w.sslConf else none }

def startHandshake (firstCall : Bool) (answer : StartAnswer) : TlsSocketWrapper × ℤ :=
  if w.transport = false then (w, nsapiErrorNoSocket)
  else if w.tlsInitialized then w.continueHandshake answer.toHandshakeAnswer
  else if answer.seed ≠ 0 then (w, nsapiErrorAuthFailure)
  else
    let w := ((w.configure answer.rng id).configure answer.conf id).sslSetup answer
    if answer.setup ≠ 0 then (w, nsapiErrorAuthFailure)
    else
      let (w, ret) := { w.useTransport with tlsInitialized := true }.continueHandshake
        answer.toHandshakeAnswer
      if firstCall ∧ ret = nsapiErrorAlready then (w, nsapiErrorInProgress)
      else if firstCall ∧ ret = nsapiErrorIsConnected then (w, nsapiErrorOk)
      else (w, ret)

/-- `connect`, when the one of the transport answers `rc`. -/
def connect (rc : ℤ) (answer : StartAnswer) : TlsSocketWrapper :=
  if w.transport = false then w.ret nsapiErrorNoSocket
  else if w.tlsInitialized = false ∧ w.connectTransport = true then
    let w := w.useTransport
    if rc ≠ 0 ∧ rc ≠ nsapiErrorIsConnected then w.ret rc
    else
      let (w, ret) := w.startHandshake (rc == nsapiErrorOk) answer
      w.ret ret
  else
    let (w, ret) := w.startHandshake true answer
    w.ret ret

/-! ## Data -/

/-- `send` and `recv`, which differ in what they make of the result of `mbedtls_ssl_write` or
`mbedtls_ssl_read`. -/
def transfer (translate : ℤ → ℤ) (answer : HandshakeAnswer) (rc : ℤ) : TlsSocketWrapper :=
  if w.transport = false then w.ret nsapiErrorNoSocket
  else
    let (w, ret) := w.useTransport.continueHandshake answer
    if ret ≠ nsapiErrorIsConnected then
      w.ret (if ret = nsapiErrorAlready then nsapiErrorWouldBlock else ret)
    else
      let w := if w.established then w else { w with early := true }
      w.ret (translate rc)

def send : HandshakeAnswer → ℤ → TlsSocketWrapper :=
  w.transfer fun rc =>
    if rc = mbedtlsErrSslWantWrite ∨ rc = mbedtlsErrSslWantRead then nsapiErrorWouldBlock
    else if rc < 0 then nsapiErrorDeviceError
    else rc

def recv : HandshakeAnswer → ℤ → TlsSocketWrapper :=
  w.transfer fun rc =>
    if rc = mbedtlsErrSslWantWrite ∨ rc = mbedtlsErrSslWantRead then nsapiErrorWouldBlock
    else if rc = mbedtlsErrSslPeerCloseNotify then 0
    else if rc < 0 then nsapiErrorDeviceError
    else rc

def getpeername (rc : ℤ) : TlsSocketWrapper :=
  if w.handshakeCompleted = false then w.ret nsapiErrorNoConnection
  else w.useTransport.ret rc

def recvfrom (address : Bool) (peer : ℤ) (answer : HandshakeAnswer) (rc : ℤ) : TlsSocketWrapper :=
  if address then (w.getpeername peer).recv answer rc else w.recv answer rc

/-! ## The other operations -/

/-- `bind`, `setsockopt` and `getsockopt`: the transport answers `rc`. -/
def forward (rc : ℤ) : TlsSocketWrapper :=
  if w.transport = false then w.ret nsapiErrorNoSocket else w.useTransport.ret rc

def setTimeout (timeout : ℤ) : TlsSocketWrapper :=
  if w.tlsInitialized = false ∧ timeout ≠ -1 ∧ w.connectTransport = true then w.useTransport.done
  else w.done

def setBlocking (blocking : Bool) : TlsSocketWrapper := w.setTimeout (if blocking then -1 else 0)

/-- `close`, when `mbedtls_ssl_close_notify` answers `notify`, and the transport `rc`. -/
def close (notify rc : ℤ) : TlsSocketWrapper :=
  if w.transport = false then w.ret nsapiErrorNoSocket
  else
    let ret := if w.handshakeCompleted then notify else 0
    let w := if w.handshakeCompleted then { w.useTransport with handshakeCompleted := false } else w
    let w' := if w.closeTransport then w.useTransport else w
    let ret := if w.closeTransport ∧ ret = 0 then rc else ret
    { w' with transport := false, established := false }.ret ret

/-- `~TLSSocketWrapper()`. -/
def destroy (answer : ConfigAnswer) : TlsSocketWrapper :=
  let w := if w.transport then
      let w := if w.handshakeCompleted then { w.useTransport with handshakeCompleted := false } else w
      let w := if w.closeTransport then w.useTransport else w
      { w with transport := false, established := false }
    else w
  let w := { w with ssl := none }
  let w := (w.setOwnCert none answer 0).setCaChain none answer
  { w.setSslConfig none with destroyed := true }.done

end TlsSocketWrapper

namespace TlsSocketWrapper

/-- A public operation, or the destructor, with all the answers it gets. -/
inductive Op where
  | setHostname
  | setRootCaCert (alloc : Bool) (parse : ℤ) (answer : ConfigAnswer)
  | setClientCertKey (alloc : Bool) (parse key : ℤ) (answer : ConfigAnswer) (rc : ℤ)
  | setOwnCert (crt : Option Pointer) (answer : ConfigAnswer) (rc : ℤ)
  | setCaChain (crt : Option Pointer) (answer : ConfigAnswer)
  | setSslConfig (conf : Option Pointer)
  | setTimeout (timeout : ℤ)
  | setBlocking (blocking : Bool)
  | getOwnCert
  | getCaChain
  | getSslConfig (answer : ConfigAnswer)
  | getSslContext
  | connect (rc : ℤ) (answer : StartAnswer)
  | send (answer : HandshakeAnswer) (rc : ℤ)
  | sendto (answer : HandshakeAnswer) (rc : ℤ)
  | recv (answer : HandshakeAnswer) (rc : ℤ)
  | recvfrom (address : Bool) (peer : ℤ) (answer : HandshakeAnswer) (rc : ℤ)
  | bind (rc : ℤ)
  | setsockopt (rc : ℤ)
  | getsockopt (rc : ℤ)
  | accept
  | listen
  | getpeername (rc : ℤ)
  | close (notify rc : ℤ)
  | destroy (answer : ConfigAnswer)
  deriving DecidableEq

/-- The user passes pointers that he can have: his own, or what the wrapper has allocated. -/
def Op.Valid (w : TlsSocketWrapper) : Op → Prop
  | .setOwnCert crt _ _ | .setCaChain crt _ => ∀ p ∈ crt, w.certs.Known p
  | .setSslConfig conf => ∀ p ∈ conf, w.configs.Known p
  | _ => True

instance (w : TlsSocketWrapper) (a : Op) : Decidable (a.Valid w) :=
  match a with
  | .setOwnCert crt _ _ | .setCaChain crt _ =>
      inferInstanceAs (Decidable (∀ p ∈ crt, w.certs.Known p))
  | .setSslConfig conf => inferInstanceAs (Decidable (∀ p ∈ conf, w.configs.Known p))
  | .setHostname | .setRootCaCert .. | .setClientCertKey .. | .setTimeout _ | .setBlocking _
  | .getOwnCert | .getCaChain | .getSslConfig _ | .getSslContext | .connect .. | .send .. | .sendto ..
  | .recv .. | .recvfrom .. | .bind _ | .setsockopt _ | .getsockopt _ | .accept | .listen
  | .getpeername _ | .close .. | .destroy _ => isTrue trivial

def act (w : TlsSocketWrapper) : Op → TlsSocketWrapper
  | .setHostname | .getOwnCert | .getCaChain | .getSslContext => w.done
  | .setRootCaCert alloc parse answer => w.setRootCaCert alloc parse answer
  | .setClientCertKey alloc parse key answer rc => w.setClientCertKey alloc parse key answer rc
  | .setOwnCert crt answer rc =>
      (w.setOwnCert crt answer rc).ret (if crt = none then 0 else rc)
  | .setCaChain crt answer => (w.setCaChain crt answer).done
  | .setSslConfig conf => (w.setSslConfig conf).done
  | .setTimeout timeout => w.setTimeout timeout
  | .setBlocking blocking => w.setBlocking blocking
  | .getSslConfig answer => (w.getSslConfig answer).done
  | .connect rc answer => w.connect rc answer
  | .send answer rc | .sendto answer rc => w.send answer rc
  | .recv answer rc => w.recv answer rc
  | .recvfrom address peer answer rc => w.recvfrom address peer answer rc
  | .bind rc | .setsockopt rc | .getsockopt rc => w.forward rc
  | .accept | .listen => w.ret nsapiErrorUnsupported
  | .getpeername rc => w.getpeername rc
  | .close notify rc => w.close notify rc
  | .destroy answer => w.destroy answer

/-- One operation on a wrapper that has not been destroyed. -/
def step (w : TlsSocketWrapper) (a : Op) : Option TlsSocketWrapper :=
  if w.destroyed ∨ ¬ a.Valid w then none else some (w.act a)

end TlsSocketWrapper

end OpenIotSdk.Netsocket
