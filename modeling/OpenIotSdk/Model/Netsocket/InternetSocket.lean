import OpenIotSdk.Model.Netsocket.TcpSocket

/-! # `InternetSocket`

`InternetSocket.h` and `InternetSocket.cpp`, with what `TCPSocket` and
`InternetDatagramSocket` override. Each call is one step. The answers of the stack are
arguments, and `osMutexAcquire` returns also where the caller holds `_socket_lock` already. -/

namespace OpenIotSdk.Netsocket

def nsapiErrorParameter : ℤ := -3003

/-- `nsapi_version_t`. -/
inductive Version where
  | unspec
  | ipv4
  | ipv6
  deriving DecidableEq

/-- The two address families. -/
inductive Family where
  | inet
  | inet6
  deriving DecidableEq

/-- `IOT_SOCKET_AF_INET` and `IOT_SOCKET_AF_INET6`. -/
def Family.code : Family → ℕ
  | .inet => 1
  | .inet6 => 2

/-- `osWaitForever`. -/
def osWaitForever : ℕ := 2 ^ 32 - 1

/-- A socket of the stack, and those of its options that `set_timeout` sets. -/
structure IotSocket where
  family : ℕ
  nonblocking : Bool -- `IOT_SOCKET_IO_FIONBIO`
  rcvTimeout : ℕ -- `IOT_SOCKET_SO_RCVTIMEO`
  sndTimeout : ℕ -- `IOT_SOCKET_SO_SNDTIMEO`
  deriving DecidableEq

/-- A new socket has the default options. -/
def IotSocket.create (family : ℕ) : IotSocket := ⟨family, false, 0, 0⟩

/-- Which class overrides the virtual functions. -/
inductive Kind where
  | tcp -- `TCPSocket`
  | udp -- `InternetDatagramSocket`
  deriving DecidableEq

structure InternetSocket where
  id : ℤ -- `_socket_id`
  timeout : ℕ -- `_timeout`
  afType : ℕ -- `_iot_socket_af_type`
  opened : Bool -- `_socket_opened`
  factoryAllocated : Bool -- `_factory_allocated`
  deleted : Bool -- after `delete this`
  iot : IotSocket -- the last socket that the stack has created for this one
  creates : List ℕ -- the families passed to `iotSocketCreate`, in order
  requested : Option ℤ -- the last timeout that the user has requested
  rejected : Bool -- the last call failed because of the version or of the creation
  result : ℤ -- of the last call, where it has one
  deriving DecidableEq

namespace InternetSocket

/-- `InternetSocket()`, or the constructor that `TCPSocket::accept` uses, with the id and the
family of the accepted socket. -/
def new : Option (ℕ × Family) → InternetSocket
  | none =>
      { id := iotSocketIdInvalid
        timeout := osWaitForever
        afType := 0
        opened := false
        factoryAllocated := false
        deleted := false
        iot := .create 0
        creates := []
        requested := none
        rejected := false
        result := 0 }
  | some (id, family) =>
      { id := id
        timeout := osWaitForever
        afType := family.code
        opened := false
        factoryAllocated := true
        deleted := false
        iot := .create family.code
        creates := []
        requested := none
        rejected := false
        result := 0 }

variable (s : InternetSocket)

/-- The family that `verify_socket_type` asks for. Without a version and before `open`, the
default is IPv4 in every build: `#if DEFAULT_IP_VERSION == NSAPI_IPv4` compares two names that
are no macros. -/
def typeOf : Version → ℕ
  | .unspec => if s.opened then s.afType else Family.inet.code
  | .ipv4 => Family.inet.code
  | .ipv6 => Family.inet6.code

def verifySocketType (version : Version) (reply : ℤ) : InternetSocket × Bool :=
  let type := s.typeOf version
  if s.id ≠ iotSocketIdInvalid then (s, type == s.afType)
  else if s.opened = false then (s, false)
  else
    let s := { s with afType := type, creates := s.creates ++ [type] }
    if 0 ≤ reply then ({ s with id := reply, iot := .create type }, true) else (s, false)

/-- The call returns. -/
def ret (result : ℤ) : InternetSocket := { s with rejected := false, result := result }

/-- The call returns because of the version, or because no socket could be created. -/
def reject (result : ℤ) : InternetSocket := { s with rejected := true, result := result }

/-- A call that needs a socket of this version, whose own call of the stack answers `rc`. -/
def onSocket (version : Version) (reply : ℤ) (error rc : ℤ) : InternetSocket :=
  let (s, ok) := s.verifySocketType version reply
  if ok then s.ret (iotSocketErrorToMbed rc) else s.reject error

def «open» (version : Version) : InternetSocket :=
  if s.opened then s.ret nsapiErrorUnknown
  else
    match version with
    | .ipv4 =>
        if s.afType ≠ 0 ∧ s.afType ≠ Family.inet.code then s.reject nsapiErrorParameter
        else { s with afType := Family.inet.code, opened := true }.ret nsapiErrorOk
    | .ipv6 =>
        if s.afType ≠ 0 ∧ s.afType ≠ Family.inet6.code then s.reject nsapiErrorParameter
        else { s with afType := Family.inet6.code, opened := true }.ret nsapiErrorOk
    | .unspec => s.reject nsapiErrorParameter

/-- `close`, when `iotSocketClose` answers `rc`. The destructor of a socket that deletes itself
calls it again. -/
def close (rc : ℤ) : InternetSocket :=
  let closed := if rc = 0 then { s with opened := false, id := iotSocketIdInvalid, afType := 0 }
    else s
  if s.factoryAllocated then
    { closed with factoryAllocated := false, deleted := true }.ret nsapiErrorOk
  else closed.ret (iotSocketErrorToMbed rc)

/-- Both `bind` functions: the one with a port only asks for no version. -/
def bind (version : Version) (reply rc : ℤ) : InternetSocket :=
  if s.opened = false then s.ret nsapiErrorNoSocket
  else s.onSocket version reply nsapiErrorParameter rc

def connect (kind : Kind) (version : Version) (reply rc : ℤ) : InternetSocket :=
  match kind with
  | .tcp =>
      if s.opened = false then s.ret nsapiErrorNoSocket
      else s.onSocket version reply nsapiErrorParameter rc
  | .udp => s.ret nsapiErrorOk

/-- `sendto`; that of `TCPSocket` is `send`, which returns `rc` here. -/
def sendto (kind : Kind) (version : Version) (reply rc : ℤ) : InternetSocket :=
  match kind with
  | .tcp => s.ret (if s.id = iotSocketIdInvalid then nsapiErrorNoSocket else rc)
  | .udp => s.onSocket version reply nsapiErrorParameter rc

/-- `recvfrom`, with the version of `address` if that is no null pointer. For
`InternetDatagramSocket`, `rc` is 0 if it drops a datagram of another peer. -/
def recvfrom (kind : Kind) (address : Option Version) (reply rc : ℤ) : InternetSocket :=
  match kind, address with
  | .tcp, _ | .udp, none =>
      s.ret (if s.id = iotSocketIdInvalid then nsapiErrorNoSocket else iotSocketErrorToMbed rc)
  | .udp, some version => s.onSocket version reply nsapiErrorParameter rc

/-- `setsockopt` and `getsockopt`: only `NSAPI_KEEPALIVE` of `NSAPI_SOCKET` reaches the stack. -/
def sockopt (keepalive : Bool) (reply rc : ℤ) : InternetSocket :=
  s.onSocket .unspec reply nsapiErrorNoSocket (if keepalive then rc else iotSocketEnotsup)

/-! ## Timeouts -/

/-- The value of `_timeout` for a requested timeout. -/
def timeoutValue (timeout : ℤ) : ℕ := if timeout < 0 then osWaitForever else timeout.toNat

/-- `iotSocketSetOpt` answers, with 0 if it has set the option. -/
def setOpt (rc : ℤ) (set : IotSocket → IotSocket) : InternetSocket :=
  if rc = 0 then { s with iot := set s.iot } else s

/-- The options, when the calls of `iotSocketSetOpt` answer `rcv`, `snd` and `nbio`. -/
def setTimeoutOpts (timeout : ℤ) (rcv snd nbio : ℤ) : InternetSocket :=
  let isBlocking : ℕ := if timeout ≠ 0 then 1 else 0
  let s := { s with timeout := timeoutValue timeout }
  let s := if isBlocking ≠ 0 then
      (s.setOpt rcv fun iot => { iot with rcvTimeout := s.timeout }).setOpt snd fun iot =>
        { iot with sndTimeout := s.timeout }
    else s
  s.setOpt nbio fun iot => { iot with nonblocking := isBlocking != 0 }

def setTimeout (timeout : ℤ) (reply rcv snd nbio : ℤ) : InternetSocket :=
  let oldValue := s.opened
  let (s, ok) := { s with opened := true, requested := some timeout }.verifySocketType .unspec reply
  let s := { s with opened := oldValue }
  if ok then (s.setTimeoutOpts timeout rcv snd nbio).ret 0 else s.reject 0

def setBlocking (blocking : Bool) (reply rcv snd nbio : ℤ) : InternetSocket :=
  s.setTimeout (if blocking then -1 else 0) reply rcv snd nbio

/-! ## Accepting -/

/-- What `accept` returns, what it leaves in `error`, and what it passes to `iotSocketClose`. -/
structure Accepted where
  connection : Option InternetSocket
  error : ℤ
  closes : Option ℤ

/-- `TCPSocket::accept`, when `iotSocketAccept` answers `rc`, and `new` if there is memory. The
socket of the stack has the family of the listening one. -/
def accept (rc : ℤ) (memory : Bool) : Accepted :=
  if s.id = iotSocketIdInvalid then ⟨none, nsapiErrorNoSocket, none⟩
  else if rc < 0 then ⟨none, iotSocketErrorToMbed rc, none⟩
  else if memory then
    let connection :=
      { new none with
        id := rc
        afType := s.afType
        factoryAllocated := true
        iot := .create s.iot.family }
    ⟨some connection, iotSocketErrorToMbed rc, none⟩
  else ⟨none, nsapiErrorNoMemory, some rc⟩

end InternetSocket

namespace InternetSocket

/-- A call, with the answers of the stack: `reply` is that of `iotSocketCreate`. -/
inductive Action where
  | open (version : Version)
  | close (rc : ℤ)
  | bind (version : Version) (reply rc : ℤ)
  | connect (version : Version) (reply rc : ℤ)
  | sendto (version : Version) (reply rc : ℤ)
  | recvfrom (address : Option Version) (reply rc : ℤ)
  | sockopt (keepalive : Bool) (reply rc : ℤ)
  | setTimeout (timeout : ℤ) (reply rcv snd nbio : ℤ)
  | setBlocking (blocking : Bool) (reply rcv snd nbio : ℤ)
  deriving DecidableEq

/-- One call on an object that has not been deleted. -/
def step (kind : Kind) (s : InternetSocket) (a : Action) : Option InternetSocket :=
  if s.deleted then none
  else match a with
    | .open version => some (s.open version)
    | .close rc => some (s.close rc)
    | .bind version reply rc => some (s.bind version reply rc)
    | .connect version reply rc => some (s.connect kind version reply rc)
    | .sendto version reply rc => some (s.sendto kind version reply rc)
    | .recvfrom address reply rc => some (s.recvfrom kind address reply rc)
    | .sockopt keepalive reply rc => some (s.sockopt keepalive reply rc)
    | .setTimeout timeout reply rcv snd nbio => some (s.setTimeout timeout reply rcv snd nbio)
    | .setBlocking blocking reply rcv snd nbio => some (s.setBlocking blocking reply rcv snd nbio)

end InternetSocket

end OpenIotSdk.Netsocket
