import OpenIotSdk.Model.Netsocket.IotSocketToMbed
import Mathlib.Data.List.Basic

/-! # `TCPSocket::send` and its TLS caller

`TCPSocket.cpp` and `TLSSocketWrapper::ssl_send`. The stack answers each `iotSocketSend`
with a count or with an error of its choice; it accepts no more than it is offered. -/

namespace OpenIotSdk.Netsocket

/-- The two fields that `send` reads. -/
structure Socket where
  id : ℤ -- `_socket_id`
  timeout : ℕ -- `_timeout`, which is 0 in non-blocking mode

/-- `IOT_SOCKET_ID_INVALID`. -/
def iotSocketIdInvalid : ℤ := -1

/-- A buffer whose length is an `nsapi_size_t`. -/
structure Buffer (β : Type) where
  bytes : List β
  fits : bytes.length < 2 ^ 32

namespace Buffer

variable {β : Type}

/-- The rest of the buffer after `n` bytes. -/
def drop (b : Buffer β) (n : ℕ) : Buffer β :=
  ⟨b.bytes.drop n, by
    have := b.fits
    rw [List.length_drop]
    omega⟩

end Buffer

/-- What a call returned, and the bytes that the stack accepted in it, in order. -/
structure Outcome (β : Type) where
  ret : ℤ
  sent : List β

variable {β : Type}

/-- The loop of `send`, from a given value of `written` on. It has no outcome yet when the
answers of the stack run out. -/
def sendLoop (timeout : ℕ) (data : List β) (written : ℕ) (sent : List β) :
    List ℤ → Option (Outcome β)
  | [] => none
  | reply :: replies =>
      let rc := iotSocketSend reply (data.length - written)
      let sent := sent ++ (data.drop written).take rc.toNat
      let ret := iotSocketErrorToMbed rc
      if 0 ≤ ret then
        let written := written + ret.toNat
        if data.length ≤ written then some ⟨toInt32 written, sent⟩
        else if timeout = 0 then sendLoop timeout data written sent replies
        else some ⟨toInt32 written, sent⟩
      else some ⟨ret, sent⟩

/-- `TCPSocket::send`. -/
def send (socket : Socket) (data : Buffer β) (replies : List ℤ) : Option (Outcome β) :=
  if socket.id = iotSocketIdInvalid then some ⟨nsapiErrorNoSocket, []⟩
  else sendLoop socket.timeout data.bytes 0 [] replies

/-- `MBEDTLS_ERR_SSL_WANT_WRITE`. -/
def mbedtlsErrSslWantWrite : ℤ := -0x6880

/-- `TLSSocketWrapper::ssl_send`, with its transport. -/
def sslSend (socket : Socket) (buf : Buffer β) (replies : List ℤ) : Option (Outcome β) :=
  (send socket buf replies).map fun o =>
    if o.ret = nsapiErrorWouldBlock then { o with ret := mbedtlsErrSslWantWrite } else o

/-! ## The caller in Mbed TLS -/

/-- What is left of a record, and what the stack has accepted of it. -/
structure Flush (β : Type) where
  left : Buffer β
  sent : List β

/-- One call of the send callback: with the same bytes again after
`MBEDTLS_ERR_SSL_WANT_WRITE`, and with the rest after a count. Other errors end it. -/
def flush (s : Flush β) (attempt : Socket × List ℤ) : Option (Flush β) :=
  (sslSend attempt.1 s.left attempt.2).bind fun o =>
    if 0 ≤ o.ret then some ⟨s.left.drop o.ret.toNat, s.sent ++ o.sent⟩
    else if o.ret = mbedtlsErrSslWantWrite then some ⟨s.left, s.sent ++ o.sent⟩
    else none

end OpenIotSdk.Netsocket
