import OpenIotSdk.Model.Netsocket.InternetSocket
import Mathlib.Data.List.OfFn

/-! # `SocketAddress`

`SocketAddress.cpp`, with `ip4tos` and `ip6tos` for the text of an address, and the places where
`InternetSocket`, `TCPSocket` and `InternetDatagramSocket` pass an address to the stack or take
one from it. Memory that nothing has been written to is an argument. -/

namespace OpenIotSdk.Netsocket

abbrev Byte := BitVec 8

/-- Where the code runs. -/
inductive Platform where
  | target -- a board, with pointers of 32 bits
  | host -- the unit tests, with pointers of 64 bits
  deriving DecidableEq

def Platform.sizeofPointer : Platform → ℕ
  | .target => 4
  | .host => 8

/-- `NSAPI_IPv4_BYTES` and `NSAPI_IPv6_BYTES`. -/
def Version.size : Version → ℕ
  | .unspec => 0
  | .ipv4 => 4
  | .ipv6 => 16

/-! ## The text of an address -/

def ascii (c : Char) : Byte := BitVec.ofNat 8 c.toNat

/-- `ipv4_tostring`, which writes the last digit first and then swaps them. -/
def ipv4ToString (byte : Byte) : List Byte := (Nat.toDigits 10 byte.toNat).map ascii

/-- The text with the null character at its end. -/
def ip4tos : List Byte → List Byte
  | [] => [0]
  | [byte] => ipv4ToString byte ++ [0]
  | byte :: addr => ipv4ToString byte ++ ascii '.' :: ip4tos addr

/-- The parts of an address, of two bytes each. -/
def ip6Parts : List Byte → List ℕ
  | high :: low :: addr => (2 ^ 8 * high.toNat + low.toNat) :: ip6Parts addr
  | _ => []

/-- The run of zeros from `n0` to `n` becomes `zero_start` and `zero_len` if it is longer. -/
def longer (n0 n : ℕ) (zero : ℕ × ℕ) : ℕ × ℕ := if n - n0 > zero.2 then (n0, n - n0) else zero

/-- The scan for the longest run of zeros from part `n` on; `n0` is where the run that it is in
has started. -/
def scanZeros (zero : ℕ × ℕ) : (n0 : Option ℕ) → (n : ℕ) → List ℕ → ℕ × ℕ
  | none, _, [] => zero
  | some n0, n, [] => longer n0 n zero
  | none, n, part :: parts =>
      if part ≠ 0 then scanZeros zero none (n + 1) parts
      else scanZeros zero (some n) (n + 1) parts
  | some n0, n, part :: parts =>
      if part ≠ 0 then scanZeros (longer n0 n zero) none (n + 1) parts
      else scanZeros zero (some n0) (n + 1) parts

/-- `zero_start` and `zero_len`. -/
def zeroRun (parts : List ℕ) : ℕ × ℕ := scanZeros (255, 1) none 0 parts

/-- What `snprintf` writes at `p` and skips: it is told that there is room for `sizeof(p)`
characters, and gives the length that the text would have. -/
def snprintfPart (size part : ℕ) : List Byte :=
  let text := (Nat.toDigits 16 part).map ascii
  if text.length < size then text else text.take (size - 1) ++ [0]

/-- The loop that prints from part `n` on, once `skip` parts of the run of zeros are skipped. -/
def printParts (size : ℕ) (zero : ℕ × ℕ) : (skip n : ℕ) → List ℕ → List Byte
  | _, _, [] => [0]
  | skip + 1, n, _ :: parts => printParts size zero skip (n + 1) parts
  | 0, n, part :: parts =>
      if n = zero.1 then
        (if n = 0 then [ascii ':'] else []) ++
          ascii ':' :: printParts size zero (zero.2 - 1) (n + 1) parts
      else
        snprintfPart size part ++
          ((if n + 1 ≠ 8 then [ascii ':'] else []) ++ printParts size zero 0 (n + 1) parts)

def ip6tos (platform : Platform) (addr : List Byte) : List Byte :=
  printParts platform.sizeofPointer (zeroRun (ip6Parts addr)) 0 0 (ip6Parts addr)

/-! ## `SocketAddress` -/

structure SocketAddress where
  version : Version -- `_addr.version`
  bytes : Fin 16 → Byte -- `_addr.bytes`
  port : BitVec 16 -- `_port`

namespace SocketAddress

variable (a : SocketAddress)

/-- The bytes of the address in its version. -/
def ip : List Byte := (List.ofFn a.bytes).take a.version.size

/-- The memory that `get_ip_bytes` points to. -/
def getIpBytes : List Byte := if a.version = .unspec then [] else List.ofFn a.bytes

/-- The memory that `get_ip_address` points to: `NSAPI_IP_SIZE` characters that `new` has left
as they were, and the text. -/
def getIpAddress (platform : Platform) (fresh : Fin 40 → Byte) : List Byte :=
  match a.version with
  | .unspec => []
  | .ipv4 => written (ip4tos a.ip)
  | .ipv6 => written (ip6tos platform a.ip)
where
  written (text : List Byte) : List Byte := text ++ (List.ofFn fresh).drop text.length

/-- An address from `set_ip_bytes` and `set_port`. -/
def ofIpBytes (bytes : List Byte) (version : Version) (port : BitVec 16) : SocketAddress where
  version := version
  bytes := fun i => if i < version.size then bytes.getD i 0 else 0
  port := port

/-- `operator bool`. -/
def isSet : Bool := a.ip.any (· != 0)

/-- `operator==`. -/
def equals (b : SocketAddress) : Bool :=
  if !a.isSet && !b.isSet then true
  else if a.version ≠ b.version then false
  else if a.port ≠ b.port then false
  else if a.version = .ipv4 then a.ip == b.ip
  else List.ofFn a.bytes == List.ofFn b.bytes

end SocketAddress

/-! ## The calls of the stack -/

/-- What the stack is given for an address, or gives: `len` bytes and the port. -/
structure Passed where
  ip : List Byte
  len : ℕ
  port : BitVec 16
  deriving DecidableEq

namespace InternetSocket

variable (s : InternetSocket)

/-- `get_iot_address_size`. -/
def getIotAddressSize : ℕ :=
  if s.afType = Family.inet6.code then Version.ipv6.size else Version.ipv4.size

/-- `get_ip_nsapi_version`. -/
def getIpNsapiVersion : Version := if s.afType = Family.inet.code then .ipv4 else .ipv6

/-- The stack reads as many bytes as it is told. -/
def pass (memory : List Byte) (port : BitVec 16) : Passed :=
  ⟨memory.take s.getIotAddressSize, s.getIotAddressSize, port⟩

/-- What `bind` with a port passes to `iotSocketBind`; nothing has been written to `ip`. -/
def bindPortPasses (port : BitVec 16) (reply : ℤ) (ip : Fin 16 → Byte) : Option Passed :=
  if s.opened = false then none
  else
    let (s, ok) := s.verifySocketType .unspec reply
    if ok then some (s.pass (List.ofFn ip) port) else none

/-- What `bind` passes to `iotSocketBind`. -/
def bindPasses (platform : Platform) (address : SocketAddress) (reply : ℤ)
    (fresh : Fin 40 → Byte) : Option Passed :=
  if s.opened = false then none
  else
    let (s, ok) := s.verifySocketType address.version reply
    if ok then some (s.pass (address.getIpAddress platform fresh) address.port) else none

/-- What `TCPSocket::connect` passes to `iotSocketConnect`. -/
def connectPasses (address : SocketAddress) (reply : ℤ) : Option Passed :=
  if s.opened = false then none
  else
    let (s, ok) := s.verifySocketType address.version reply
    if ok then some (s.pass address.getIpBytes address.port) else none

/-- What `InternetDatagramSocket::sendto` passes to `iotSocketSendTo`. -/
def sendtoPasses (platform : Platform) (address : SocketAddress) (reply : ℤ)
    (fresh : Fin 40 → Byte) : Option Passed :=
  let (s, ok) := s.verifySocketType address.version reply
  if ok then some (s.pass (address.getIpAddress platform fresh) address.port) else none

/-- `iot_address` after the stack has written to it. -/
def received (sender : Passed) (ip : Fin 16 → Byte) : List Byte :=
  sender.ip ++ (List.ofFn ip).drop sender.ip.length

/-- What `InternetDatagramSocket::recvfrom` writes to its `address`, when `iotSocketRecvFrom`
answers `rc` and gives the sender. -/
def recvfromWrites (address : Version) (connected : SocketAddress) (reply rc : ℤ)
    (sender : Passed) (ip : Fin 16 → Byte) : Option SocketAddress :=
  let (s, ok) := s.verifySocketType address reply
  if ok = false then none
  else if s.id = iotSocketIdInvalid then none
  else if rc < 0 then none
  else
    let recvAddress := .ofIpBytes (received sender ip) s.getIpNsapiVersion sender.port
    if connected.isSet ∧ connected.equals recvAddress = false then none else some recvAddress

/-- The result of `getpeername`, when `iotSocketGetPeerName` answers `rc` and gives the peer,
and what it writes to its `address`. -/
def getpeername (rc : ℤ) (peer : Passed) (ip : Fin 16 → Byte) : ℤ × Option SocketAddress :=
  if s.id = iotSocketIdInvalid then (nsapiErrorNoSocket, none)
  else if rc = iotSocketEnotconn then (nsapiErrorNoConnection, none)
  else (nsapiErrorOk, some (.ofIpBytes (received peer ip) s.getIpNsapiVersion peer.port))

end InternetSocket

end OpenIotSdk.Netsocket
