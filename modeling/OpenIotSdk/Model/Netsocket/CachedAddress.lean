import OpenIotSdk.Model.Netsocket.AddressText
import Mathlib.Logic.Function.Basic

/-! # `SocketAddress` with its text

`get_ip_address` keeps the text that it has printed in `_ip_address`, and the calls that write
`_addr` drop it. The objects are any number of these, by their identity. -/

namespace OpenIotSdk.Netsocket

/-- An object; `_ip_address` is null or has the memory that it points to. -/
structure CachedAddress where
  address : SocketAddress := ⟨.unspec, fun _ => 0, 0⟩
  ipAddress : Option (List Byte) := none

namespace CachedAddress

variable (a : CachedAddress)

def setAddr (version : Version) (bytes : Fin 16 → Byte) : CachedAddress where
  address := { a.address with version := version, bytes := bytes }
  ipAddress := none

def setPort (port : BitVec 16) : CachedAddress := { a with address.port := port }

/-- `set_ip_address`, and whether it could. The text is what is in the memory behind `addr` once
`_ip_address` is null. -/
def setIpAddress (platform : Platform) (addr : Option (List Byte)) : CachedAddress × Bool :=
  let (address, ok) := a.address.setIpAddress platform addr
  ({ address := address, ipAddress := none }, ok)

def setIpBytes (bytes : List Byte) (version : Version) : CachedAddress :=
  let addr := SocketAddress.ofIpBytes bytes version a.address.port
  a.setAddr addr.version addr.bytes

/-- `get_ip_address`, and the memory that it returns, if any; `fresh` is what `new` has left in
the memory that it allocates. -/
def getIpAddress (platform : Platform) (fresh : Fin 40 → Byte) :
    CachedAddress × Option (List Byte) :=
  if a.address.version = .unspec then (a, none)
  else
    let memory := a.ipAddress.getD (a.address.getIpAddress platform fresh)
    ({ a with ipAddress := some memory }, some memory)

/-- `operator=`. -/
def assign (addr : CachedAddress) : CachedAddress :=
  (a.setAddr addr.address.version addr.address.bytes).setPort addr.address.port

/-- The constructor with a raw address. -/
def ofAddr (version : Version) (bytes : Fin 16 → Byte) (port : BitVec 16) : CachedAddress where
  address := ⟨version, bytes, port⟩

/-- The constructor with a text. -/
def ofText (platform : Platform) (addr : Option (List Byte)) (port : BitVec 16) : CachedAddress :=
  ((setPort {} port).setIpAddress platform addr).1

/-- The constructor with the bytes of an address. -/
def ofIpBytes (bytes : List Byte) (version : Version) (port : BitVec 16) : CachedAddress :=
  (setPort {} port).setIpBytes bytes version

/-- The copy constructor. -/
def copy (addr : CachedAddress) : CachedAddress where
  address := addr.address

/-! ## Objects -/

variable {ι : Type*}

/-- What an object is constructed from. -/
inductive Source (ι : Type*) where
  | default
  | addr (version : Version) (bytes : Fin 16 → Byte) (port : BitVec 16)
  | text (addr : Option (List Byte)) (port : BitVec 16)
  | ipBytes (bytes : List Byte) (version : Version) (port : BitVec 16)
  | copy (other : ι)

/-- A call on an object. -/
inductive Call (ι : Type*) where
  | assign (other : ι)
  | setIpAddress (addr : Option (List Byte))
  | setIpBytes (bytes : List Byte) (version : Version)
  | setAddr (version : Version) (bytes : Fin 16 → Byte)
  | setPort (port : BitVec 16)
  | getIpAddress (fresh : Fin 40 → Byte)

inductive Action (ι : Type*) where
  | construct (i : ι) (source : Source ι)
  | call (i : ι) (call : Call ι)
  | destroy (i : ι)

/-- The objects that there are. -/
abbrev Objects (ι : Type*) := ι → Option CachedAddress

/-- There is no object yet. -/
def Objects.init : Objects ι := fun _ => none

/-- A constructor; the other object must be there. -/
def construct (platform : Platform) (objects : Objects ι) : Source ι → Option CachedAddress
  | .default => some {}
  | .addr version bytes port => some (ofAddr version bytes port)
  | .text addr port => some (ofText platform addr port)
  | .ipBytes bytes version port => some (ofIpBytes bytes version port)
  | .copy other => (objects other).map copy

/-- What a call makes of its object. -/
def perform (platform : Platform) (objects : Objects ι) : Call ι → Option CachedAddress
  | .assign other => (objects other).map a.assign
  | .setIpAddress addr => some (a.setIpAddress platform addr).1
  | .setIpBytes bytes version => some (a.setIpBytes bytes version)
  | .setAddr version bytes => some (a.setAddr version bytes)
  | .setPort port => some (a.setPort port)
  | .getIpAddress fresh => some (a.getIpAddress platform fresh).1

variable [DecidableEq ι]

def step (platform : Platform) (objects : Objects ι) : Action ι → Option (Objects ι)
  | .construct i source =>
      if (objects i).isSome then none
      else (construct platform objects source).map fun a => Function.update objects i (some a)
  | .call i call =>
      (objects i).bind fun a =>
        (a.perform platform objects call).map fun a => Function.update objects i (some a)
  | .destroy i => (objects i).map fun _ => Function.update objects i none

/-! ## The text of an object as an argument

`get_ip_address` returns a pointer into the memory that its object owns, and `set_ip_address` drops
what its own object owns before it follows the pointer that it has got. -/

/-- Where a `const char *` leads. -/
inductive TextPointer (ι : Type*) where
  | null
  | memory (text : List Byte)
  | owned (owner : ι) -- what is at the `_ip_address` of this object

/-- What is behind a pointer; `freed` is what is in a memory that has been freed. -/
def TextPointer.read (objects : Objects ι) (freed : List Byte) : TextPointer ι → Option (List Byte)
  | .null => none
  | .memory text => some text
  | .owned owner => some (((objects owner).bind ipAddress).getD freed)

/-- `get_ip_address` on object `i`, and the pointer that it returns. -/
def getText (platform : Platform) (fresh : Fin 40 → Byte) (objects : Objects ι) (i : ι) :
    Option (Objects ι × TextPointer ι) :=
  (objects i).map fun a =>
    let (a, memory) := a.getIpAddress platform fresh
    (Function.update objects i (some a), if memory.isSome then .owned i else .null)

/-- `set_ip_address` on object `i`, and whether it could. -/
def setText (platform : Platform) (freed : List Byte) (objects : Objects ι) (i : ι)
    (addr : TextPointer ι) : Option (Objects ι × Bool) :=
  (objects i).map fun a =>
    -- `_ip_address = nullptr`
    let objects := Function.update objects i (some { a with ipAddress := none })
    let (a, ok) := a.setIpAddress platform (addr.read objects freed)
    (Function.update objects i (some a), ok)

/-- `i.set_ip_address(other.get_ip_address())`. -/
def setFrom (platform : Platform) (fresh : Fin 40 → Byte) (freed : List Byte) (objects : Objects ι)
    (i other : ι) : Option (Objects ι × Bool) :=
  (getText platform fresh objects other).bind fun (objects, addr) =>
    setText platform freed objects i addr

end CachedAddress

end OpenIotSdk.Netsocket
