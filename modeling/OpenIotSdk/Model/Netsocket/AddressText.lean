import OpenIotSdk.Library.Memory
import OpenIotSdk.Model.Netsocket.SocketAddress

/-! # Addresses as texts

`stoip4` and `stoip6`, which read the text of an address, `SocketAddress::set_ip_address` over
them, and `ip6_prefix_tos`. A text is the memory from its first character on; what lies beyond a
list is not there and reads as the null character. -/

namespace OpenIotSdk.Netsocket

/-- `size_t`. -/
abbrev Platform.Size (platform : Platform) : Type := BitVec (8 * platform.sizeofPointer)

def strlen (p : List Byte) : ℕ := (p.takeWhile (· ≠ 0)).length

/-- What `strlen` answers as a `size_t`. -/
def Platform.strlen (platform : Platform) (p : List Byte) : platform.Size :=
  BitVec.ofNat _ (Netsocket.strlen p)

/-! ## `stoip4` -/

/-- `c >= '0' && c <= '9'`. -/
def isDecimal (c : Byte) : Bool := ascii '0' ≤ c ∧ c ≤ ascii '9'

/-- The digits of a component, of which `left` may be read, on top of `byte`: what is left then,
and the value, unless it goes over `0xff`. -/
def component (byte : ℕ) : (left : ℕ) → List Byte → Option (ℕ × ℕ × List Byte)
  | 0, p => some (byte, 0, p)
  | left + 1, [] => some (byte, left + 1, [])
  | left + 1, c :: p =>
      if isDecimal c then
        let byte := 10 * byte + (c - ascii '0').toNat
        if byte > 0xff then none else component byte left p
      else some (byte, left + 1, c :: p)

/-- The loop of `stoip4` from component `byteCount` on, where `missing` ones are missing. -/
def components : (missing byteCount left : ℕ) → List Byte → Memory Byte → Bool × Memory Byte
  | 0, _, left, p, dest => (left = 0 ∨ p.headD 0 = 0, dest)
  | missing + 1, byteCount, left, p, dest =>
      if left = 0 ∨ !isDecimal (p.headD 0) then (false, dest)
      else
        match component 0 left p with
        | none => (false, dest)
        | some (byte, left, p) =>
            let dest := dest.store byteCount [BitVec.ofNat 8 byte]
            if missing = 0 then components 0 (byteCount + 1) left p dest
            else if left = 0 ∨ p.headD 0 ≠ ascii '.' then (false, dest)
            else components missing (byteCount + 1) (left - 1) p.tail dest

def stoip4 (ip4addr : List Byte) (len : ℕ) (dest : Memory Byte) : Bool × Memory Byte :=
  if len > 16 then (false, dest) else components 4 0 len ip4addr dest

/-! ## `stoip6` -/

/-- `is_hex`, for which a letter is one of upper case as soon as the bit `0x20` is masked. -/
def isHex (c : Byte) : Bool :=
  (ascii 'A' ≤ c &&& ~~~0x20 ∧ c &&& ~~~0x20 ≤ ascii 'F') ∨ (ascii '0' ≤ c ∧ c ≤ ascii '9')

/-- The value of a digit in `hex`, which stops at a character that is none. -/
def hexDigit (c : Byte) : Option (BitVec 16) :=
  if ascii '0' ≤ c ∧ c ≤ ascii '9' then some ((c - ascii '0').setWidth 16)
  else if ascii 'A' ≤ c ∧ c ≤ ascii 'F' then some (10 + (c - ascii 'A').setWidth 16)
  else if ascii 'a' ≤ c ∧ c ≤ ascii 'f' then some (10 + (c - ascii 'a').setWidth 16)
  else none

/-- `hex`, on top of `val`. -/
def hex (val : BitVec 16) : List Byte → BitVec 16
  | [] => val
  | c :: p =>
      match hexDigit c with
      | some digit => hex (val <<< 4 ||| digit) p
      | none => val

/-- The two bytes that `common_write_16_bit` writes. -/
def commonWrite16Bit (value : BitVec 16) : List Byte := [(value >>> 8).setWidth 8, value.setWidth 8]

/-- `memmove` from `src` to `dst`. -/
def memmove (dest : Memory Byte) (dst src size : ℕ) : Memory Byte :=
  dest.store dst (dest.load src size)

/-- `memset` to 0. -/
def clear (dest : Memory Byte) (dst size : ℕ) : Memory Byte :=
  dest.store dst (List.replicate size 0)

section

variable {platform : Platform}

/-- The search for ':' or the end: how many characters it has passed, and what is left. There
must only be hex characters. -/
def seek (len : platform.Size) : List Byte → Option (ℕ × List Byte × platform.Size)
  | [] => some (0, [], len)
  | c :: q =>
      if len ≠ 0 ∧ c ≠ 0 ∧ c ≠ ascii ':' then
        if isHex c then (seek (len - 1) q).map fun out => (out.1 + 1, out.2) else none
      else some (0, c :: q, len)

/-- How far `stoip6` has come. -/
structure Parts where
  dest : Memory Byte
  fieldNo : ℕ
  coloncolon : Option ℕ -- nothing stands for -1

/-- `common_write_16_bit(hex(p), addr)` and `field_no++`. -/
def Parts.write (s : Parts) (p : List Byte) : Parts :=
  { s with
    dest := s.dest.store (2 * s.fieldNo) (commonWrite16Bit (hex 0 p))
    fieldNo := s.fieldNo + 1 }

/-- The loop of `stoip6` where `missing` parts are missing; one more is an error. -/
def readParts : (missing : ℕ) → Parts → List Byte → platform.Size → Option Parts
  | 0, s, p, len => if len = 0 ∨ p.headD 0 = 0 then some s else none
  | missing + 1, s, p, len =>
      if len = 0 ∨ p.headD 0 = 0 then some s
      else
        match seek len p with
        | none => none
        | some (digits, q, len) =>
            if digits > 4 then none
            else if len = 0 then readParts missing (s.write p) q.tail len
            else if q.headD 0 = ascii ':' ∧ q.tail.headD 0 = ascii ':' then
              if s.coloncolon.isSome then none
              else
                let s := s.write p
                readParts missing { s with coloncolon := some s.fieldNo } q.tail.tail (len - 2)
            else readParts missing (s.write p) q.tail (len - 1)

/-- The zeros for `::`, and what follows it behind them. -/
def insertZeros (dest : Memory Byte) (fieldNo coloncolon : ℕ) : Memory Byte :=
  let headSize := 2 * coloncolon
  let insertedSize := 2 * (8 - fieldNo)
  let tailSize := 16 - headSize - insertedSize
  clear (memmove dest (headSize + insertedSize) headSize tailSize) headSize insertedSize

def stoip6 (ip6addr : List Byte) (len : platform.Size) (dest : Memory Byte) :
    Bool × Memory Byte :=
  if len.toNat ≥ 40 then error dest
  else
    match readParts 8 ⟨dest, 0, none⟩ ip6addr len with
    | none => error dest
    | some s =>
        match s.coloncolon with
        | some coloncolon => (true, insertZeros s.dest s.fieldNo coloncolon)
        | none => if s.fieldNo ≠ 8 then error s.dest else (true, s.dest)
where
  error (dest : Memory Byte) : Bool × Memory Byte := (false, clear dest 0 16)

end

/-! ## `set_ip_address` -/

/-- `_addr.bytes` as memory. -/
def SocketAddress.memory (bytes : Fin 16 → Byte) : Memory Byte := fun x =>
  if h : x < 16 then bytes ⟨x, h⟩ else 0

/-- `set_ip_address`, and whether it could. -/
def SocketAddress.setIpAddress (platform : Platform) (a : SocketAddress)
    (addr : Option (List Byte)) : SocketAddress × Bool :=
  match addr with
  | none => unset
  | some addr =>
      let (ok, dest) := stoip4 addr (strlen addr) (memory a.bytes)
      if ok then ({ a with version := .ipv4, bytes := fun i => dest i }, true)
      else
        let (ok, dest) := stoip6 addr (platform.strlen addr) dest
        if ok then ({ a with version := .ipv6, bytes := fun i => dest i }, true) else unset
where
  unset : SocketAddress × Bool := ({ a with version := .unspec, bytes := fun _ => 0 }, false)

/-! ## The text of a prefix -/

/-- `context_split_mask`. -/
def contextSplitMask (splitValue : ℕ) : Byte := (-(0x100#32 >>> splitValue)).setWidth 8

/-- `bitcopy`, and the memory at `dst` then. -/
def bitcopy (dst src : List Byte) (bits : ℕ) : List Byte :=
  let bytes := bits / 8
  let dst := src.take bytes ++ dst.drop bytes
  if bits % 8 = 0 then dst
  else
    let splitBit := contextSplitMask (bits % 8)
    dst.set bytes ((src.getD bytes 0 &&& splitBit) ||| (dst.getD bytes 0 &&& ~~~splitBit))

/-- The prefix with its other bits cleared. -/
def maskedPrefix (addr : List Byte) (prefixLen : ℕ) : List Byte :=
  bitcopy (List.replicate 16 0) addr prefixLen

/-- What a printer has written, and the length that it returns. -/
structure Printed where
  written : List Byte
  returned : ℕ
  deriving DecidableEq

/-- The string that has been written. -/
def Printed.string (p : Printed) : List Byte := p.written.takeWhile (· ≠ 0)

/-- What `snprintf` writes with room for `size` characters, and the length of the whole text. -/
def snprintf (size : ℕ) (text : List Byte) : Printed :=
  ⟨(if text.length < size then text else text.take (size - 1)) ++ [0], text.length⟩

/-- `ip4tos` with its length. -/
def ip4tosPrinted (addr : List Byte) : Printed := ⟨ip4tos addr, (ip4tos addr).length - 1⟩

/-- `ip6tos` with its length, which does not count the null character at the end. -/
def ip6tosPrinted (platform : Platform) (addr : List Byte) : Printed :=
  ⟨ip6tos platform addr, (ip6tos platform addr).length - 1⟩

def ip6PrefixTos (platform : Platform) (addr : List Byte) (prefixLen : ℕ) : Printed :=
  if prefixLen > 128 then ⟨[], 0⟩
  else
    let address := ip6tosPrinted platform (maskedPrefix addr prefixLen)
    let length := snprintf platform.sizeofPointer
      (ascii '/' :: (Nat.toDigits 10 prefixLen).map ascii)
    ⟨address.written.take address.returned ++ length.written, address.returned + length.returned⟩

/-! ## The length of a prefix -/

/-- `strchr`, with the string from the character on. -/
def strchr (c : Byte) : List Byte → Option (List Byte)
  | [] => none
  | d :: p => if d = c then some (d :: p) else if d = 0 then none else strchr c p

/-- `isspace`: a blank, or one of `\t`, `\n`, `\v`, `\f` and `\r`. -/
def isSpace (c : Byte) : Bool := c = ascii ' ' ∨ (0x09 ≤ c ∧ c ≤ 0x0d)

/-- The value of decimal digits. -/
def decimalValue (digits : List Byte) : ℕ :=
  digits.foldl (fun value c => 10 * value + (c - ascii '0').toNat) 0

/-- `strtoul` in base 10, for an `unsigned long` of `width` bits. A number that does not fit is the
largest one, and one behind a '-' is negated. -/
def strtoul (width : ℕ) (p : List Byte) : BitVec width :=
  let p := p.dropWhile isSpace
  let negative := p.headD 0 = ascii '-'
  let p := if negative ∨ p.headD 0 = ascii '+' then p.tail else p
  let value := decimalValue (p.takeWhile isDecimal)
  if value ≥ 2 ^ width then BitVec.allOnes width
  else if negative then -BitVec.ofNat width value
  else BitVec.ofNat width value

/-- `sipv6_prefixlength`; an `unsigned long` is as wide as a pointer. -/
def sipv6Prefixlength (platform : Platform) (ip6addr : List Byte) : Byte :=
  match strchr (ascii '/') ip6addr with
  | some ptr => (strtoul (8 * platform.sizeofPointer) ptr.tail).setWidth 8
  | none => 0

end OpenIotSdk.Netsocket
