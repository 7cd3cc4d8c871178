import OpenIotSdk.Model.Netsocket.AddressText

/-! # What the parsers and `bitcopy` read

For each function, how far it reads: one more than the highest index of a character or a byte that
it looks at, or 0 if it looks at none. The recursion is that of the function itself. -/

namespace OpenIotSdk.Netsocket

/-! ## `stoip4` -/

/-- The digits of a component. -/
def componentReads (byte : ℕ) : (left : ℕ) → List Byte → ℕ
  | 0, _ => 0
  | _ + 1, [] => 1
  | left + 1, c :: p =>
      if isDecimal c then
        let byte := 10 * byte + (c - ascii '0').toNat
        if byte > 0xff then 1 else componentReads byte left p + 1
      else 1

/-- The loop of `stoip4`. -/
def componentsReads : (missing left : ℕ) → List Byte → ℕ
  | 0, left, _ => if left = 0 then 0 else 1
  | missing + 1, left, p =>
      if left = 0 then 0
      else if !isDecimal (p.headD 0) then 1
      else
        let reads := componentReads 0 left p
        match component 0 left p with
        | none => reads
        | some (_, rest, q) =>
            let digits := left - rest
            if missing = 0 then max reads (digits + componentsReads 0 rest q)
            else if rest = 0 then reads
            else if q.headD 0 ≠ ascii '.' then max reads (digits + 1)
            else max reads (digits + 1 + componentsReads missing (rest - 1) q.tail)

/-- How far `stoip4` reads. -/
def stoip4Reads (ip4addr : List Byte) (len : ℕ) : ℕ :=
  if len > 16 then 0 else componentsReads 4 len ip4addr

/-! ## `stoip6` -/

/-- `hex`, which has looked at the character that it stops at. -/
def hexReads : List Byte → ℕ
  | [] => 1
  | c :: p => if (hexDigit c).isSome then hexReads p + 1 else 1

variable {platform : Platform}

/-- The search for ':' or the end, which tests `len` first. -/
def seekReads (len : platform.Size) : List Byte → ℕ
  | [] => if len = 0 then 0 else 1
  | c :: q =>
      if len = 0 then 0
      else if c ≠ 0 ∧ c ≠ ascii ':' ∧ isHex c then seekReads (len - 1) q + 1
      else 1

/-- The loop of `stoip6`; `coloncolon` tells whether there was a "::". A ninth part is an error
behind the search. -/
def partsReads : (missing : ℕ) → (coloncolon : Bool) → List Byte → platform.Size → ℕ
  | 0, _, p, len => seekReads len p
  | missing + 1, coloncolon, p, len =>
      if len = 0 ∨ p.headD 0 = 0 then seekReads len p
      else
        match seek len p with
        | none => seekReads len p
        | some (digits, q, left) =>
            if digits > 4 then seekReads len p
            else
              let reads := max (seekReads len p) (hexReads p)
              if left = 0 then reads
              else if q.headD 0 = ascii ':' then
                let reads := max reads (digits + 2) -- `q[1]`
                if q.tail.headD 0 = ascii ':' then
                  if coloncolon then reads
                  else max reads (digits + 2 + partsReads missing true q.tail.tail (left - 2))
                else max reads (digits + 1 + partsReads missing coloncolon q.tail (left - 1))
              else max reads (digits + 1 + partsReads missing coloncolon q.tail (left - 1))

/-- How far `stoip6` reads. -/
def stoip6Reads (ip6addr : List Byte) (len : platform.Size) : ℕ :=
  if len.toNat ≥ 40 then 0 else partsReads 8 false ip6addr len

/-! ## `ip6_prefix_tos` -/

/-- `bitcopy`, which reads `bytes` whole bytes and then the one with the remaining bits. -/
def bitcopyReads (bits : ℕ) : ℕ := if bits % 8 = 0 then bits / 8 else bits / 8 + 1

/-- How far `ip6_prefix_tos` reads the prefix. -/
def ip6PrefixTosReads (prefixLen : ℕ) : ℕ := if prefixLen > 128 then 0 else bitcopyReads prefixLen

end OpenIotSdk.Netsocket
