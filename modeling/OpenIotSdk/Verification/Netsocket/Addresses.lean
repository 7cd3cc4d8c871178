import OpenIotSdk.Model.Netsocket.SocketAddress
import OpenIotSdk.Verification.Netsocket.Family
import OpenIotSdk.Verification.Netsocket.PrintedText

/-! # Addresses on their way to the stack and back

The stack takes the bytes of an address. `bind` and `sendto` pass its text instead. -/

namespace OpenIotSdk.Netsocket

/-! ## Texts that spell their own address -/

/-- The only addresses whose text begins with their bytes. -/
def selfSpelling : Platform → Version → List Byte
  | _, .unspec => []
  | _, .ipv4 => [53, 51, 46, 53]
  | .target, .ipv6 =>
      [0x33, 0x33, 0x33, 0x00, 0x3a, 0x33, 0x33, 0x30, 0x00, 0x3a, 0x33, 0x61, 0x33, 0x00, 0x3a, 0x33]
  | .host, .ipv6 =>
      [0x33, 0x33, 0x33, 0x33, 0x3a, 0x33, 0x33, 0x33, 0x33, 0x3a, 0x33, 0x61, 0x33, 0x33, 0x3a, 0x33]

/-- A decimal number begins with its own byte only if it is 53. -/
theorem ipv4ToString_head : ∀ byte : Byte,
    ∃ c text, ipv4ToString byte = c :: text ∧ (c = byte → byte = 53) := by
  have hall : ∀ byte : Byte, ipv4ToString byte ≠ [] ∧
      ((ipv4ToString byte).head? = some byte → byte = 53) := by decide +kernel
  intro byte
  obtain ⟨hne, hhead⟩ := hall byte
  obtain ⟨c, text, heq⟩ := List.exists_cons_of_ne_nil hne
  rw [heq] at hhead
  exact ⟨c, text, heq, fun hc => hhead (congrArg some hc)⟩

theorem ip4tos_spells_iff {b₀ b₁ b₂ b₃ : Byte} {rest : List Byte} :
    (ip4tos [b₀, b₁, b₂, b₃] ++ rest).take 4 = [b₀, b₁, b₂, b₃] ↔
      [b₀, b₁, b₂, b₃] = [53, 51, 46, 53] := by
  constructor
  · intro h
    obtain ⟨c, text, heq, hhead⟩ := ipv4ToString_head b₀
    have hc : c = b₀ := by
      simp only [ip4tos, heq, List.cons_append, List.take_succ_cons, List.cons.injEq] at h
      exact h.1
    have hb₀ := hhead hc
    subst hb₀
    have htext : ipv4ToString 53 = [53, 51] := by decide
    simp only [ip4tos, htext, List.cons_append, List.nil_append, List.take_succ_cons,
      List.cons.injEq, true_and] at h
    obtain ⟨hb₁, hb₂, h⟩ := h
    subst hb₁ hb₂
    have htext' : ipv4ToString 51 = [53, 49] := by decide
    simp only [htext', List.cons_append, List.take_succ_cons, List.cons.injEq] at h
    rw [← h.1]
    rfl
  · intro h
    simp only [List.cons.injEq, and_true] at h
    obtain ⟨rfl, rfl, rfl, rfl⟩ := h
    rfl

/-- Where a run of zeros starts, or 255 if there is none. -/
def ZeroAt (parts : List ℕ) (start : ℕ) : Prop := parts[start]? = some 0 ∨ start = 255

theorem zeroRun_zeroAt (parts : List ℕ) : ZeroAt parts (zeroRun parts).1 := by
  rcases zeroRun_spec parts with hzero | ⟨head, k, tail, hk, hparts, hzero⟩
  · rw [hzero]
    exact Or.inr rfl
  · obtain ⟨k, rfl⟩ : ∃ j, k = j + 1 := ⟨k - 1, by omega⟩
    rw [hzero]
    left
    rw [hparts, List.append_assoc, List.getElem?_append_right (Nat.le_refl _), Nat.sub_self,
      List.replicate_succ, List.cons_append, List.getElem?_cons_zero]

theorem printParts_part {size : ℕ} {zero : ℕ × ℕ} {n part : ℕ} (parts : List ℕ)
    (hn : n ≠ zero.1) (hlast : n + 1 ≠ 8) :
    printParts size zero 0 n (part :: parts) =
      snprintfPart size part ++ ascii ':' :: printParts size zero 0 (n + 1) parts := by
  rw [printParts, if_neg hn, if_pos hlast]
  rfl

theorem snprintfPart_head (platform : Platform) (part : ℕ) {c : Byte} {text : List Byte}
    (h : (Nat.toDigits 16 part).map ascii = c :: text) :
    ∃ rest, snprintfPart platform.sizeofPointer part = c :: rest := by
  dsimp only [snprintfPart]
  rw [h]
  split
  · exact ⟨text, rfl⟩
  · cases platform with
    | target => exact ⟨text.take 2 ++ [0], rfl⟩
    | host => exact ⟨text.take 6 ++ [0], rfl⟩

/-- The text of a part begins with the byte that the part begins with only if that is 51. -/
theorem snprintfPart_high (platform : Platform) (high low : Byte) :
    ∃ c rest, snprintfPart platform.sizeofPointer (2 ^ 8 * high.toNat + low.toNat) = c :: rest ∧
      (c = high → high = 0x33) := by
  have hne : ∀ n, (Nat.toDigits 16 n).map ascii ≠ [] := fun n => by
    simp [Nat.toDigits_ne_nil]
  by_cases hzero : high = 0
  · have hlow : ∀ low : Byte, ((Nat.toDigits 16 low.toNat).map ascii).head? ≠ some 0 := by
      decide +kernel
    obtain ⟨c, text, heq⟩ := List.exists_cons_of_ne_nil (hne low.toNat)
    obtain ⟨rest, hrest⟩ := snprintfPart_head platform low.toNat heq
    subst hzero
    refine ⟨c, rest, by simpa using hrest, fun hc => ?_⟩
    exact absurd (by rw [heq, hc]; rfl) (hlow low)
  · have hhigh : ∀ high : Byte, high ≠ 0 →
        ((Nat.toDigits 16 high.toNat).map ascii).head? = some high → high = 0x33 := by
      decide +kernel
    obtain ⟨c, text, heq⟩ := List.exists_cons_of_ne_nil (hne high.toNat)
    have hpos : 0 < high.toNat := by
      rw [Nat.pos_iff_ne_zero]
      exact fun h => hzero (BitVec.eq_of_toNat_eq h)
    -- The two digits of the low byte come last.
    have hdigits : Nat.toDigits 16 (2 ^ 8 * high.toNat + low.toNat) =
        Nat.toDigits 16 high.toNat ++ [Nat.digitChar (low.toNat / 16)] ++
          [Nat.digitChar (low.toNat % 16)] := by
      have hlow := low.isLt
      rw [Nat.toDigits_of_base_le (by omega) (by omega),
        Nat.toDigits_of_base_le (by omega) (by omega),
        show (2 ^ 8 * high.toNat + low.toNat) / 16 / 16 = high.toNat by omega,
        show (2 ^ 8 * high.toNat + low.toNat) / 16 % 16 = low.toNat / 16 by omega,
        show (2 ^ 8 * high.toNat + low.toNat) % 16 = low.toNat % 16 by omega]
    obtain ⟨rest, hrest⟩ := snprintfPart_head platform (2 ^ 8 * high.toNat + low.toNat)
      (c := c) (by rw [hdigits, List.append_assoc, List.map_append, heq, List.cons_append])
    refine ⟨c, rest, hrest, fun hc => hhigh high hzero ?_⟩
    rw [heq, hc]
    rfl

theorem snprintfPart_low (platform : Platform) (low : Byte) :
    ∃ rest, snprintfPart platform.sizeofPointer (2 ^ 8 * (0x33 : Byte).toNat + low.toNat) =
      0x33 :: 0x33 :: rest := by
  have hall : ∀ low : Byte, (snprintfPart platform.sizeofPointer
      (2 ^ 8 * (0x33 : Byte).toNat + low.toNat)).take 2 = [0x33, 0x33] := by
    cases platform <;> decide +kernel
  refine ⟨(snprintfPart platform.sizeofPointer
    (2 ^ 8 * (0x33 : Byte).toNat + low.toNat)).drop 2, ?_⟩
  conv_lhs => rw [← List.take_append_drop 2 (snprintfPart _ _), hall low]
  rfl

/-- How the address that spells itself goes on after its first two bytes. -/
structure Spelling (size : ℕ) (w₂ w₃ w₅ w₆ w₇ w₈ w₁₀ w₁₁ w₁₂ w₁₃ w₁₅ : Byte) : Prop where
  part₀ : snprintfPart size (2 ^ 8 * (0x33 : Byte).toNat + (0x33 : Byte).toNat) =
    [0x33, 0x33, w₂, w₃]
  part₁ : snprintfPart size (2 ^ 8 * w₂.toNat + w₃.toNat) = [w₅, w₆, w₇, w₈]
  part₂ : snprintfPart size (2 ^ 8 * (ascii ':').toNat + w₅.toNat) = [w₁₀, w₁₁, w₁₂, w₁₃]
  part₃ : ∃ rest, snprintfPart size (2 ^ 8 * w₆.toNat + w₇.toNat) = w₁₅ :: rest
  nonzero : w₂ ≠ 0 ∧ w₆ ≠ 0

theorem exists_spelling (platform : Platform) :
    ∃ w₂ w₃ w₅ w₆ w₇ w₈ w₁₀ w₁₁ w₁₂ w₁₃ w₁₅,
      Spelling platform.sizeofPointer w₂ w₃ w₅ w₆ w₇ w₈ w₁₀ w₁₁ w₁₂ w₁₃ w₁₅ ∧
      selfSpelling platform .ipv6 = [0x33, 0x33, w₂, w₃, ascii ':', w₅, w₆, w₇, w₈, ascii ':', w₁₀,
        w₁₁, w₁₂, w₁₃, ascii ':', w₁₅] := by
  cases platform with
  | target => exact ⟨_, _, _, _, _, _, _, _, _, _, _, ⟨rfl, rfl, rfl, ⟨_, rfl⟩, by decide⟩, rfl⟩
  | host => exact ⟨_, _, _, _, _, _, _, _, _, _, _, ⟨rfl, rfl, rfl, ⟨_, rfl⟩, by decide⟩, rfl⟩

theorem ZeroAt.ne {parts : List ℕ} {start n : ℕ} {high low : Byte} (h : ZeroAt parts start)
    (hn : n < 8) (hpart : parts[n]? = some (2 ^ 8 * high.toNat + low.toNat)) (hhigh : high ≠ 0) :
    n ≠ start := by
  rintro rfl
  rcases h with h | h
  · have hsum : 2 ^ 8 * high.toNat + low.toNat = 0 := Option.some.inj (hpart.symm.trans h)
    exact hhigh (BitVec.eq_of_toNat_eq (by rw [show high.toNat = 0 by omega]; rfl))
  · omega

/-- After the first byte, each byte of such a text decides the next ones. -/
theorem ip6tos_spells_iff {platform : Platform} {b₀ b₁ b₂ b₃ b₄ b₅ b₆ b₇ b₈ b₉ b₁₀ b₁₁ b₁₂ b₁₃ b₁₄
    b₁₅ : Byte} {rest : List Byte} :
    (ip6tos platform [b₀, b₁, b₂, b₃, b₄, b₅, b₆, b₇, b₈, b₉, b₁₀, b₁₁, b₁₂, b₁₃, b₁₄, b₁₅] ++
        rest).take 16 = [b₀, b₁, b₂, b₃, b₄, b₅, b₆, b₇, b₈, b₉, b₁₀, b₁₁, b₁₂, b₁₃, b₁₄, b₁₅] ↔
      [b₀, b₁, b₂, b₃, b₄, b₅, b₆, b₇, b₈, b₉, b₁₀, b₁₁, b₁₂, b₁₃, b₁₄, b₁₅] =
        selfSpelling platform .ipv6 := by
  constructor
  · intro h
    have hzero := zeroRun_zeroAt (ip6Parts [b₀, b₁, b₂, b₃, b₄, b₅, b₆, b₇, b₈, b₉, b₁₀, b₁₁, b₁₂,
      b₁₃, b₁₄, b₁₅])
    dsimp only [ip6tos] at h
    generalize zeroRun (ip6Parts [b₀, b₁, b₂, b₃, b₄, b₅, b₆, b₇, b₈, b₉, b₁₀, b₁₁, b₁₂, b₁₃, b₁₄,
      b₁₅]) = zero at h hzero
    simp only [ip6Parts] at h hzero
    obtain ⟨w₂, w₃, w₅, w₆, w₇, w₈, w₁₀, w₁₁, w₁₂, w₁₃, w₁₅, hw, hspelling⟩ :=
      exists_spelling platform
    rw [hspelling]
    -- The text does not begin with a run of zeros, for the address does not.
    have hn₀ : 0 ≠ zero.1 := by
      intro hstart
      rw [printParts, if_pos hstart, if_pos rfl] at h
      have hb₀ : ascii ':' = b₀ := (List.cons.inj h).1
      exact hzero.ne (n := 0) (by decide) rfl (hb₀ ▸ by decide) hstart
    rw [printParts_part _ hn₀ (by decide)] at h
    obtain ⟨c, text, heq, hhigh⟩ := snprintfPart_high platform b₀ b₁
    have hb₀ : b₀ = 0x33 := by
      rw [heq] at h
      exact hhigh (List.cons.inj h).1
    subst hb₀
    obtain ⟨text, heq⟩ := snprintfPart_low platform b₁
    have hb₁ : 0x33 = b₁ := by
      rw [heq] at h
      exact (List.cons.inj (List.cons.inj h).2).1
    subst hb₁
    rw [hw.part₀] at h
    simp only [List.cons_append, List.nil_append, List.take_succ_cons, List.cons.injEq,
      true_and] at h
    obtain ⟨hb₂, hb₃, hb₄, h⟩ := h
    subst hb₂ hb₃ hb₄
    have hn₁ : 1 ≠ zero.1 := hzero.ne (by decide) rfl hw.nonzero.1
    rw [printParts_part _ hn₁ (by decide), hw.part₁] at h
    simp only [List.cons_append, List.nil_append, List.take_succ_cons, List.cons.injEq] at h
    obtain ⟨hb₅, hb₆, hb₇, hb₈, hb₉, h⟩ := h
    subst hb₅ hb₆ hb₇ hb₈ hb₉
    have hn₂ : 2 ≠ zero.1 := hzero.ne (by decide) rfl (by decide)
    rw [printParts_part _ hn₂ (by decide), hw.part₂] at h
    simp only [List.cons_append, List.nil_append, List.take_succ_cons, List.cons.injEq] at h
    obtain ⟨hb₁₀, hb₁₁, hb₁₂, hb₁₃, hb₁₄, h⟩ := h
    subst hb₁₀ hb₁₁ hb₁₂ hb₁₃ hb₁₄
    have hn₃ : 3 ≠ zero.1 := hzero.ne (by decide) rfl hw.nonzero.2
    obtain ⟨text, heq⟩ := hw.part₃
    rw [printParts_part _ hn₃ (by decide), heq] at h
    simp only [List.cons_append, List.take_succ_cons, List.cons.injEq] at h
    rw [h.1]
  · intro h
    rw [h]
    cases platform <;> rfl

namespace SocketAddress

variable {a : SocketAddress}

theorem ip_ipv4 (h : a.version = .ipv4) :
    a.ip = [a.bytes 0, a.bytes 1, a.bytes 2, a.bytes 3] := by
  rw [ip, h]
  rfl

theorem ip_ipv6 (h : a.version = .ipv6) :
    a.ip = [a.bytes 0, a.bytes 1, a.bytes 2, a.bytes 3, a.bytes 4, a.bytes 5, a.bytes 6, a.bytes 7,
      a.bytes 8, a.bytes 9, a.bytes 10, a.bytes 11, a.bytes 12, a.bytes 13, a.bytes 14,
      a.bytes 15] := by
  rw [ip, h]
  rfl

theorem length_ip : a.ip.length = a.version.size := by
  rw [ip, List.length_take, List.length_ofFn]
  cases a.version <;> rfl

theorem getIpAddress_spells_iff {platform : Platform} {fresh : Fin 40 → Byte}
    (h : a.version ≠ .unspec) :
    (a.getIpAddress platform fresh).take a.version.size = a.ip ↔
      a.ip = selfSpelling platform a.version := by
  cases hversion : a.version with
  | unspec => exact absurd hversion h
  | ipv4 =>
      rw [getIpAddress, hversion, ip_ipv4 hversion]
      exact ip4tos_spells_iff
  | ipv6 =>
      rw [getIpAddress, hversion, ip_ipv6 hversion]
      exact ip6tos_spells_iff

/-! ## Equal addresses -/

variable {b : SocketAddress}

/-- What `operator==` compares. Addresses that are not set are all the same. -/
def compared (a : SocketAddress) : Option (Version × BitVec 16 × List Byte) :=
  if a.isSet then some (a.version, a.port, a.ip) else none

theorem compared_of_parts (hversion : a.version = b.version) (hport : a.port = b.port)
    (hip : a.ip = b.ip) : a.compared = b.compared := by
  rw [compared, compared, isSet, isSet, hversion, hport, hip]

theorem version_of_isSet (h : a.isSet = true) : a.version ≠ .unspec := by
  intro hversion
  rw [isSet, ip, hversion] at h
  cases h

theorem bytes_beq (hspecified : a.version ≠ .unspec) (hversion : a.version = b.version) :
    (if a.version = .ipv4 then a.ip == b.ip else List.ofFn a.bytes == List.ofFn b.bytes) =
      (a.ip == b.ip) := by
  cases ha : a.version with
  | unspec => exact absurd ha hspecified
  | ipv4 => exact if_pos rfl
  | ipv6 =>
      rw [if_neg (by decide), ip, ip, ← hversion, ha]
      rfl

theorem isSome_compared (a : SocketAddress) : a.compared.isSome = a.isSet := by
  rw [compared]
  cases a.isSet <;> rfl

theorem equals_of_isSet (h : a.isSet = true ∨ b.isSet = true) :
    a.equals b = true ↔ a.version = b.version ∧ a.port = b.port ∧ a.ip = b.ip := by
  have hset : ¬ (!a.isSet && !b.isSet) = true := by rcases h with h | h <;> simp [h]
  rw [equals, if_neg hset]
  by_cases hversion : a.version = b.version
  · have hspecified : a.version ≠ .unspec := by
      rcases h with h | h
      · exact version_of_isSet h
      · rw [hversion]
        exact version_of_isSet h
    rw [if_neg (not_not.mpr hversion), bytes_beq hspecified hversion]
    by_cases hport : a.port = b.port
    · simp [hversion, hport]
    · simp [hport]
  · simp [hversion]

theorem equals_iff : a.equals b = true ↔ a.compared = b.compared := by
  by_cases h : a.isSet = true ∨ b.isSet = true
  · rw [equals_of_isSet h]
    constructor
    · rintro ⟨hversion, hport, hip⟩
      exact compared_of_parts hversion hport hip
    · intro hcompared
      have hsame : a.isSet = b.isSet := by
        rw [← isSome_compared a, hcompared, isSome_compared]
      rw [hsame, or_self] at h
      rw [compared, compared, hsame, if_pos h, if_pos h, Option.some.injEq, Prod.mk.injEq,
        Prod.mk.injEq] at hcompared
      exact hcompared
  · rw [not_or, Bool.not_eq_true, Bool.not_eq_true] at h
    simp [equals, compared, h.1, h.2]

theorem equals_congr {c d : SocketAddress} (hleft : a.compared = c.compared)
    (hright : b.compared = d.compared) : a.equals b = c.equals d := by
  rw [Bool.eq_iff_iff, equals_iff, equals_iff, hleft, hright]

/-! ## Addresses that are read back -/

def binary (a : SocketAddress) : Passed := ⟨a.ip, a.version.size, a.port⟩

/-- The same address, for `operator==` and in each of its parts. -/
structure Same (a b : SocketAddress) : Prop where
  equals : a.equals b = true
  version : b.version = a.version
  port : b.port = a.port
  ip : b.ip = a.ip

theorem same_of_parts (hversion : b.version = a.version) (hport : b.port = a.port)
    (hip : b.ip = a.ip) : a.Same b :=
  ⟨equals_iff.mpr (compared_of_parts hversion hport hip).symm, hversion, hport, hip⟩

theorem Same.equals_right (h : a.Same b) (c : SocketAddress) : c.equals b = c.equals a :=
  equals_congr rfl (equals_iff.mp h.equals).symm

/-- The stack gives the binary form of an address, and it is read in the same version. -/
theorem same_ofIpBytes (memory : Fin 16 → Byte) :
    a.Same (.ofIpBytes (InternetSocket.received a.binary memory) a.version a.port) := by
  refine same_of_parts rfl rfl (List.ext_getElem ?_ fun i hi hi' => ?_)
  · rw [length_ip, length_ip]
    rfl
  · have hsize : i < a.version.size := by rwa [length_ip] at hi'
    have hread : (InternetSocket.received a.binary memory).getD i 0 = a.ip[i] := by
      dsimp only [InternetSocket.received, binary]
      rw [List.getD_eq_getElem?_getD, List.getElem?_append_left hi', List.getElem?_eq_getElem hi']
      rfl
    have hbound : i < 16 := hsize.trans_le (by cases a.version <;> decide)
    calc
      _ = (ofIpBytes (InternetSocket.received a.binary memory) a.version a.port).bytes
          ⟨i, hbound⟩ := by simp only [ip, List.getElem_take, List.getElem_ofFn]
      _ = (InternetSocket.received a.binary memory).getD i 0 := if_pos hsize
      _ = a.ip[i] := hread

end SocketAddress

/-! ## The calls -/

namespace InternetSocket

variable {s t : InternetSocket} {version : Version} {reply : ℤ}

def code : Version → ℕ
  | .unspec => 0
  | .ipv4 => Family.inet.code
  | .ipv6 => Family.inet6.code

theorem typeOf_eq_code (h : version ≠ .unspec) : s.typeOf version = code version := by
  cases version with
  | unspec => exact absurd rfl h
  | ipv4 | ipv6 => rfl

theorem afType_of_verify (hverify : s.verifySocketType version reply = (t, true)) :
    t.afType = s.typeOf version := by
  obtain ⟨-, h⟩ | ⟨-, -, h⟩ | ⟨-, -, -, h⟩ | ⟨-, -, -, h⟩ := s.verifySocketType_cases version reply
  all_goals rw [h] at hverify
  · obtain ⟨rfl, hsame⟩ := Prod.mk.inj hverify
    exact (beq_iff_eq.mp hsame).symm
  · cases hverify
  · cases hverify
    rfl
  · cases hverify

theorem code_of_verify (h : version ≠ .unspec)
    (hverify : s.verifySocketType version reply = (t, true)) : t.afType = code version :=
  (afType_of_verify hverify).trans (typeOf_eq_code h)

theorem getIotAddressSize_of_code (hversion : version ≠ .unspec) (h : s.afType = code version) :
    s.getIotAddressSize = version.size := by
  rw [getIotAddressSize, h]
  cases version with
  | unspec => exact absurd rfl hversion
  | ipv4 | ipv6 => rfl

theorem getIpNsapiVersion_of_code (hversion : version ≠ .unspec) (h : s.afType = code version) :
    s.getIpNsapiVersion = version := by
  rw [getIpNsapiVersion, h]
  cases version with
  | unspec => exact absurd rfl hversion
  | ipv4 | ipv6 => rfl

end InternetSocket

abbrev Specified := { a : SocketAddress // a.version ≠ .unspec }

/-- A call that takes an address to the stack or back, with the answers of the stack and the
memory that nothing has been written to. -/
inductive AddressCall where
  | bindPort (s : InternetSocket) (port : BitVec 16) (reply : ℤ) (ip : Fin 16 → Byte)
  | bind (s : InternetSocket) (address : Specified) (reply : ℤ) (fresh : Fin 40 → Byte)
  | connect (s : InternetSocket) (address : Specified) (reply : ℤ)
  | sendto (s : InternetSocket) (address : Specified) (reply : ℤ) (fresh : Fin 40 → Byte)
  | recvfrom (s : InternetSocket) (sender : Specified) (address : Version)
      (connected : SocketAddress) (reply rc : ℤ) (ip : Fin 16 → Byte)
  | getpeername (s : InternetSocket) (peer : Specified) (rc : ℤ) (ip : Fin 16 → Byte)

namespace AddressCall

open InternetSocket

/-- The stack gets the address in binary form, and an address that it gives in this form is read
as the same one. -/
def Faithful (platform : Platform) : AddressCall → Prop
  | bindPort s port reply ip => ∀ p, s.bindPortPasses port reply ip = some p →
      p = ⟨List.replicate s.getIotAddressSize 0, s.getIotAddressSize, port⟩
  | bind s a reply fresh => ∀ p, s.bindPasses platform a reply fresh = some p → p = a.1.binary
  | connect s a reply => ∀ p, s.connectPasses a reply = some p → p = a.1.binary
  | sendto s a reply fresh => ∀ p, s.sendtoPasses platform a reply fresh = some p → p = a.1.binary
  | recvfrom s a version connected reply rc ip =>
      let (t, ok) := s.verifySocketType version reply
      ok = true → t.afType = code a.1.version → t.id ≠ iotSocketIdInvalid → 0 ≤ rc →
        -- A datagram of another peer than the connected one is dropped.
        (connected.isSet = true → connected.equals a = true) →
        ∃ b, s.recvfromWrites version connected reply rc a.1.binary ip = some b ∧ a.1.Same b
  | getpeername s a rc ip =>
      let (result, written) := s.getpeername rc a.1.binary ip
      (result = nsapiErrorOk → rc = 0) ∧
        (rc = 0 → s.afType = code a.1.version → s.id ≠ iotSocketIdInvalid →
          ∃ b, written = some b ∧ a.1.Same b)

/-- What the calls that go wrong need to go right: memory that is zero, an address that spells
itself, or a stack that knows the peer or has none. -/
def Lucky (platform : Platform) : AddressCall → Prop
  | bindPort s _ reply ip => s.opened = true → (s.verifySocketType .unspec reply).2 = true →
      (List.ofFn ip).take s.getIotAddressSize = List.replicate s.getIotAddressSize 0
  | bind s a reply _ => s.opened = true → (s.verifySocketType a.1.version reply).2 = true →
      a.1.ip = selfSpelling platform a.1.version
  | sendto s a reply _ => (s.verifySocketType a.1.version reply).2 = true →
      a.1.ip = selfSpelling platform a.1.version
  | getpeername s _ rc _ => s.id = iotSocketIdInvalid ∨ rc = 0 ∨ rc = iotSocketEnotconn
  | connect .. | recvfrom .. => True

variable {platform : Platform}

/-- Where the text of an address is passed, the stack gets its bytes only if they are spelled. -/
theorem pass_text_iff {s : InternetSocket} {a : Specified} {fresh : Fin 40 → Byte}
    (h : s.afType = code a.1.version) :
    s.pass (a.1.getIpAddress platform fresh) a.1.port = a.1.binary ↔
      a.1.ip = selfSpelling platform a.1.version := by
  rw [← SocketAddress.getIpAddress_spells_iff a.2, InternetSocket.pass, SocketAddress.binary,
    getIotAddressSize_of_code a.2 h, Passed.mk.injEq, and_iff_left ⟨rfl, rfl⟩]

theorem forall_passes_iff {s : InternetSocket} {version : Version} {reply : ℤ} {p : Passed}
    (out : InternetSocket → Passed) {q : Prop}
    (h : ∀ t, s.verifySocketType version reply = (t, true) → (out t = p ↔ q)) :
    (∀ p', (if (s.verifySocketType version reply).2 = true then
        some (out (s.verifySocketType version reply).1) else none) = some p' → p' = p) ↔
      ((s.verifySocketType version reply).2 = true → q) := by
  obtain ⟨⟨t, ok⟩, hverify⟩ : ∃ out, s.verifySocketType version reply = out := ⟨_, rfl⟩
  rw [hverify]
  cases ok with
  | false => simp
  | true =>
      rw [← h t hverify]
      simp

theorem bindPort_faithful_iff (s : InternetSocket) (port : BitVec 16) (reply : ℤ)
    (ip : Fin 16 → Byte) :
    (bindPort s port reply ip).Faithful platform ↔ (bindPort s port reply ip).Lucky platform := by
  dsimp only [Faithful, Lucky, bindPortPasses]
  cases hopened : s.opened with
  | false => simp
  | true =>
      rw [if_neg (by simp), forall_prop_of_true rfl]
      refine forall_passes_iff (fun t => t.pass (List.ofFn ip) port) fun t hverify => ?_
      -- The family of an open socket is the one that is asked for.
      have hsize : t.getIotAddressSize = s.getIotAddressSize := by
        have hfamily := afType_of_verify hverify
        rw [typeOf, if_pos hopened] at hfamily
        rw [getIotAddressSize, hfamily]
        rfl
      rw [InternetSocket.pass, hsize, Passed.mk.injEq, and_iff_left ⟨rfl, rfl⟩]

theorem bind_faithful_iff (s : InternetSocket) (a : Specified) (reply : ℤ)
    (fresh : Fin 40 → Byte) :
    (bind s a reply fresh).Faithful platform ↔ (bind s a reply fresh).Lucky platform := by
  dsimp only [Faithful, Lucky, bindPasses]
  cases hopened : s.opened with
  | false => simp
  | true =>
      rw [if_neg (by simp), forall_prop_of_true rfl]
      exact forall_passes_iff _ fun t hverify => pass_text_iff (code_of_verify a.2 hverify)

theorem sendto_faithful_iff (s : InternetSocket) (a : Specified) (reply : ℤ)
    (fresh : Fin 40 → Byte) :
    (sendto s a reply fresh).Faithful platform ↔ (sendto s a reply fresh).Lucky platform := by
  dsimp only [Faithful, Lucky, sendtoPasses]
  exact forall_passes_iff _ fun t hverify => pass_text_iff (code_of_verify a.2 hverify)

theorem connect_faithful (s : InternetSocket) (a : Specified) (reply : ℤ) :
    (connect s a reply).Faithful platform := by
  dsimp only [Faithful, connectPasses]
  by_cases hopened : s.opened = false
  · simp [hopened]
  · rw [if_neg hopened]
    refine (forall_passes_iff (fun t => t.pass a.1.getIpBytes a.1.port) (q := True)
      fun t hverify => iff_true_intro ?_).mpr fun _ => trivial
    rw [InternetSocket.pass, getIotAddressSize_of_code a.2 (code_of_verify a.2 hverify),
      SocketAddress.getIpBytes, if_neg a.2]
    rfl

theorem recvfrom_faithful (s : InternetSocket) (a : Specified) (version : Version)
    (connected : SocketAddress) (reply rc : ℤ) (ip : Fin 16 → Byte) :
    (recvfrom s a version connected reply rc ip).Faithful platform := by
  dsimp only [Faithful, recvfromWrites]
  intro hok hfamily hid hrc hpeer
  have hsame := a.1.same_ofIpBytes ip
  rw [if_neg (by simp [hok]), if_neg hid, if_neg hrc.not_gt,
    getIpNsapiVersion_of_code a.2 hfamily, if_neg]
  · exact ⟨_, rfl, hsame⟩
  · rintro ⟨hset, hother⟩
    cases hother.symm.trans ((hsame.equals_right connected).trans (hpeer hset))

theorem getpeername_faithful_iff (s : InternetSocket) (a : Specified) (rc : ℤ)
    (ip : Fin 16 → Byte) :
    (getpeername s a rc ip).Faithful platform ↔ (getpeername s a rc ip).Lucky platform := by
  dsimp only [Faithful, Lucky, InternetSocket.getpeername]
  by_cases hid : s.id = iotSocketIdInvalid
  · rw [if_pos hid]
    refine iff_of_true ⟨fun hok => ?_, fun _ _ hvalid => absurd hid hvalid⟩ (Or.inl hid)
    exact absurd hok (by decide)
  · rw [if_neg hid]
    by_cases hrc : rc = iotSocketEnotconn
    · rw [if_pos hrc]
      refine iff_of_true ⟨fun hok => ?_, fun hzero => ?_⟩ (Or.inr (Or.inr hrc))
      · exact absurd hok (by decide)
      · exact absurd (hrc.symm.trans hzero) (by decide)
    · rw [if_neg hrc]
      constructor
      · exact fun h => Or.inr (Or.inl (h.1 rfl))
      · rintro (h | hzero | h)
        · exact absurd h hid
        · refine ⟨fun _ => hzero, fun _ hfamily _ => ⟨_, rfl, ?_⟩⟩
          rw [getIpNsapiVersion_of_code a.2 hfamily]
          exact a.1.same_ofIpBytes ip
        · exact absurd h hrc

/-- Whatever the socket, the address and its port, and whatever the stack answers: an address
keeps its form on the way to the stack and back exactly where `bind` and `sendto` are given one
that spells itself, the memory of `bind` with a port is zero, and `getpeername` gets no error but
that of a socket without a peer. -/
theorem faithful_iff_lucky (platform : Platform) (call : AddressCall) :
    call.Faithful platform ↔ call.Lucky platform := by
  cases call with
  | bindPort s port reply ip => exact bindPort_faithful_iff s port reply ip
  | bind s a reply fresh => exact bind_faithful_iff s a reply fresh
  | connect s a reply => exact iff_true_intro (connect_faithful s a reply)
  | sendto s a reply fresh => exact sendto_faithful_iff s a reply fresh
  | recvfrom s a version connected reply rc ip =>
      exact iff_true_intro (recvfrom_faithful s a version connected reply rc ip)
  | getpeername s a rc ip => exact getpeername_faithful_iff s a rc ip

/-- `bind` to 192.168.0.1 binds to 49.57.50.46, the first characters of its text. -/
theorem textBind_not_faithful : ¬ ∀ (platform : Platform) (call : AddressCall),
    call.Faithful platform := by
  intro h
  let address : SocketAddress := ⟨.ipv4, fun i => [192, 168, 0, 1].getD i 0, 80⟩
  have hbind := h .target (.bind ((new none).open .ipv4) ⟨address, by decide⟩ 3 fun _ => 0) _ rfl
  exact absurd hbind (by decide)

end AddressCall

end OpenIotSdk.Netsocket
