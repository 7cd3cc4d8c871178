import OpenIotSdk.Verification.Netsocket.Addresses
import OpenIotSdk.Verification.Netsocket.Ipv4Grammar
import OpenIotSdk.Verification.Netsocket.Malformed
import OpenIotSdk.Verification.Netsocket.Portability

/-! # Addresses through their texts

With pointers of eight bytes, what `ip6tos` prints is an address of the grammar, and the one that
is printed. `stoip4` reads what `ip4tos` prints, and takes no text of an IPv6 address. -/

namespace OpenIotSdk.Netsocket

open Fields (joined)

/-! ## IPv6 -/

def partGroup (part : ℕ) (h : part < 2 ^ 16) : Group where
  digits := (Nat.toDigits 16 part).map ascii
  nonempty := by simp
  isField := by
    refine ⟨?_, fun c => isSome_digitValue⟩
    rw [List.length_map]
    exact (Nat.length_toDigits_le_iff (by decide) (by decide)).mpr h

def partBytes (part : ℕ) : List Byte := [BitVec.ofNat 8 (part / 2 ^ 8), BitVec.ofNat 8 part]

theorem exists_partGroups (parts : List ℕ) (h : ∀ part ∈ parts, part < 2 ^ 16) :
    ∃ groups : List Group, groups.length = parts.length ∧
      groupsText groups = joined colon (parts.map (snprintfPart 8)) ∧
      groupsBytes groups = parts.flatMap partBytes := by
  have hgroups : ∃ groups : List Group,
      groups.map Group.digits = parts.map (snprintfPart 8) ∧
      groupsBytes groups = parts.flatMap partBytes := by
    induction parts with
    | nil => exact ⟨[], rfl, rfl⟩
    | cons part parts ih =>
        obtain ⟨hpart, hparts⟩ := List.forall_mem_cons.mp h
        obtain ⟨groups, hdigits, hbytes⟩ := ih hparts
        have hwhole : snprintfPart 8 part = (Nat.toDigits 16 part).map ascii :=
          snprintfPart_of_lt (hpart.trans (by decide))
        refine ⟨partGroup part hpart :: groups, ?_, ?_⟩
        · rw [List.map_cons, List.map_cons, hdigits, hwhole]
          rfl
        · rw [groupsBytes] at hbytes ⊢
          rw [List.flatMap_cons, List.flatMap_cons, hbytes]
          refine congrArg (· ++ _) ?_
          rw [partGroup, digitBytes, hexValue_toDigits part]
          rfl
  obtain ⟨groups, hdigits, hbytes⟩ := hgroups
  refine ⟨groups, ?_, by rw [groupsText, hdigits], hbytes⟩
  simpa using congrArg List.length hdigits

/-- What is printed with room for every digit is the address. -/
theorem PrintsAs.rfc {parts : List ℕ} {text : List Byte} (h : PrintsAs 8 parts text)
    (hparts : ∀ part ∈ parts, part < 2 ^ 16) : Rfc4291 text (parts.flatMap partBytes) := by
  cases h with
  | full _ hlength =>
      obtain ⟨groups, hcount, htext, hbytes⟩ := exists_partGroups parts hparts
      rw [← htext, ← hbytes]
      exact .full groups (hcount.trans hlength)
  | compressed head tail k hk hlength =>
      obtain ⟨first, hfirst, hfirstText, hfirstBytes⟩ :=
        exists_partGroups head fun part hmem => hparts part (by simp [hmem])
      obtain ⟨second, hsecond, hsecondText, hsecondBytes⟩ :=
        exists_partGroups tail fun part hmem => hparts part (by simp [hmem])
      have hzeros : ∀ k, (List.replicate k 0).flatMap partBytes = List.replicate (2 * k) 0 := by
        intro k
        induction k with
        | zero => rfl
        | succ k ih =>
            rw [List.replicate_succ, List.flatMap_cons, ih, Nat.mul_succ, Nat.add_comm,
              List.replicate_add]
            rfl
      have hmissing : 8 - (first.length + second.length) = k := by omega
      have hrfc := Rfc4291.compressed first second (by omega)
      rw [hmissing, hfirstText, hsecondText, hfirstBytes, hsecondBytes] at hrfc
      rwa [List.flatMap_append, List.flatMap_append, hzeros]

theorem flatMap_ip6Parts {n : ℕ} {addr : List Byte} (h : addr.length = 2 * n) :
    (ip6Parts addr).flatMap partBytes = addr := by
  induction n generalizing addr with
  | zero =>
      rw [List.length_eq_zero_iff.mp h]
      rfl
  | succ n ih =>
      match addr, h with
      | high :: low :: addr, h =>
          have hlow := low.isLt
          have hbytes : partBytes (2 ^ 8 * high.toNat + low.toNat) = [high, low] := by
            rw [partBytes]
            refine List.cons_eq_cons.mpr ⟨BitVec.eq_of_toNat_eq ?_, List.cons_eq_cons.mpr
              ⟨BitVec.eq_of_toNat_eq ?_, rfl⟩⟩
            · have hhigh := high.isLt
              rw [BitVec.toNat_ofNat]
              omega
            · rw [BitVec.toNat_ofNat]
              omega
          rw [ip6Parts, List.flatMap_cons, hbytes, ih (by simp at h; omega)]
          rfl

theorem ip6tos_rfc {addr : List Byte} (h : addr.length = 16) :
    ∃ text, ip6tosPrinted .host addr = ⟨text ++ [0], text.length⟩ ∧ Rfc4291 text addr := by
  obtain ⟨text, hprints, htext⟩ := ip6tos_printsAs .host h
  refine ⟨text, by rw [ip6tosPrinted, htext, List.length_append]; rfl, ?_⟩
  have hrfc := PrintsAs.rfc hprints ip6Parts_lt
  rwa [flatMap_ip6Parts (n := 8) h] at hrfc

theorem Rfc4291.chars {t a : List Byte} (h : Rfc4291 t a) {c : Byte} (hc : c ∈ t)
    (hcolon : c ≠ colon) : (digitValue c).isSome = true := by
  have hgroups : ∀ {groups : List Group}, c ∈ groupsText groups → (digitValue c).isSome = true := by
    intro groups hmem
    rw [groupsText, Fields.mem_joined hcolon] at hmem
    obtain ⟨f, hf, hmem⟩ := hmem
    obtain ⟨g, -, rfl⟩ := List.mem_map.mp hf
    exact g.isField.digits c hmem
  cases h with
  | full groups => exact hgroups hc
  | compressed head tail =>
      simp only [List.mem_append, List.mem_cons, hcolon, false_or] at hc
      exact hc.elim hgroups hgroups

theorem Rfc4291.notMem {t a : List Byte} (h : Rfc4291 t a) {c : Byte} (hcolon : c ≠ colon)
    (hdigit : digitValue c = none) : c ∉ t := fun hmem => by
  have hsome := h.chars hmem hcolon
  rw [hdigit] at hsome
  cases hsome

theorem Rfc4291.nonzero {t a : List Byte} (h : Rfc4291 t a) : 0 ∉ t :=
  h.notMem (by decide) digitValue_zero

theorem length_groupsText (groups : List Group) :
    (groupsText groups).length ≤ 5 * groups.length - 1 := by
  induction groups with
  | nil => exact Nat.le_refl 0
  | cons g groups ih =>
      have hg := g.isField.length
      by_cases hnil : groups = []
      · simpa [hnil, groupsText, joined] using hg
      · have hpos := List.length_pos_iff.mpr hnil
        rw [groupsText, List.map_cons, Fields.joined_cons (by simpa using hnil),
          List.length_append, List.length_cons, List.length_cons]
        change _ + ((groupsText groups).length + 1) ≤ _
        omega

theorem Rfc4291.length_le {t a : List Byte} (h : Rfc4291 t a) : t.length < 40 := by
  cases h with
  | full groups hcount =>
      have hlength := length_groupsText groups
      omega
  | compressed head tail hcount =>
      have hhead := length_groupsText head
      have htail := length_groupsText tail
      rw [List.length_append, List.length_cons, List.length_cons]
      omega

theorem Rfc4291.stoip6 {t a r : List Byte} (h : Rfc4291 t a) (platform : Platform)
    (hr : Stops r) (dest : Memory Byte) :
    (stoip6 (t ++ r) (lenOf platform t.length) dest).1 = true ∧
      (stoip6 (t ++ r) (lenOf platform t.length) dest).2.load 0 16 = a := by
  obtain ⟨head, tail, hreads, hfields, hbytes⟩ := h.reads
  exact stoip6_of_reads hreads (fun c hc heq => h.nonzero (heq ▸ hc)) h.length_le hr hfields hbytes

/-! ## IPv4 -/

theorem length_ipv4ToString (byte : Byte) : (ipv4ToString byte).length ≤ 3 := by
  rw [ipv4ToString, List.length_map]
  exact (Nat.length_toDigits_le_iff (by decide) (by decide)).mpr (byte.isLt.trans (by decide))

/-- What the loop of `stoip4` does with a text of `addr`. -/
structure Ipv4Text (text addr : List Byte) : Prop where
  written : ip4tos addr = text ++ [0]
  nonzero : 0 ∉ text
  length : text.length + 1 ≤ 4 * addr.length
  read : ∀ (byteCount : ℕ) (beyond : List Byte) (dest : Memory Byte),
    let out := components addr.length byteCount text.length (text ++ beyond) dest
    out.1 = true ∧
      out.2.load 0 (byteCount + addr.length) = dest.load 0 byteCount ++ addr

theorem length_ipv4Text {addr : List Byte} (h : addr ≠ []) :
    (joined dot (addr.map ipv4ToString)).length + 1 ≤ 4 * addr.length := by
  induction addr with
  | nil => exact absurd rfl h
  | cons byte addr ih =>
      have hbyte := length_ipv4ToString byte
      by_cases hnil : addr = []
      · rw [hnil]
        exact Nat.succ_le_succ hbyte
      · have hrest := ih hnil
        rw [List.map_cons, Fields.joined_cons (by simpa using hnil), List.length_append,
          List.length_cons, List.length_cons]
        omega

theorem nonzero_ipv4Text (addr : List Byte) : 0 ∉ joined dot (addr.map ipv4ToString) := by
  rw [Fields.mem_joined (by decide)]
  rintro ⟨digits, hdigits, hmem⟩
  obtain ⟨byte, -, rfl⟩ := List.mem_map.mp hdigits
  exact absurd (toDigits_decimal byte.toNat 0 hmem) (by decide)

theorem exists_ipv4Text {addr : List Byte} (h : addr ≠ []) : ∃ text, Ipv4Text text addr := by
  refine ⟨joined dot (addr.map ipv4ToString), ip4tos_eq addr, nonzero_ipv4Text addr,
    length_ipv4Text h, ?_⟩
  intro byteCount beyond dest
  have hdotted := dotted_ip4tos addr
  obtain ⟨count, hcount⟩ := Nat.exists_eq_succ_of_ne_zero (mt List.length_eq_zero_iff.mp h)
  rw [hcount] at hdotted ⊢
  apply components_of_dotted
  rwa [List.take_left]

theorem stoip4_ipv6 {t a : List Byte} (h : Rfc4291 t a) (beyond : List Byte)
    (dest : Memory Byte) : (stoip4 (t ++ beyond) t.length dest).1 = false := by
  have hdot : dot ∉ t := h.notMem (by decide) (by decide)
  rw [stoip4]
  split
  · rfl
  · by_contra htrue
    obtain ⟨addr, hdotted⟩ := dotted_of_components (Bool.eq_true_of_not_eq_false htrue)
    rw [List.take_left] at hdotted
    -- There is a dot behind the first number.
    obtain ⟨n, rest, rfl, -, hnext⟩ := hdotted.first
    obtain ⟨rest', addr', rfl, -, -⟩ := hnext (by decide)
    exact hdot (by simp)

theorem Ipv4Text.stoip4 {text addr : List Byte} (h : Ipv4Text text addr) (hcount : addr.length = 4)
    (beyond : List Byte) (dest : Memory Byte) :
    (stoip4 (text ++ beyond) text.length dest).1 = true ∧
      (stoip4 (text ++ beyond) text.length dest).2.load 0 4 = addr := by
  have hshort : ¬ text.length > 16 := by
    have hlength := h.length
    omega
  obtain ⟨hok, hload⟩ := h.read 0 beyond dest
  rw [hcount] at hok hload
  rw [Netsocket.stoip4, if_neg hshort]
  exact ⟨hok, hload⟩

/-! ## `set_ip_address` -/

namespace SocketAddress

theorem ofFn_memory (dest : Memory Byte) (n : ℕ) :
    (List.ofFn fun i : Fin n => dest i) = dest.load 0 n := by
  refine List.ext_getElem? fun i => ?_
  by_cases hi : i < n
  · rw [Memory.getElem?_load hi, Nat.zero_add, List.getElem?_ofFn, dif_pos hi]
  · rw [Memory.getElem?_load_of_le (Nat.le_of_not_lt hi), List.getElem?_ofFn, dif_neg hi]

theorem getIpAddress_eq (platform : Platform) (a : SocketAddress) (fresh : Fin 40 → Byte)
    {text : List Byte} (h : a.version = .ipv4 ∧ ip4tos a.ip = text ++ [0] ∨
      a.version = .ipv6 ∧ ip6tos platform a.ip = text ++ [0]) :
    ∃ beyond, a.getIpAddress platform fresh = text ++ 0 :: beyond := by
  refine ⟨(List.ofFn fresh).drop (text ++ [0]).length, ?_⟩
  rcases h with ⟨hversion, htext⟩ | ⟨hversion, htext⟩
  all_goals
    rw [getIpAddress, hversion]
    dsimp only [getIpAddress.written]
    rw [htext, List.append_assoc, List.singleton_append]

/-- Another object gets the same address from the text of an address. -/
theorem setIpAddress_getIpAddress (a : Specified) (b : SocketAddress) (fresh : Fin 40 → Byte) :
    let out := { b with port := a.1.port }.setIpAddress .host
      (some (a.1.getIpAddress .host fresh))
    out.2 = true ∧ a.1.Same out.1 := by
  obtain ⟨a, hspecified⟩ := a
  dsimp only
  cases hversion : a.version with
  | unspec => exact absurd hversion hspecified
  | ipv4 =>
      have hcount : a.ip.length = 4 := by rw [length_ip, hversion]; rfl
      have hpos : 0 < a.ip.length := by omega
      obtain ⟨text, htext⟩ := exists_ipv4Text (List.ne_nil_of_length_pos hpos)
      obtain ⟨beyond, hmemory⟩ :=
        getIpAddress_eq .host a fresh (Or.inl ⟨hversion, htext.written⟩)
      rw [hmemory, setIpAddress, strlen_of_text htext.nonzero]
      dsimp only
      obtain ⟨hok, hload⟩ := htext.stoip4 hcount (0 :: beyond) (memory b.bytes)
      rw [if_pos hok]
      refine ⟨rfl, same_of_parts hversion.symm rfl ?_⟩
      rw [ip]
      dsimp only [Version.size]
      rw [ofFn_memory _ 16, show 16 = 4 + 12 from rfl, Memory.load_add, List.take_left']
      · exact hload
      · exact Memory.length_load
  | ipv6 =>
      have hcount : a.ip.length = 16 := by rw [length_ip, hversion]; rfl
      obtain ⟨text, hprinted, hrfc⟩ := ip6tos_rfc hcount
      have hwritten : ip6tos .host a.ip = text ++ [0] := congrArg Printed.written hprinted
      obtain ⟨beyond, hmemory⟩ :=
        getIpAddress_eq .host a fresh (Or.inr ⟨hversion, hwritten⟩)
      rw [hmemory, setIpAddress, Platform.strlen, strlen_of_text hrfc.nonzero]
      dsimp only
      rw [if_neg (by rw [stoip4_ipv6 hrfc]; exact Bool.false_ne_true)]
      obtain ⟨hok, hload⟩ := hrfc.stoip6 .host (stops_zero beyond)
        (stoip4 (text ++ 0 :: beyond) text.length (memory b.bytes)).2
      rw [lenOf] at hok hload
      rw [if_pos hok]
      refine ⟨rfl, same_of_parts hversion.symm rfl ?_⟩
      rw [ip]
      dsimp only [Version.size]
      rw [ofFn_memory _ 16, hload, List.take_of_length_le hcount.le]

end SocketAddress

theorem stoip6_ip6tos (a : Fin 16 → Byte) (beyond : List Byte) (dest : Memory Byte) :
    let p := ip6tosPrinted .host (List.ofFn a)
    let out := stoip6 (p.written ++ beyond) (lenOf .host p.returned) dest
    out.1 = true ∧ out.2.load 0 16 = List.ofFn a := by
  have hlength : (List.ofFn a).length = 16 := List.length_ofFn
  obtain ⟨text, hprinted, hrfc⟩ := ip6tos_rfc hlength
  dsimp only
  rw [hprinted, List.append_assoc]
  exact hrfc.stoip6 .host (stops_zero beyond) dest

theorem stoip4_ip4tos (b : Fin 4 → Byte) (beyond : List Byte) (dest : Memory Byte) :
    let p := ip4tosPrinted (List.ofFn b)
    let out := stoip4 (p.written ++ beyond) p.returned dest
    out.1 = true ∧ out.2.load 0 4 = List.ofFn b := by
  obtain ⟨text, htext⟩ := exists_ipv4Text (show List.ofFn b ≠ [] by simp)
  dsimp only [ip4tosPrinted]
  rw [htext.written, List.length_append, List.length_singleton, Nat.add_sub_cancel,
    List.append_assoc]
  exact htext.stoip4 List.length_ofFn (0 :: beyond) dest

end OpenIotSdk.Netsocket
