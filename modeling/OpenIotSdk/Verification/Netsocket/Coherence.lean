import OpenIotSdk.Library.Transition
import OpenIotSdk.Model.Netsocket.CachedAddress
import OpenIotSdk.Verification.Netsocket.CanonicalText

/-! # The text that an address keeps

Whatever is done with any number of addresses, the text that `get_ip_address` returns is that of
the bytes and the version that the address has then. -/

namespace OpenIotSdk.Netsocket

open Fields (joined)
open Transition

def string (memory : List Byte) : List Byte := memory.takeWhile (· ≠ 0)

theorem string_eq {text : List Byte} (h : 0 ∉ text) (beyond : List Byte) :
    string (text ++ 0 :: beyond) = text :=
  takeWhile_nonzero h

theorem string_append {memory : List Byte} (h : 0 ∈ memory) (beyond : List Byte) :
    string (memory ++ beyond) = string memory := by
  obtain ⟨text, behind, rfl, htext⟩ := List.eq_append_cons_of_mem h
  rw [List.append_assoc, List.cons_append, string_eq htext, string_eq htext]

theorem zero_mem_ip4tos (addr : List Byte) : 0 ∈ ip4tos addr := by
  rw [ip4tos_eq]
  exact List.mem_append_right _ (List.mem_singleton_self 0)

theorem zero_mem_printParts (size : ℕ) (zero : ℕ × ℕ) (skip n : ℕ) (parts : List ℕ) :
    0 ∈ printParts size zero skip n parts := by
  induction parts generalizing skip n with
  | nil => simp [printParts]
  | cons part parts ih =>
      cases skip with
      | zero =>
          rw [printParts]
          split
          · exact List.mem_append_right _ (List.mem_cons_of_mem _ (ih _ _))
          · exact List.mem_append_right _ (List.mem_append_right _ (ih _ _))
      | succ skip => exact ih _ _

theorem zero_mem_ip6tos (platform : Platform) (addr : List Byte) : 0 ∈ ip6tos platform addr :=
  zero_mem_printParts _ _ _ _ _

/-! ## The text -/

namespace SocketAddress

variable {a : SocketAddress} {platform : Platform}

/-- The text of an address, as `ip4tos` and `ip6tos` print it. -/
def text (platform : Platform) (a : SocketAddress) : Option (List Byte) :=
  match a.version with
  | .unspec => none
  | .ipv4 => some (string (ip4tos a.ip))
  | .ipv6 => some (string (ip6tos platform a.ip))

/-- What the text is where pointers have eight bytes. -/
def Spelled (a : SocketAddress) : Option (List Byte) → Prop
  | none => a.version = .unspec
  | some text =>
      a.version = .ipv4 ∧ text = joined dot (a.ip.map ipv4ToString) ∨
        a.version = .ipv6 ∧ Rfc5952 (hextets a.bytes) text

theorem spelled_text (a : SocketAddress) : a.Spelled (a.text .host) := by
  rw [text]
  cases h : a.version with
  | unspec => exact h
  | ipv4 =>
      refine Or.inl ⟨h, ?_⟩
      rw [ip4tos_eq]
      exact string_eq (nonzero_ipv4Text a.ip) []
  | ipv6 =>
      have hip : a.ip = List.ofFn a.bytes := ip_ipv6 h
      obtain ⟨text, hprinted, hcanonical, hrfc⟩ := exists_canonicalText a.bytes
      have hwritten : ip6tos .host a.ip = text ++ [0] := hip ▸ congrArg Printed.written hprinted
      refine Or.inr ⟨h, ?_⟩
      rw [hwritten, string_eq hrfc.nonzero]
      exact hcanonical

theorem string_getIpAddress (h : a.version ≠ .unspec) (fresh : Fin 40 → Byte) :
    a.text platform = some (string (a.getIpAddress platform fresh)) := by
  rw [text, getIpAddress]
  cases hversion : a.version with
  | unspec => exact absurd hversion h
  | ipv4 => exact congrArg some (string_append (zero_mem_ip4tos _) _).symm
  | ipv6 => exact congrArg some (string_append (zero_mem_ip6tos _ _) _).symm

end SocketAddress

/-! ## The objects -/

namespace CachedAddress

variable {platform : Platform} {a : CachedAddress}

/-- The text that is kept is one that `get_ip_address` has printed of the address. -/
def Coherent (platform : Platform) (a : CachedAddress) : Prop :=
  ∀ memory ∈ a.ipAddress, a.address.version ≠ .unspec ∧
    ∃ fresh, memory = a.address.getIpAddress platform fresh

theorem coherent_dropped (h : a.ipAddress = none) : a.Coherent platform := by
  intro memory hmemory
  rw [h] at hmemory
  cases hmemory

theorem Coherent.setPort (h : a.Coherent platform) (port : BitVec 16) :
    (a.setPort port).Coherent platform := h

theorem getIpAddress_unspec (h : a.address.version = .unspec) (fresh : Fin 40 → Byte) :
    a.getIpAddress platform fresh = (a, none) :=
  if_pos h

/-- What `get_ip_address` returns has been printed of the address, now or before, and is kept. -/
theorem Coherent.getIpAddress_eq (h : a.Coherent platform) (hversion : a.address.version ≠ .unspec)
    (fresh : Fin 40 → Byte) : ∃ fresh',
    a.getIpAddress platform fresh =
      ({ a with ipAddress := some (a.address.getIpAddress platform fresh') },
        some (a.address.getIpAddress platform fresh')) := by
  rw [CachedAddress.getIpAddress, if_neg hversion]
  cases hcache : a.ipAddress with
  | none => exact ⟨fresh, rfl⟩
  | some memory =>
      obtain ⟨-, fresh', rfl⟩ := h memory hcache
      exact ⟨fresh', rfl⟩

theorem Coherent.getIpAddress (h : a.Coherent platform) (fresh : Fin 40 → Byte) :
    (a.getIpAddress platform fresh).2.map string = a.address.text platform ∧
      (a.getIpAddress platform fresh).1.Coherent platform := by
  by_cases hversion : a.address.version = .unspec
  · rw [getIpAddress_unspec hversion, SocketAddress.text, hversion]
    exact ⟨rfl, h⟩
  · obtain ⟨fresh', hget⟩ := h.getIpAddress_eq hversion fresh
    rw [hget]
    refine ⟨(SocketAddress.string_getIpAddress hversion fresh').symm, fun memory hmemory => ?_⟩
    cases hmemory
    exact ⟨hversion, fresh', rfl⟩

theorem address_getIpAddress {fresh : Fin 40 → Byte} :
    (a.getIpAddress platform fresh).1.address = a.address := by
  rw [CachedAddress.getIpAddress]
  split <;> rfl

section

variable {ι : Type*} {objects : Objects ι}

theorem construct_coherent {source : Source ι} (h : construct platform objects source = some a) :
    a.Coherent platform := by
  apply coherent_dropped
  cases source with
  | copy other =>
      obtain ⟨b, -, rfl⟩ := Option.map_eq_some_iff.mp h
      rfl
  | _ =>
      cases h
      rfl

theorem perform_coherent {b : CachedAddress} {call : Call ι} (ha : a.Coherent platform)
    (h : a.perform platform objects call = some b) : b.Coherent platform := by
  cases call with
  | assign other =>
      obtain ⟨c, -, rfl⟩ := Option.map_eq_some_iff.mp h
      exact coherent_dropped rfl
  | setPort port =>
      cases h
      exact ha.setPort port
  | getIpAddress fresh =>
      cases h
      exact (ha.getIpAddress fresh).2
  | _ =>
      cases h
      exact coherent_dropped rfl

variable [DecidableEq ι]

/-- Each object that there is. -/
def Each (p : CachedAddress → Prop) (objects : Objects ι) : Prop :=
  ∀ i, ∀ a ∈ objects i, p a

theorem Each.update {p : CachedAddress → Prop} (h : Each p objects) (i : ι)
    {o : Option CachedAddress} (ho : ∀ a ∈ o, p a) : Each p (Function.update objects i o) :=
  (Function.forall_update_iff objects fun _ o => ∀ a ∈ o, p a).mpr ⟨ho, fun j _ => h j⟩

theorem step_coherent {next : Objects ι} {action : Action ι}
    (h : Each (Coherent platform) objects) (hstep : step platform objects action = some next) :
    Each (Coherent platform) next := by
  cases action with
  | construct i source =>
      obtain ⟨-, hmap⟩ := Option.ite_none_left_eq_some.mp hstep
      obtain ⟨a, hconstruct, rfl⟩ := Option.map_eq_some_iff.mp hmap
      apply h.update i
      rintro _ ⟨⟩
      exact construct_coherent hconstruct
  | call i call =>
      obtain ⟨a, hobject, hmap⟩ := Option.bind_eq_some_iff.mp hstep
      obtain ⟨b, hperform, rfl⟩ := Option.map_eq_some_iff.mp hmap
      apply h.update i
      rintro _ ⟨⟩
      exact perform_coherent (h i a hobject) hperform
  | destroy i =>
      obtain ⟨a, -, rfl⟩ := Option.map_eq_some_iff.mp hstep
      exact h.update i nofun

/-- A call of `get_ip_address` returns the text of the bytes and the version that its object has,
and leaves them as they are. -/
def Current (platform : Platform) (objects : Objects ι) (action : Action ι) (next : Objects ι) :
    Prop :=
  ∀ i fresh, action = .call i (.getIpAddress fresh) → ∃ a b, objects i = some a ∧
    next = Function.update objects i (some b) ∧ b.address = a.address ∧
    (a.getIpAddress platform fresh).2.map string = a.address.text platform

theorem current_of_coherent {next : Objects ι} {action : Action ι}
    (h : Each (Coherent platform) objects) (hstep : step platform objects action = some next) :
    Current platform objects action next := by
  rintro i fresh rfl
  obtain ⟨a, hobject, hnext⟩ := Option.bind_eq_some_iff.mp hstep
  cases hnext
  exact ⟨a, _, hobject, rfl, address_getIpAddress, ((h i a hobject).getIpAddress fresh).1⟩

end

end CachedAddress

/-! ## Equality -/

namespace SocketAddress

theorem equals_equivalence : Equivalence fun a b : SocketAddress => a.equals b = true where
  refl _ := equals_iff.mpr rfl
  symm h := equals_iff.mpr (equals_iff.mp h).symm
  trans h h' := equals_iff.mpr ((equals_iff.mp h).trans (equals_iff.mp h'))

theorem compared_beyond {a : SocketAddress} {bytes : Fin 16 → Byte}
    (h : ∀ i : Fin 16, i < a.version.size → bytes i = a.bytes i) :
    { a with bytes := bytes }.compared = a.compared := by
  refine compared_of_parts rfl rfl (List.ext_getElem ?_ fun i hi hi' => ?_)
  · rw [length_ip, length_ip]
  · have hsize : i < a.version.size := by rwa [length_ip] at hi'
    simp only [ip, List.getElem_take, List.getElem_ofFn]
    exact h _ hsize

end SocketAddress

/-- Whatever is constructed, destroyed and called on any number of objects, `get_ip_address` returns
the text of the bytes and the version that its object has then: the one that denotes them, where
pointers have eight bytes. `operator==` is an equivalence, and bytes beyond those of the version
make no difference to it. -/
theorem addresses_coherent {ι : Type*} [DecidableEq ι] :
    (∀ (platform : Platform) (actions : List (CachedAddress.Action ι)),
      Steps (CachedAddress.step platform) (CachedAddress.Current platform)
        CachedAddress.Objects.init actions) ∧
    (∀ a : SocketAddress, a.Spelled (a.text .host)) ∧
    (Equivalence fun a b : SocketAddress => a.equals b = true) ∧
    ∀ (a b : SocketAddress) (bytes : Fin 16 → Byte),
      (∀ i : Fin 16, i < a.version.size → bytes i = a.bytes i) →
      { a with bytes := bytes }.equals b = a.equals b ∧
        b.equals { a with bytes := bytes } = b.equals a := by
  refine ⟨fun platform actions => ?_, SocketAddress.spelled_text,
    SocketAddress.equals_equivalence, fun a b bytes h => ?_⟩
  · apply Steps.of_inductive (CachedAddress.Each (CachedAddress.Coherent platform))
    · exact fun _ _ _ h hstep => CachedAddress.step_coherent h hstep
    · exact fun _ _ _ h hstep => CachedAddress.current_of_coherent h hstep
    · exact fun _ => nofun
  · have hbeyond := SocketAddress.compared_beyond h
    exact ⟨SocketAddress.equals_congr hbeyond rfl, SocketAddress.equals_congr rfl hbeyond⟩

end OpenIotSdk.Netsocket
