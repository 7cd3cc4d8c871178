import OpenIotSdk.Verification.Netsocket.Coherence

/-! # The text of an address as an argument

`set_ip_address` reads what `get_ip_address` has returned of any other object. The text of its own
object it frees before it parses it. -/

namespace OpenIotSdk.Netsocket

open Transition

theorem SocketAddress.setIpAddress_empty (platform : Platform) (a : SocketAddress) :
    (a.setIpAddress platform (some [])).2 = false := by
  have hstoip4 : (stoip4 [] (strlen []) (memory a.bytes)).1 = false := by
    simp [stoip4, strlen, components]
  have hstoip6 : ∀ dest, (stoip6 [] (platform.strlen []) dest).1 = false := by
    intro dest
    simp [stoip6, Platform.strlen, strlen, readParts, stoip6.error]
  rw [setIpAddress]
  dsimp only
  rw [if_neg (by rw [hstoip4]; exact Bool.false_ne_true),
    if_neg (by rw [hstoip6]; exact Bool.false_ne_true)]
  rfl

namespace CachedAddress

variable {ι : Type*} [DecidableEq ι] {objects : Objects ι} {a b : CachedAddress} {i other : ι}

/-- `i.set_ip_address(other.get_ip_address())` succeeds and makes `i` the address of `other`, with
the port that `i` has, whatever is in fresh and in freed memory. -/
def Restores (objects : Objects ι) (i other : ι) : Prop :=
  ∀ (fresh : Fin 40 → Byte) (freed : List Byte), ∀ a ∈ objects i, ∀ b ∈ objects other,
    ∃ next c, setFrom .host fresh freed objects i other = some (next, true) ∧ next i = some c ∧
      { b.address with port := a.address.port }.Same c.address

section

variable {platform : Platform}

/-- `get_ip_address` returns a pointer into the text that its object keeps from then on. -/
theorem getText_eq (hb : objects other = some b) (h : b.Coherent platform)
    (hversion : b.address.version ≠ .unspec) (fresh : Fin 40 → Byte) : ∃ fresh',
    getText platform fresh objects other =
      some (Function.update objects other
        (some { b with ipAddress := some (b.address.getIpAddress platform fresh') }),
        .owned other) := by
  obtain ⟨fresh', hget⟩ := h.getIpAddress_eq hversion fresh
  refine ⟨fresh', ?_⟩
  rw [getText, hb, Option.map_some, hget]
  rfl

/-- The pointer is followed when the object's own text has been dropped. -/
theorem setText_eq (platform : Platform) (ha : objects i = some a) (freed : List Byte)
    (addr : TextPointer ι) : ∃ next,
    let dropped := Function.update objects i (some { a with ipAddress := none })
    let out := a.setIpAddress platform (addr.read dropped freed)
    setText platform freed objects i addr = some (next, out.2) ∧ next i = some out.1 := by
  rw [setText, ha]
  exact ⟨_, rfl, Function.update_self _ _ _⟩

theorem setFrom_of_ne (hne : i ≠ other) (ha : objects i = some a) (hb : objects other = some b)
    (h : b.Coherent platform) (hversion : b.address.version ≠ .unspec) (fresh : Fin 40 → Byte)
    (freed : List Byte) : ∃ fresh' next,
    let out := a.setIpAddress platform (some (b.address.getIpAddress platform fresh'))
    setFrom platform fresh freed objects i other = some (next, out.2) ∧ next i = some out.1 := by
  obtain ⟨fresh', hget⟩ := getText_eq hb h hversion fresh
  obtain ⟨next, hset, hnext⟩ :=
    setText_eq platform ((Function.update_of_ne hne _ _).trans ha) freed (.owned other)
  refine ⟨fresh', next, ?_⟩
  rw [TextPointer.read, Function.update_of_ne hne.symm, Function.update_self] at hset hnext
  exact ⟨(congrArg (Option.bind · _) hget).trans hset, hnext⟩

/-- From the object itself, freed memory is read. -/
theorem setFrom_self (ha : objects i = some a) (h : a.Coherent platform)
    (hversion : a.address.version ≠ .unspec) (fresh : Fin 40 → Byte) (freed : List Byte) :
    ∃ next, setFrom platform fresh freed objects i i =
      some (next, (a.address.setIpAddress platform (some freed)).2) := by
  obtain ⟨fresh', hget⟩ := getText_eq ha h hversion fresh
  obtain ⟨next, hset, -⟩ := setText_eq platform (Function.update_self _ _ _) freed (.owned i)
  rw [TextPointer.read, Function.update_self] at hset
  exact ⟨next, (congrArg (Option.bind · _) hget).trans hset⟩

end

theorem restores_of_ne (hne : i ≠ other) (h : Each (Coherent .host) objects)
    (hversion : ∀ b ∈ objects other, b.address.version ≠ .unspec) : Restores objects i other := by
  intro fresh freed a ha b hb
  have hspecified := hversion b hb
  obtain ⟨fresh', next, hset, hnext⟩ :=
    setFrom_of_ne hne ha hb (h other b hb) hspecified fresh freed
  obtain ⟨hok, hsame⟩ := SocketAddress.setIpAddress_getIpAddress
    ⟨{ b.address with port := a.address.port }, hspecified⟩ a.address fresh'
  refine ⟨next, _, ?_, hnext, hsame⟩
  rw [hset]
  exact congrArg (fun ok => some (next, ok)) hok

theorem not_restores_self (ha : objects i = some a) (h : a.Coherent .host)
    (hversion : a.address.version ≠ .unspec) : ¬Restores objects i i := by
  intro hrestores
  obtain ⟨next, hset⟩ := setFrom_self ha h hversion (fun _ => 0) []
  obtain ⟨_, _, htrue, -⟩ := hrestores (fun _ => 0) [] a ha a ha
  rw [hset, SocketAddress.setIpAddress_empty] at htrue
  cases htrue

/-- Each address of either version that there is can be read back into an object from the text that
`get_ip_address` returns exactly if it is another object. -/
def ReadBack (objects : Objects ι) : Prop :=
  ∀ i other, ∀ a ∈ objects i, ∀ b ∈ objects other, b.address.version ≠ .unspec →
    (Restores objects i other ↔ i ≠ other)

theorem readBack_of_coherent (h : Each (Coherent .host) objects) : ReadBack objects := by
  intro i other a ha b hb hversion
  constructor
  · rintro hrestores rfl
    exact not_restores_self hb (h i b hb) hversion hrestores
  · intro hne
    refine restores_of_ne hne h fun c hc => ?_
    rwa [← Option.mem_unique hb hc]

end CachedAddress

/-- With pointers of eight bytes, every address is read back from its text: what `ip6tos` prints by
`stoip6`, and what `ip4tos` prints by `stoip4`. After whatever is constructed, destroyed and called
on any number of objects, `set_ip_address` reads back what `get_ip_address` has returned of an
object, and makes an equal address of the same version, exactly if it is not called on the object
that owns the text. -/
theorem texts_read_back_iff {ι : Type*} [DecidableEq ι] :
    (∀ (a : Fin 16 → Byte) (beyond : List Byte) (dest : Memory Byte),
      let p := ip6tosPrinted .host (List.ofFn a)
      let out := stoip6 (p.written ++ beyond) (lenOf .host p.returned) dest
      out.1 = true ∧ out.2.load 0 16 = List.ofFn a) ∧
    (∀ (b : Fin 4 → Byte) (beyond : List Byte) (dest : Memory Byte),
      let p := ip4tosPrinted (List.ofFn b)
      let out := stoip4 (p.written ++ beyond) p.returned dest
      out.1 = true ∧ out.2.load 0 4 = List.ofFn b) ∧
    ∀ actions : List (CachedAddress.Action ι),
      Always (CachedAddress.step .host) CachedAddress.ReadBack CachedAddress.Objects.init
        actions := by
  refine ⟨stoip6_ip6tos, stoip4_ip4tos, fun actions => ?_⟩
  apply Always.of_inductive (CachedAddress.Each (CachedAddress.Coherent .host))
  · exact fun _ _ _ h hstep => CachedAddress.step_coherent h hstep
  · exact fun _ h => CachedAddress.readBack_of_coherent h
  · exact fun _ => nofun

/-- `a = 10.0.0.1` and `a.set_ip_address(a.get_ip_address())`: the text is freed before it is
read. -/
theorem own_text_lost :
    ¬∀ actions : List (CachedAddress.Action Unit),
      Always (CachedAddress.step .host)
        (fun objects => ∀ i other, ∀ a ∈ objects i, ∀ b ∈ objects other,
          b.address.version ≠ .unspec → CachedAddress.Restores objects i other)
        CachedAddress.Objects.init actions := by
  intro h
  let a : CachedAddress := .ofAddr .ipv4 (fun i => ([10, 0, 0, 1] : List Byte).getD i 0) 80
  have hversion : a.address.version ≠ .unspec := nofun
  have hrestores := (h [.construct () (.addr .ipv4 a.address.bytes 80)]).2 _ rfl () () a rfl a rfl
    hversion
  exact absurd hrestores
    (CachedAddress.not_restores_self (a := a) rfl (CachedAddress.coherent_dropped rfl) hversion)

end OpenIotSdk.Netsocket
