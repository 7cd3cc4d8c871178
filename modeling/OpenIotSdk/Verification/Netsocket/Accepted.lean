import OpenIotSdk.Model.Netsocket.SocketAddress
import OpenIotSdk.Verification.Netsocket.Family

/-! # Accepted sockets

An accepted socket keeps its id and the family of the listening one. Its options are looked for in
the default family as long as `open` has not been called on it. -/

namespace OpenIotSdk.Netsocket.InternetSocket

open Transition

def versionOf : Family → Version
  | .inet => .ipv4
  | .inet6 => .ipv6

/-- `setsockopt` and `getsockopt` call the stack for the socket `id`, and return what it answers. -/
def Reaches (id : ℤ) (s : InternetSocket) : Prop :=
  ∀ keepalive reply rc,
    (s.sockopt keepalive reply rc).id = id ∧ (s.sockopt keepalive reply rc).rejected = false ∧
      (s.sockopt keepalive reply rc).result =
        iotSocketErrorToMbed (if keepalive then rc else iotSocketEnotsup)

/-- `getpeername` asks for an address of the family, and reads what it gets as one. -/
structure Interprets (family : Family) (s : InternetSocket) : Prop where
  size : s.getIotAddressSize = (versionOf family).size
  peer : ∀ rc peer ip, s.getpeername rc peer ip =
    if rc = iotSocketEnotconn then (nsapiErrorNoConnection, none)
    else (nsapiErrorOk, some (.ofIpBytes (received peer ip) (versionOf family) peer.port))

/-- The socket has the id and the family that `accept` gave it. -/
structure Connected (id : ℤ) (family : Family) (s : InternetSocket) : Prop where
  id_eq : s.id = id
  afType : s.afType = family.code
  owned : s.factoryAllocated = true

variable {s t : InternetSocket} {id : ℤ} {family : Family}

theorem Connected.ret (h : Connected id family s) (result : ℤ) : Connected id family (s.ret result) :=
  ⟨h.id_eq, h.afType, h.owned⟩

theorem Connected.reject (h : Connected id family s) (result : ℤ) :
    Connected id family (s.reject result) :=
  ⟨h.id_eq, h.afType, h.owned⟩

/-! ## Calls -/

theorem verifySocketType_valid (hid : s.id ≠ iotSocketIdInvalid) (version : Version) (reply : ℤ) :
    s.verifySocketType version reply = (s, s.typeOf version == s.afType) := by
  rw [verifySocketType, if_pos hid]

theorem Connected.onSocket (h : Connected id family s) (hid : id ≠ iotSocketIdInvalid)
    (version : Version) (reply error rc : ℤ) :
    Connected id family (s.onSocket version reply error rc) := by
  dsimp only [InternetSocket.onSocket]
  rw [verifySocketType_valid (h.id_eq ▸ hid)]
  dsimp only
  split
  · exact h.ret _
  · exact h.reject _

/-- Another version is refused, as the family is set. -/
theorem Connected.open (h : Connected id family s) (version : Version) :
    Connected id family (s.open version) := by
  have hopens : ∀ family' : Family, ¬ (s.afType ≠ 0 ∧ s.afType ≠ family'.code) →
      family'.code = family.code := by
    intro family' hsame
    have hne : s.afType ≠ 0 := by rw [h.afType]; cases family <;> decide
    rw [← h.afType]
    by_contra hother
    exact hsame ⟨hne, Ne.symm hother⟩
  unfold InternetSocket.open
  split
  · exact h.ret _
  · split
    · split
      · exact h.reject _
      · next hsame => exact ⟨h.id_eq, hopens .inet hsame, h.owned⟩
    · split
      · exact h.reject _
      · next hsame => exact ⟨h.id_eq, hopens .inet6 hsame, h.owned⟩
    · exact h.reject _

theorem setOpt_factoryAllocated (s : InternetSocket) (rc : ℤ) (set : IotSocket → IotSocket) :
    (s.setOpt rc set).factoryAllocated = s.factoryAllocated := by
  dsimp only [setOpt]
  split <;> rfl

theorem setTimeoutOpts_factoryAllocated (s : InternetSocket) (timeout rcv snd nbio : ℤ) :
    (s.setTimeoutOpts timeout rcv snd nbio).factoryAllocated = s.factoryAllocated := by
  rcases eq_or_ne timeout 0 with rfl | hne
  · rw [setTimeoutOpts_zero, setOpt_factoryAllocated]
  · rw [setTimeoutOpts_of_ne s hne, setOpt_factoryAllocated, setOpt_factoryAllocated,
      setOpt_factoryAllocated]

theorem Connected.setTimeout (h : Connected id family s) (hid : id ≠ iotSocketIdInvalid)
    (timeout reply rcv snd nbio : ℤ) :
    Connected id family (s.setTimeout timeout reply rcv snd nbio) := by
  have hvalid : s.id ≠ iotSocketIdInvalid := h.id_eq ▸ hid
  obtain ⟨-, heq⟩ | ⟨hinvalid, -⟩ | ⟨hinvalid, -⟩ := s.setTimeout_cases timeout reply rcv snd nbio
  · rw [heq]
    apply Connected.ret
    have hsame := sameSocket_setTimeoutOpts { s with requested := some timeout } timeout rcv snd nbio
    refine ⟨hsame.id.trans h.id_eq, hsame.afType.trans h.afType, ?_⟩
    rw [setTimeoutOpts_factoryAllocated]
    exact h.owned
  · exact absurd hinvalid hvalid
  · exact absurd hinvalid hvalid

theorem Connected.step {a : Action} (h : Connected id family s) (hid : id ≠ iotSocketIdInvalid)
    (hs : InternetSocket.step .tcp s a = some t) (hlive : t.deleted = false) :
    Connected id family t := by
  cases ha : a.request with
  | some r =>
      rw [step_request ha hs]
      exact h.setTimeout hid r.timeout r.reply r.rcv r.snd r.nbio
  | none =>
      obtain ⟨version, reply, -, hcall⟩ | ⟨-, hcall⟩ := step_call ha hs
      · obtain ⟨error, rc, rfl⟩ | ⟨-, result, rfl⟩ := hcall
        · exact h.onSocket hid version reply error rc
        · exact h.ret result
      · obtain ⟨version, rfl⟩ | ⟨rc, rfl⟩ | ⟨result, rfl⟩ := hcall
        · exact h.open version
        · have hdeleted : (s.close rc).deleted = true := by
            dsimp only [InternetSocket.close]
            rw [if_pos h.owned]
            rfl
          cases hdeleted.symm.trans hlive
        · exact h.ret result

/-- The id and the family last as long as the socket does. -/
theorem Connected.run {acts : List Action} (h : Connected id family s)
    (hid : id ≠ iotSocketIdInvalid) (hr : run (InternetSocket.step .tcp) s acts = some t)
    (hlive : t.deleted = false) : Connected id family t := by
  have halways : Always (InternetSocket.step .tcp)
      (fun u => u.deleted = false → Connected id family u) s acts := by
    apply Always.of_inductive (fun u => u.deleted = false → Connected id family u)
    · intro u a v hu hs hlive
      have hulive : u.deleted = false :=
        Bool.eq_false_iff.mpr (Option.ite_none_left_eq_some.mp hs).1
      exact (hu hulive).step hid hs hlive
    · exact fun _ hu => hu
    · exact fun _ => h
  exact halways.reached hr hlive

/-! ## Accepting -/

theorem connected_accept {listener accepted : InternetSocket} {rc : ℤ} {memory : Bool}
    (hfamily : listener.afType = family.code)
    (h : (listener.accept rc memory).connection = some accepted) :
    0 ≤ rc ∧ Connected rc family accepted := by
  unfold accept at h
  split at h
  · cases h
  · split at h
    · cases h
    · next hrc =>
        split at h
        · cases h
          exact ⟨not_lt.mp hrc, rfl, hfamily, rfl⟩
        · cases h

/-- The options are those of the socket if the family that is looked for is its own. -/
theorem Connected.reaches_iff (h : Connected id family s) (hid : id ≠ iotSocketIdInvalid) :
    Reaches id s ↔ family = .inet ∨ s.opened = true := by
  have hvalid : s.id ≠ iotSocketIdInvalid := h.id_eq ▸ hid
  have htype : s.typeOf .unspec = s.afType ↔ family = .inet ∨ s.opened = true := by
    unfold typeOf
    rw [h.afType]
    cases s.opened with
    | false => cases family <;> decide
    | true => simp
  rw [← htype]
  constructor
  · intro hreaches
    have hrejected := (hreaches true 0 0).2.1
    by_contra hne
    have hreject : s.sockopt true 0 0 = s.reject nsapiErrorNoSocket := by
      unfold sockopt InternetSocket.onSocket
      rw [verifySocketType_valid hvalid]
      simp [hne]
    rw [hreject] at hrejected
    cases hrejected
  · intro heq keepalive reply rc
    have hret : s.sockopt keepalive reply rc =
        s.ret (iotSocketErrorToMbed (if keepalive then rc else iotSocketEnotsup)) := by
      unfold sockopt InternetSocket.onSocket
      rw [verifySocketType_valid hvalid]
      simp [heq]
    rw [hret]
    exact ⟨h.id_eq, rfl, rfl⟩

theorem Connected.interprets (h : Connected id family s) (hid : id ≠ iotSocketIdInvalid) :
    Interprets family s := by
  have hversion : s.getIpNsapiVersion = versionOf family := by
    unfold getIpNsapiVersion
    rw [h.afType]
    cases family <;> rfl
  refine ⟨?_, ?_⟩
  · unfold getIotAddressSize
    rw [h.afType]
    cases family <;> rfl
  · intro rc peer ip
    unfold getpeername
    rw [if_neg (h.id_eq ▸ hid), hversion]

/-- As long as an accepted socket lives, its peer is one of the listener's family. Its options can
be reached for IPv4, or after `open`. -/
theorem accepted_iff {listener accepted : InternetSocket} {rc : ℤ} {memory : Bool}
    {acts : List Action} (hfamily : listener.afType = family.code)
    (haccept : (listener.accept rc memory).connection = some accepted)
    (hrun : run (step .tcp) accepted acts = some s)
    (hlive : s.deleted = false) :
    (Reaches rc s ↔ family = .inet ∨ s.opened = true) ∧ Interprets family s := by
  obtain ⟨hrc, haccepted⟩ := connected_accept hfamily haccept
  have hid : rc ≠ iotSocketIdInvalid := by
    unfold iotSocketIdInvalid
    omega
  have hconnected := haccepted.run hid hrun hlive
  exact ⟨hconnected.reaches_iff hid, hconnected.interprets hid⟩

def listening : InternetSocket :=
  { new none with id := 3, afType := Family.inet6.code, opened := true, iot := .create 2 }

def connection : InternetSocket :=
  { new none with
    id := 4
    afType := Family.inet6.code
    factoryAllocated := true
    iot := .create 2 }

theorem accepted_iff_open :
    (Reaches 4 (connection.open .ipv6) ↔
      Family.inet6 = .inet ∨ (connection.open .ipv6).opened = true) ∧
      Interprets .inet6 (connection.open .ipv6) := by
  have haccept : (listening.accept 4 true).connection = some connection := rfl
  have hrun : run (step .tcp) connection [.open .ipv6] = some (connection.open .ipv6) := rfl
  exact accepted_iff rfl haccept hrun rfl

/-- The options of an IPv6 connection are looked for in IPv4. -/
theorem connection_not_reached :
    ¬ ∀ (listener accepted : InternetSocket) (family : Family) (rc : ℤ) (memory : Bool),
      listener.afType = family.code → (listener.accept rc memory).connection = some accepted →
      Reaches rc accepted := by
  intro h
  have hreaches := h listening connection .inet6 4 true rfl rfl
  have hrejected := (hreaches true 0 0).2.1
  revert hrejected
  decide

end OpenIotSdk.Netsocket.InternetSocket
