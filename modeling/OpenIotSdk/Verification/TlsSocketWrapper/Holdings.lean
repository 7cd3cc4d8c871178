import OpenIotSdk.Model.Netsocket.TlsSocketWrapper

/-! # The certificates and configurations that a wrapper holds

Setters replace what is in one of three places, and free it if it is owned there. -/

namespace OpenIotSdk.Netsocket

/-! ## Heaps -/

def Pointer.number : Pointer → Option ℕ
  | .own number => some number
  | .user _ => none

namespace Heap

variable {h : Heap} {ps qs : List Pointer} {p q : Pointer} {o : Option Pointer}

/-- What was allocated and is not one of `ps` has been freed once, and nothing else has been. -/
structure Keeps (h : Heap) (ps : List Pointer) : Prop where
  own : ∀ p ∈ ps, ∃ number, p = .own number
  balanced : h.ledger.Balanced (ps.filterMap Pointer.number)
  user : h.misfreed = false

/-- The object that has been replaced is freed, if there is one. -/
def release (h : Heap) (o : Option Pointer) : Heap := o.elim h h.free

/-- What is to be installed has not been freed, nor will it be just now. -/
def Installable (h : Heap) (owned new : Option Pointer) : Prop :=
  ∀ p, new = some p → ¬ h.Freed p ∧ owned ≠ some p

theorem keeps_empty : empty.Keeps [] :=
  ⟨by simp, Ledger.balanced_empty, rfl⟩

theorem Keeps.perm (hk : h.Keeps ps) (hp : qs.Perm ps) : h.Keeps qs :=
  ⟨fun p hmem => hk.own p (hp.mem_iff.mp hmem), hk.balanced.perm (hp.filterMap _), hk.user⟩

theorem Keeps.alloc (hk : h.Keeps ps) : h.alloc.Keeps (h.fresh :: ps) := by
  refine ⟨?_, hk.balanced.issue List.Perm.rfl, hk.user⟩
  rintro p (_ | ⟨_, hp⟩)
  · exact ⟨h.ledger.issued, rfl⟩
  · exact hk.own p hp

theorem Keeps.free (hk : h.Keeps (p :: ps)) : (h.free p).Keeps ps := by
  obtain ⟨number, rfl⟩ := hk.own p List.mem_cons_self
  exact ⟨fun q hq => hk.own q (List.mem_cons_of_mem _ hq), hk.balanced.settle List.Perm.rfl,
    hk.user⟩

theorem Keeps.release (hk : h.Keeps (o.toList ++ ps)) : (h.release o).Keeps ps := by
  cases o with
  | none => exact hk
  | some p => exact hk.free

theorem Keeps.not_freed (hk : h.Keeps ps) (hp : p ∈ ps) : ¬ h.Freed p := by
  obtain ⟨number, rfl⟩ := hk.own p hp
  have hcount := hk.balanced number
  have hmem : number ∈ ps.filterMap Pointer.number := List.mem_filterMap.mpr ⟨_, hp, rfl⟩
  have hpos := List.count_pos_iff.mpr hmem
  simp only [Freed]
  split at hcount <;> omega

theorem Keeps.settled_eq_one (hk : h.Keeps []) {number : ℕ} (hlt : number < h.ledger.issued) :
    h.ledger.settled number = 1 :=
  hk.balanced.settled_eq_one hlt List.not_mem_nil

theorem freed_alloc : h.alloc.Freed p ↔ h.Freed p := by
  cases p <;> rfl

theorem Keeps.freed_free (hk : h.Keeps (q :: ps)) : (h.free q).Freed p ↔ h.Freed p ∨ q = p := by
  obtain ⟨number, rfl⟩ := hk.own q List.mem_cons_self
  cases p with
  | user _ => simp [Heap.free, Freed]
  | own number' =>
      simp only [Heap.free, Freed, Ledger.settle, Function.update_apply, Pointer.own.injEq]
      split
      · next heq => simp [heq]
      · next hne => simp [Ne.symm hne]

theorem Keeps.freed_release (hk : h.Keeps (o.toList ++ ps)) :
    (h.release o).Freed p ↔ h.Freed p ∨ o = some p := by
  cases o with
  | none => simp [Heap.release]
  | some q =>
      rw [Option.some.injEq]
      exact hk.freed_free

theorem Known.alloc (hp : h.Known p) : h.alloc.Known p := by
  cases p with
  | user _ => trivial
  | own number => exact Nat.lt_succ_of_lt hp

theorem known_free : (h.free q).Known p ↔ h.Known p := by
  cases p <;> cases q <;> rfl

theorem known_release : (h.release o).Known p ↔ h.Known p := by
  cases o with
  | none => rfl
  | some q => exact known_free

theorem known_fresh : h.alloc.Known h.fresh := Nat.lt_succ_self _

theorem Known.ne_fresh (hp : h.Known p) : p ≠ h.fresh := by
  rintro rfl
  exact Nat.lt_irrefl _ hp

end Heap

theorem SslConfig.mem_certs {c : SslConfig} {p : Pointer} :
    p ∈ c.certs ↔ c.caChain = some p ∨ p ∈ c.ownCerts := by
  simp [SslConfig.certs]

/-- A certificate is added to a configuration, if `mbedtls_ssl_conf_own_cert` answers 0. -/
def addCert (crt : Pointer) (rc : ℤ) (c : SslConfig) : SslConfig :=
  if rc = 0 then { c with ownCerts := c.ownCerts ++ [crt] } else c

theorem mem_certs_addCert {c : SslConfig} {crt p : Pointer} {rc : ℤ} :
    p ∈ (addCert crt rc c).certs ↔ p ∈ c.certs ∨ rc = 0 ∧ p = crt := by
  rw [addCert]
  split
  · next hrc => simp [SslConfig.certs, hrc, or_assoc]
  · next hrc => simp [hrc]

/-! ## What the wrapper holds -/

/-- One of the pointers `_cacert`, `_clicert` and `_ssl_conf`, with its flag. -/
structure Slot where
  pointer : Option Pointer
  allocated : Bool

namespace Slot

/-- What the wrapper has to free. -/
def owned (s : Slot) : Option Pointer := if s.allocated then s.pointer else none

def Proper (s : Slot) : Prop := s.allocated = true → s.pointer ≠ none

theorem pointer_of_owned {s : Slot} {p : Pointer} (h : s.owned = some p) : s.pointer = some p := by
  dsimp only [owned] at h
  split at h
  · exact h
  · cases h

theorem Proper.cases {s : Slot} (h : s.Proper) :
    (∃ old, s = ⟨some old, true⟩) ∨ (∃ pointer, s = ⟨pointer, false⟩) := by
  obtain ⟨pointer, allocated⟩ := s
  cases allocated with
  | false => exact .inr ⟨pointer, rfl⟩
  | true =>
      obtain ⟨old, rfl⟩ := Option.ne_none_iff_exists'.mp (h rfl)
      exact .inl ⟨old, rfl⟩

end Slot

/-- The part of the wrapper that is about certificates and configurations. -/
structure Holdings where
  ca : Slot
  cli : Slot
  conf : Slot
  ssl : Option Pointer
  contents : Pointer → SslConfig
  certs : Heap
  configs : Heap
  destroyed : Bool

namespace Holdings

variable (x : Holdings)

def replaceCa (crt : Option Pointer) : Holdings :=
  { x with certs := x.certs.release x.ca.owned, ca := ⟨crt, false⟩ }

def replaceCli (crt : Option Pointer) : Holdings :=
  { x with certs := x.certs.release x.cli.owned, cli := ⟨crt, false⟩ }

def replaceConf (conf : Option Pointer) : Holdings :=
  { x with configs := x.configs.release x.conf.owned, conf := ⟨conf, false⟩ }

def allocConf : Holdings :=
  { x with
    conf := ⟨some x.configs.fresh, true⟩
    contents := Function.update x.contents x.configs.fresh ⟨none, []⟩
    configs := x.configs.alloc }

/-- `get_ssl_config`. -/
def provide (answer : ConfigAnswer) : Holdings :=
  if x.conf.pointer ≠ none ∨ answer.alloc = false then x
  else if answer.defaults ≠ 0 then x.allocConf.replaceConf none
  else x.allocConf

/-- The installed configuration is changed, if there is one. -/
def refer (set : SslConfig → SslConfig) : Holdings :=
  { x with contents := fun c =>
      if x.conf.pointer = some c then set (x.contents c) else x.contents c }

variable {x} {pending : List Pointer} {p : Pointer} {crt conf : Option Pointer}
  {answer : ConfigAnswer} {set : SslConfig → SslConfig}

/-! ### What is freed once -/

/-- The flags mark what the wrapper has allocated; `pending` are the certificates that an
operation is just installing. -/
structure Kept (pending : List Pointer) (x : Holdings) : Prop where
  certs : x.certs.Keeps (pending ++ (x.ca.owned.toList ++ x.cli.owned.toList))
  configs : x.configs.Keeps x.conf.owned.toList
  ca : x.ca.Proper
  cli : x.cli.Proper
  conf : x.conf.Proper
  knownCert : ∀ p, x.ca.pointer = some p ∨ x.cli.pointer = some p ∨
    (∃ c, p ∈ (x.contents c).certs) → x.certs.Known p
  knownConf : ∀ c, x.conf.pointer = some c ∨ x.ssl = some c → x.configs.Known c
  destroyed : x.destroyed = true → x.ca.owned = none ∧ x.cli.owned = none ∧ x.conf.owned = none

/-! What a setter frees is one of those that are not freed yet. -/

theorem Kept.keepsCa (h : x.Kept pending) :
    x.certs.Keeps (x.ca.owned.toList ++ (pending ++ x.cli.owned.toList)) :=
  h.certs.perm (List.perm_append_comm_assoc _ _ _)

theorem Kept.keepsCli (h : x.Kept pending) :
    x.certs.Keeps (x.cli.owned.toList ++ (pending ++ x.ca.owned.toList)) := by
  refine h.certs.perm ?_
  rw [← List.append_assoc pending]
  exact List.perm_append_comm

theorem Kept.keepsConf (h : x.Kept pending) : x.configs.Keeps (x.conf.owned.toList ++ []) := by
  rw [List.append_nil]
  exact h.configs

theorem Kept.replaceCa (h : x.Kept pending) (hcrt : ∀ p, crt = some p → x.certs.Known p) :
    (x.replaceCa crt).Kept pending where
  certs := h.keepsCa.release
  configs := h.configs
  ca := nofun
  cli := h.cli
  conf := h.conf
  knownCert := fun p hp => Heap.known_release.mpr <|
    hp.elim (hcrt p) fun hp => h.knownCert p (.inr hp)
  knownConf := h.knownConf
  destroyed := fun hd => ⟨rfl, (h.destroyed hd).2⟩

theorem Kept.replaceCli (h : x.Kept pending) (hcrt : ∀ p, crt = some p → x.certs.Known p) :
    (x.replaceCli crt).Kept pending where
  certs := by
    have hkeeps := h.keepsCli.release
    rw [← List.append_nil x.ca.owned.toList] at hkeeps
    exact hkeeps
  configs := h.configs
  ca := h.ca
  cli := nofun
  conf := h.conf
  knownCert := by
    rintro p (hp | hp | hp)
    · exact Heap.known_release.mpr (h.knownCert p (.inl hp))
    · exact Heap.known_release.mpr (hcrt p hp)
    · exact Heap.known_release.mpr (h.knownCert p (.inr (.inr hp)))
  knownConf := h.knownConf
  destroyed := fun hd => ⟨(h.destroyed hd).1, rfl, (h.destroyed hd).2.2⟩

theorem Kept.replaceConf (h : x.Kept pending) (hconf : ∀ c, conf = some c → x.configs.Known c) :
    (x.replaceConf conf).Kept pending where
  certs := h.certs
  configs := h.keepsConf.release
  ca := h.ca
  cli := h.cli
  conf := nofun
  knownCert := h.knownCert
  knownConf := fun c hc => Heap.known_release.mpr <|
    hc.elim (hconf c) fun hc => h.knownConf c (.inr hc)
  destroyed := fun hd => ⟨(h.destroyed hd).1, (h.destroyed hd).2.1, rfl⟩

theorem Kept.allocConf (h : x.Kept pending) (hnone : x.conf.pointer = none)
    (hlive : x.destroyed = false) : x.allocConf.Kept pending where
  certs := h.certs
  configs := by
    have howned : x.conf.owned = none := by
      simp [Slot.owned, hnone]
    have hkeeps := h.configs.alloc
    rw [howned] at hkeeps
    exact hkeeps
  ca := h.ca
  cli := h.cli
  conf := fun _ => by simp [Holdings.allocConf]
  knownCert := by
    rintro p (hp | hp | ⟨c, hp⟩)
    · exact h.knownCert p (.inl hp)
    · exact h.knownCert p (.inr (.inl hp))
    · dsimp only [Holdings.allocConf] at hp
      rw [Function.update_apply] at hp
      split at hp
      · cases hp
      · exact h.knownCert p (.inr (.inr ⟨c, hp⟩))
  knownConf := by
    rintro c (hc | hc)
    · cases hc
      exact Heap.known_fresh
    · exact (h.knownConf c (.inr hc)).alloc
  destroyed := fun hd => by cases hlive.symm.trans hd

theorem Kept.provide (h : x.Kept pending) (hlive : x.destroyed = false) :
    (x.provide answer).Kept pending := by
  dsimp only [Holdings.provide]
  split
  · exact h
  · next hneither =>
      have halloc := h.allocConf (not_not.mp (not_or.mp hneither).1) hlive
      split
      · exact halloc.replaceConf nofun
      · exact halloc

theorem Kept.refer (h : x.Kept pending)
    (hset : ∀ c p, p ∈ (set c).certs → p ∈ c.certs ∨ x.certs.Known p) :
    (x.refer set).Kept pending where
  certs := h.certs
  configs := h.configs
  ca := h.ca
  cli := h.cli
  conf := h.conf
  knownCert := by
    rintro p (hp | hp | ⟨c, hp⟩)
    · exact h.knownCert p (.inl hp)
    · exact h.knownCert p (.inr (.inl hp))
    · dsimp only [Holdings.refer] at hp
      split at hp
      · obtain hp | hp := hset _ _ hp
        · exact h.knownCert p (.inr (.inr ⟨c, hp⟩))
        · exact hp
      · exact h.knownCert p (.inr (.inr ⟨c, hp⟩))
  knownConf := h.knownConf
  destroyed := h.destroyed

theorem Kept.allocCert (h : x.Kept []) :
    ({ x with certs := x.certs.alloc } : Holdings).Kept [x.certs.fresh] where
  certs := h.certs.alloc
  configs := h.configs
  ca := h.ca
  cli := h.cli
  conf := h.conf
  knownCert := fun p hp => (h.knownCert p hp).alloc
  knownConf := h.knownConf
  destroyed := h.destroyed

theorem Kept.freeCert (h : x.Kept [p]) : ({ x with certs := x.certs.free p } : Holdings).Kept [] where
  certs := h.certs.free
  configs := h.configs
  ca := h.ca
  cli := h.cli
  conf := h.conf
  knownCert := fun p hp => Heap.known_free.mpr (h.knownCert p hp)
  knownConf := h.knownConf
  destroyed := h.destroyed

/-! ### What is still referred to -/

/-- Nothing that is installed or that the SSL context refers to has been freed. -/
structure Alive (x : Holdings) : Prop where
  ca : ∀ p, x.ca.pointer = some p → ¬ x.certs.Freed p
  cli : ∀ p, x.cli.pointer = some p → ¬ x.certs.Freed p
  conf : ∀ c, x.conf.pointer = some c → ¬ x.configs.Freed c
  ssl : ∀ c, x.ssl = some c → ¬ x.configs.Freed c
  sslCerts : ∀ c, x.ssl = some c → ∀ p ∈ (x.contents c).certs, ¬ x.certs.Freed p

theorem alive_iff : x.Alive ↔ (∀ p, x.ca.pointer = some p → ¬ x.certs.Freed p) ∧
    (∀ p, x.cli.pointer = some p → ¬ x.certs.Freed p) ∧
    (∀ c, x.conf.pointer = some c → ¬ x.configs.Freed c) ∧
    (∀ c, x.ssl = some c → ¬ x.configs.Freed c) ∧
    ∀ c, x.ssl = some c → ∀ p ∈ (x.contents c).certs, ¬ x.certs.Freed p :=
  ⟨fun h => ⟨h.ca, h.cli, h.conf, h.ssl, h.sslCerts⟩, fun ⟨hca, hcli, hconf, hssl, hcerts⟩ =>
    ⟨hca, hcli, hconf, hssl, hcerts⟩⟩

/-- What only concerns objects that nobody knew of makes no difference. -/
theorem Kept.alive_congr (h : x.Kept pending) {y : Holdings} (hca : y.ca.pointer = x.ca.pointer)
    (hcli : y.cli.pointer = x.cli.pointer) (hssl : y.ssl = x.ssl)
    (hcerts : ∀ p, x.certs.Known p → (y.certs.Freed p ↔ x.certs.Freed p))
    (hconfigs : ∀ c, x.configs.Known c → (y.configs.Freed c ↔ x.configs.Freed c))
    (hcontents : ∀ c, x.configs.Known c → y.contents c = x.contents c)
    (hconf : (∀ c, y.conf.pointer = some c → ¬ y.configs.Freed c) ↔
      ∀ c, x.conf.pointer = some c → ¬ x.configs.Freed c) : y.Alive ↔ x.Alive := by
  rw [alive_iff, alive_iff, hca, hcli, hssl, hconf]
  refine and_congr ?_ (and_congr ?_ (and_congr_right fun _ => and_congr ?_ ?_))
  · exact forall₂_congr fun p hp => not_congr (hcerts p (h.knownCert p (.inl hp)))
  · exact forall₂_congr fun p hp => not_congr (hcerts p (h.knownCert p (.inr (.inl hp))))
  · exact forall₂_congr fun c hc => not_congr (hconfigs c (h.knownConf c (.inr hc)))
  · refine forall₂_congr fun c hc => ?_
    rw [hcontents c (h.knownConf c (.inr hc))]
    exact forall₂_congr fun p hp => not_congr (hcerts p (h.knownCert p (.inr (.inr ⟨c, hp⟩))))

theorem Kept.alive_allocCert (h : x.Kept []) :
    ({ x with certs := x.certs.alloc } : Holdings).Alive ↔ x.Alive :=
  h.alive_congr rfl rfl rfl (fun _ _ => Heap.freed_alloc) (fun _ _ => Iff.rfl) (fun _ _ => rfl)
    Iff.rfl

/-- A certificate that is not installed is freed again. -/
theorem Kept.alive_freeCert (h : x.Kept []) :
    ({ x with certs := x.certs.alloc.free x.certs.fresh } : Holdings).Alive ↔ x.Alive := by
  refine h.alive_congr rfl rfl rfl (fun p hp => ?_) (fun _ _ => Iff.rfl) (fun _ _ => rfl) Iff.rfl
  rw [h.certs.alloc.freed_free, Heap.freed_alloc, or_iff_left hp.ne_fresh.symm]

theorem refer_of_none (hnone : x.conf.pointer = none) : x.refer set = x := by
  simp [Holdings.refer, hnone]

/-- A new configuration is not freed, and the SSL context does not refer to it yet. -/
theorem Kept.alive_allocConf_refer (h : x.Kept pending) (hnone : x.conf.pointer = none) :
    (x.allocConf.refer set).Alive ↔ x.Alive := by
  have hfresh : ¬ x.configs.alloc.Freed x.configs.fresh :=
    h.configs.alloc.not_freed List.mem_cons_self
  refine h.alive_congr rfl rfl rfl (fun _ _ => Iff.rfl) (fun _ _ => Heap.freed_alloc)
    (fun c hc => ?_) (iff_of_true ?_ ?_)
  · have hne : some x.configs.fresh ≠ some c := fun heq => hc.ne_fresh (Option.some.inj heq).symm
    dsimp only [Holdings.refer, Holdings.allocConf]
    rw [if_neg hne, Function.update_of_ne hc.ne_fresh]
  · rintro c hc
    cases hc
    exact hfresh
  · rw [hnone]
    exact nofun

/-- Nor does it where its defaults could not be set. -/
theorem Kept.alive_allocConf_replaceConf (h : x.Kept pending) (hnone : x.conf.pointer = none) :
    (x.allocConf.replaceConf none).Alive ↔ x.Alive := by
  refine h.alive_congr rfl rfl rfl (fun _ _ => Iff.rfl) (fun c hc => ?_) (fun c hc => ?_)
    (iff_of_true nofun ?_)
  · exact h.configs.alloc.freed_free.trans
      ((or_iff_left hc.ne_fresh.symm).trans Heap.freed_alloc)
  · exact Function.update_of_ne hc.ne_fresh _ _
  · rw [hnone]
    exact nofun

theorem provide_of_some {c : Pointer} (hc : x.conf.pointer = some c) : x.provide answer = x :=
  if_pos (.inl (by simp [hc]))

/-- A configuration that is not there makes no difference to a setter. -/
theorem Kept.alive_provide_refer (h : x.Kept pending) :
    ((x.provide answer).refer set).Alive ↔ (x.refer set).Alive := by
  cases hconf : x.conf.pointer with
  | some c => rw [provide_of_some hconf]
  | none =>
      dsimp only [Holdings.provide]
      split
      · rfl
      · rw [refer_of_none hconf]
        split
        · rw [refer_of_none rfl]
          exact h.alive_allocConf_replaceConf hconf
        · exact h.alive_allocConf_refer hconf

/-- The CA chain that is freed is used nowhere else. -/
def CaReplaceable (x : Holdings) : Prop :=
  ∀ q, x.ca.owned = some q → x.cli.pointer ≠ some q ∧ ∀ c, x.ssl = some c →
    q ∉ (x.contents c).ownCerts ∧ (x.conf.pointer = some c ∨ (x.contents c).caChain ≠ some q)

/-- The certificate that is freed is used nowhere else. -/
def CliReplaceable (x : Holdings) : Prop :=
  ∀ q, x.cli.owned = some q → x.ca.pointer ≠ some q ∧ ∀ c, x.ssl = some c →
    q ∉ (x.contents c).certs

theorem Kept.freed_releaseCa (h : x.Kept pending) :
    (x.certs.release x.ca.owned).Freed p ↔ x.certs.Freed p ∨ x.ca.owned = some p :=
  h.keepsCa.freed_release

theorem Kept.freed_releaseCli (h : x.Kept pending) :
    (x.certs.release x.cli.owned).Freed p ↔ x.certs.Freed p ∨ x.cli.owned = some p :=
  h.keepsCli.freed_release

theorem Kept.freed_releaseConf (h : x.Kept pending) {c : Pointer} :
    (x.configs.release x.conf.owned).Freed c ↔ x.configs.Freed c ∨ x.conf.owned = some c :=
  h.keepsConf.freed_release

theorem Kept.alive_replaceCa (h : x.Kept pending) (ha : x.Alive) :
    ((x.replaceCa crt).refer fun c => { c with caChain := crt }).Alive ↔
      x.certs.Installable x.ca.owned crt ∧ x.CaReplaceable := by
  have hfreed : ∀ p, (x.certs.release x.ca.owned).Freed p ↔ x.certs.Freed p ∨ x.ca.owned = some p :=
    fun _ => h.freed_releaseCa
  -- What the SSL context refers to afterwards.
  have hmem : ∀ c p, p ∈ (((x.replaceCa crt).refer fun c => { c with caChain := crt }).contents
      c).certs ↔ (if x.conf.pointer = some c then crt else (x.contents c).caChain) = some p ∨
        p ∈ (x.contents c).ownCerts := by
    intro c p
    rw [SslConfig.mem_certs]
    dsimp only [Holdings.refer, Holdings.replaceCa]
    split <;> rfl
  constructor
  · intro hy
    refine ⟨fun p hp => not_or.mp (mt (hfreed p).mpr (hy.ca p hp)), fun q hq => ⟨fun hcli => ?_, ?_⟩⟩
    · exact hy.cli q hcli ((hfreed q).mpr (.inr hq))
    · intro c hc
      refine ⟨fun hown => ?_, or_iff_not_imp_left.mpr fun hne hchain => ?_⟩
      · exact hy.sslCerts c hc q ((hmem c q).mpr (.inr hown)) ((hfreed q).mpr (.inr hq))
      · refine hy.sslCerts c hc q ((hmem c q).mpr (.inl ?_)) ((hfreed q).mpr (.inr hq))
        rw [if_neg hne]
        exact hchain
  · rintro ⟨hcrt, hold⟩
    refine ⟨fun p hp => ?_, fun p hp => ?_, ha.conf, ha.ssl, fun c hc p hp => ?_⟩
    · exact mt (hfreed p).mp (not_or.mpr (hcrt p hp))
    · exact mt (hfreed p).mp (not_or.mpr ⟨ha.cli p hp, fun hq => (hold p hq).1 hp⟩)
    · obtain hp | hp := (hmem c p).mp hp
      · split at hp
        · exact mt (hfreed p).mp (not_or.mpr (hcrt p hp))
        · next hne =>
            have hlive := ha.sslCerts c hc p (SslConfig.mem_certs.mpr (.inl hp))
            refine mt (hfreed p).mp (not_or.mpr ⟨hlive, fun hq => ?_⟩)
            exact ((hold p hq).2 c hc).2.elim hne fun hchain => hchain hp
      · have hlive := ha.sslCerts c hc p (SslConfig.mem_certs.mpr (.inr hp))
        exact mt (hfreed p).mp (not_or.mpr ⟨hlive, fun hq => ((hold p hq).2 c hc).1 hp⟩)

theorem Kept.alive_replaceCli_none (h : x.Kept pending) (ha : x.Alive) :
    (x.replaceCli none).Alive ↔ x.CliReplaceable := by
  have hfreed : ∀ p, (x.certs.release x.cli.owned).Freed p ↔ x.certs.Freed p ∨ x.cli.owned = some p :=
    fun _ => h.freed_releaseCli
  constructor
  · intro hy q hq
    refine ⟨fun hca => hy.ca q hca ((hfreed q).mpr (.inr hq)), fun c hc hmem => ?_⟩
    exact hy.sslCerts c hc q hmem ((hfreed q).mpr (.inr hq))
  · intro hold
    refine ⟨fun p hp => ?_, nofun, ha.conf, ha.ssl, fun c hc p hp => ?_⟩
    · exact mt (hfreed p).mp (not_or.mpr ⟨ha.ca p hp, fun hq => (hold p hq).1 hp⟩)
    · exact mt (hfreed p).mp
        (not_or.mpr ⟨ha.sslCerts c hc p hp, fun hq => (hold p hq).2 c hc hp⟩)

/-- A new certificate adds to what the SSL context refers to. -/
theorem Kept.alive_replaceCli_some (h : x.Kept pending) (ha : x.Alive) {rc : ℤ} :
    ((x.replaceCli (some p)).refer (addCert p rc)).Alive ↔
      x.certs.Installable x.cli.owned (some p) ∧ x.CliReplaceable := by
  have hfreed : (x.certs.release x.cli.owned).Freed p ↔ x.certs.Freed p ∨ x.cli.owned = some p :=
    h.freed_releaseCli
  have hmem : ∀ c q, q ∈ (((x.replaceCli (some p)).refer (addCert p rc)).contents c).certs ↔
      q ∈ (x.contents c).certs ∨ x.conf.pointer = some c ∧ rc = 0 ∧ q = p := by
    intro c q
    dsimp only [Holdings.refer, Holdings.replaceCli]
    split
    · next hc => simp [mem_certs_addCert, hc]
    · next hc => simp [hc]
  rw [← h.alive_replaceCli_none ha]
  constructor
  · intro hy
    refine ⟨?_, hy.ca, nofun, hy.conf, hy.ssl, fun c hc q hq => ?_⟩
    · rintro _ ⟨⟩
      exact not_or.mp (mt hfreed.mpr (hy.cli p rfl))
    · exact hy.sslCerts c hc q ((hmem c q).mpr (.inl hq))
  · rintro ⟨hnew, hy⟩
    have hlive : ¬ (x.certs.release x.cli.owned).Freed p := mt hfreed.mp (not_or.mpr (hnew p rfl))
    refine ⟨hy.ca, ?_, hy.conf, hy.ssl, fun c hc q hq => ?_⟩
    · rintro _ ⟨⟩
      exact hlive
    · obtain hq | ⟨-, -, rfl⟩ := (hmem c q).mp hq
      · exact hy.sslCerts c hc q hq
      · exact hlive

theorem Kept.alive_replaceConf (h : x.Kept pending) (ha : x.Alive) :
    (x.replaceConf conf).Alive ↔ x.configs.Installable x.conf.owned conf ∧
      ∀ c, x.conf.owned = some c → x.ssl ≠ some c := by
  have hfreed : ∀ c, (x.configs.release x.conf.owned).Freed c ↔
      x.configs.Freed c ∨ x.conf.owned = some c := fun _ => h.freed_releaseConf
  constructor
  · intro hy
    refine ⟨fun c hc => not_or.mp (mt (hfreed c).mpr (hy.conf c hc)), fun c hc hssl => ?_⟩
    exact hy.ssl c hssl ((hfreed c).mpr (.inr hc))
  · rintro ⟨hnew, hold⟩
    refine ⟨ha.ca, ha.cli, fun c hc => ?_, fun c hc => ?_, ha.sslCerts⟩
    · exact mt (hfreed c).mp (not_or.mpr (hnew c hc))
    · exact mt (hfreed c).mp (not_or.mpr ⟨ha.ssl c hc, fun hq => hold c hq hc⟩)

/-! ### A new configuration -/

theorem provide_frame (x : Holdings) (answer : ConfigAnswer) :
    (x.provide answer).ca = x.ca ∧ (x.provide answer).cli = x.cli ∧ (x.provide answer).ssl = x.ssl ∧
      (x.provide answer).certs = x.certs ∧ (x.provide answer).destroyed = x.destroyed := by
  dsimp only [Holdings.provide]
  split
  · exact ⟨rfl, rfl, rfl, rfl, rfl⟩
  · split <;> exact ⟨rfl, rfl, rfl, rfl, rfl⟩

theorem refer_id (x : Holdings) : x.refer id = x := by
  simp [Holdings.refer]

theorem Kept.alive_provide (h : x.Kept pending) : (x.provide answer).Alive ↔ x.Alive := by
  have halive : ((x.provide answer).refer id).Alive ↔ (x.refer id).Alive := h.alive_provide_refer
  rwa [refer_id, refer_id] at halive

/-- The installed configuration refers to no certificate. -/
def Bare (x : Holdings) : Prop :=
  ∀ c, x.conf.pointer = some c → (x.contents c).certs = []

theorem Bare.provide (h : x.Bare) : (x.provide answer).Bare := by
  dsimp only [Holdings.provide]
  split
  · exact h
  · split
    · exact nofun
    · rintro _ ⟨⟩
      simp [Holdings.allocConf, SslConfig.certs]

/-- `mbedtls_ssl_setup` of what `get_ssl_config` returns. -/
def setUp (x : Holdings) (answer : StartAnswer) : Holdings :=
  let y := (x.provide answer.rng).provide answer.conf
  { y with ssl := if answer.setup = 0 ∨ answer.keeps = true then y.conf.pointer else none }

theorem Kept.setUp (h : x.Kept pending) (hlive : x.destroyed = false) {answer : StartAnswer} :
    (x.setUp answer).Kept pending := by
  have hlive' := (provide_frame x answer.rng).2.2.2.2.trans hlive
  have hkept : ((x.provide answer.rng).provide answer.conf).Kept pending :=
    (h.provide hlive).provide hlive'
  refine ⟨hkept.certs, hkept.configs, hkept.ca, hkept.cli, hkept.conf, hkept.knownCert, ?_,
    hkept.destroyed⟩
  rintro c (hc | hc)
  · exact hkept.knownConf c (.inl hc)
  · obtain ⟨-, hc⟩ := Option.ite_none_right_eq_some.mp hc
    exact hkept.knownConf c (.inl hc)

theorem Kept.alive_setUp (h : x.Kept pending) (ha : x.Alive) (hlive : x.destroyed = false)
    {answer : StartAnswer} :
    (x.setUp answer).Alive ↔ (answer.setup = 0 ∨ answer.keeps = true →
      ∀ c, x.conf.pointer = some c → ∀ p ∈ (x.contents c).certs, ¬ x.certs.Freed p) := by
  let y := (x.provide answer.rng).provide answer.conf
  have hy : y.Alive :=
    (h.provide hlive).alive_provide.mpr (h.alive_provide.mpr ha)
  have hssl : (x.setUp answer).Alive ↔ (answer.setup = 0 ∨ answer.keeps = true →
      ∀ c, y.conf.pointer = some c → ∀ p ∈ (y.contents c).certs, ¬ y.certs.Freed p) := by
    constructor
    · intro hset hkeeps c hc
      exact hset.sslCerts c ((if_pos hkeeps).trans hc)
    · intro hcerts
      refine ⟨hy.ca, hy.cli, hy.conf, fun c hc => ?_, fun c hc => ?_⟩
      · exact hy.conf c (Option.ite_none_right_eq_some.mp hc).2
      · obtain ⟨hkeeps, hc⟩ := Option.ite_none_right_eq_some.mp hc
        exact hcerts hkeeps c hc
  rw [hssl]
  refine forall_congr' fun _ => ?_
  cases hconf : x.conf.pointer with
  | some c =>
      have heq : y = x := by
        dsimp only [y]
        rw [provide_of_some hconf, provide_of_some hconf]
      rw [heq, hconf]
  | none =>
      have hbare : y.Bare := (Bare.provide (x := x) (by simp [Bare, hconf])).provide
      refine iff_of_true (fun c hc p hp => ?_) nofun
      rw [hbare c hc] at hp
      cases hp

/-- The new CA chain is the wrapper's own. -/
theorem Kept.ownCa (h : x.Kept [p]) (hca : x.ca = ⟨some p, false⟩) (hlive : x.destroyed = false) :
    ({ x with ca := ⟨x.ca.pointer, true⟩ } : Holdings).Kept [] where
  certs := by
    have hkeeps := h.certs
    rw [hca] at hkeeps ⊢
    exact hkeeps
  configs := h.configs
  ca := fun _ => by simp [hca]
  cli := h.cli
  conf := h.conf
  knownCert := h.knownCert
  knownConf := h.knownConf
  destroyed := fun hd => by cases hlive.symm.trans hd

theorem Kept.ownCli (h : x.Kept [p]) (hcli : x.cli = ⟨some p, false⟩) (hlive : x.destroyed = false) :
    ({ x with cli := ⟨x.cli.pointer, true⟩ } : Holdings).Kept [] where
  certs := by
    have hkeeps := h.certs
    rw [hcli] at hkeeps ⊢
    refine hkeeps.perm ?_
    change (x.ca.owned.toList ++ [p]).Perm (p :: (x.ca.owned.toList ++ []))
    rw [List.append_nil]
    exact List.perm_append_singleton p _
  configs := h.configs
  ca := h.ca
  cli := fun _ => by simp [hcli]
  conf := h.conf
  knownCert := h.knownCert
  knownConf := h.knownConf
  destroyed := fun hd => by cases hlive.symm.trans hd

end Holdings

end OpenIotSdk.Netsocket
