import OpenIotSdk.Library.Transition
import OpenIotSdk.Verification.TlsSocketWrapper.Holdings

/-! # Who frees the certificates and the configurations of `TLSSocketWrapper`

The wrapper frees what it has allocated exactly once, whatever the user passes to it. What it may
do is to free an object that it or its SSL context still refers to. -/

namespace OpenIotSdk.Netsocket

open Transition

namespace TlsSocketWrapper

def holdings (w : TlsSocketWrapper) : Holdings where
  ca := ⟨w.cacert, w.cacertAllocated⟩
  cli := ⟨w.clicert, w.clicertAllocated⟩
  conf := ⟨w.sslConf, w.sslConfAllocated⟩
  ssl := w.ssl
  contents := w.contents
  certs := w.certs
  configs := w.configs
  destroyed := w.destroyed

variable {w : TlsSocketWrapper} {answer : ConfigAnswer}

theorem setSslConfig_holdings (h : w.holdings.conf.Proper) (conf : Option Pointer) :
    (w.setSslConfig conf).holdings = w.holdings.replaceConf conf := by
  obtain ⟨old, hconf⟩ | ⟨old, hconf⟩ := h.cases <;> obtain ⟨hpointer, hflag⟩ := Slot.mk.inj hconf <;>
    simp [setSslConfig, holdings, Holdings.replaceConf, Slot.owned, Heap.release, hpointer, hflag]

theorem getSslConfig_holdings (w : TlsSocketWrapper) (answer : ConfigAnswer) :
    (w.getSslConfig answer).holdings = w.holdings.provide answer := by
  dsimp only [getSslConfig, Holdings.provide]
  split
  · next hconf => rw [if_pos (.inl hconf)]
  · split
    · next halloc => rw [if_pos (.inr halloc)]
    · next hconf halloc =>
        have hneither : ¬ (w.holdings.conf.pointer ≠ none ∨ answer.alloc = false) :=
          not_or.mpr ⟨hconf, halloc⟩
        rw [if_neg hneither]
        split
        · exact setSslConfig_holdings (fun _ => by simp [holdings]) none
        · rfl

theorem configure_holdings (w : TlsSocketWrapper) (answer : ConfigAnswer)
    (set : SslConfig → SslConfig) :
    (w.configure answer set).holdings = (w.holdings.provide answer).refer set := by
  rw [← getSslConfig_holdings]
  dsimp only [configure]
  cases hconf : (w.getSslConfig answer).sslConf with
  | none => simp [holdings, Holdings.refer, hconf]
  | some conf =>
      simp only [holdings, Holdings.refer, hconf, Option.some.injEq, Holdings.mk.injEq, true_and,
        and_true]
      funext c
      rw [Function.update_apply]
      simp only [eq_comm]
      split
      · next heq => rw [heq]
      · rfl

theorem setCaChain_holdings (h : w.holdings.ca.Proper) (crt : Option Pointer)
    (answer : ConfigAnswer) :
    (w.setCaChain crt answer).holdings =
      ((w.holdings.replaceCa crt).provide answer).refer fun c => { c with caChain := crt } := by
  dsimp only [setCaChain]
  rw [configure_holdings]
  congr 2
  obtain ⟨old, hca⟩ | ⟨old, hca⟩ := h.cases <;> obtain ⟨hpointer, hflag⟩ := Slot.mk.inj hca <;>
    simp [holdings, Holdings.replaceCa, Slot.owned, Heap.release, hpointer, hflag]

theorem setOwnCert_holdings_none (h : w.holdings.cli.Proper) (answer : ConfigAnswer) (rc : ℤ) :
    (w.setOwnCert none answer rc).holdings = w.holdings.replaceCli none := by
  obtain ⟨old, hcli⟩ | ⟨old, hcli⟩ := h.cases <;> obtain ⟨hpointer, hflag⟩ := Slot.mk.inj hcli <;>
    simp [setOwnCert, holdings, Holdings.replaceCli, Slot.owned, Heap.release, hpointer, hflag]

theorem setOwnCert_holdings_some (h : w.holdings.cli.Proper) (crt : Pointer)
    (answer : ConfigAnswer) (rc : ℤ) :
    (w.setOwnCert (some crt) answer rc).holdings =
      ((w.holdings.replaceCli (some crt)).provide answer).refer (addCert crt rc) := by
  dsimp only [setOwnCert]
  rw [configure_holdings]
  congr 2
  obtain ⟨old, hcli⟩ | ⟨old, hcli⟩ := h.cases <;> obtain ⟨hpointer, hflag⟩ := Slot.mk.inj hcli <;>
    simp [holdings, Holdings.replaceCli, Slot.owned, Heap.release, hpointer, hflag]

/-! ## Operations -/

/-- `connect` gets to `mbedtls_ssl_setup`. -/
def SetsUp (w : TlsSocketWrapper) (rc : ℤ) (answer : StartAnswer) : Prop :=
  w.transport = true ∧ w.tlsInitialized = false ∧
    (w.connectTransport = true → rc = 0 ∨ rc = nsapiErrorIsConnected) ∧ answer.seed = 0

/-- Nothing that an operation frees is still used, and nothing that has been freed is installed. -/
def Careful (w : TlsSocketWrapper) : Op → Prop
  | .setCaChain crt _ =>
      w.certs.Installable w.holdings.ca.owned crt ∧ w.holdings.CaReplaceable
  | .setRootCaCert alloc parse _ => alloc = true → parse = 0 → w.holdings.CaReplaceable
  | .setOwnCert crt _ _ =>
      w.certs.Installable w.holdings.cli.owned crt ∧ w.holdings.CliReplaceable
  | .setClientCertKey alloc parse key _ _ =>
      alloc = true → parse = 0 → key = 0 → w.holdings.CliReplaceable
  | .setSslConfig conf =>
      w.configs.Installable w.holdings.conf.owned conf ∧
        ∀ c, w.holdings.conf.owned = some c → w.ssl ≠ some c
  | .connect rc answer =>
      w.SetsUp rc answer → answer.setup = 0 ∨ answer.keeps = true →
        ∀ c, w.sslConf = some c → ∀ p ∈ (w.contents c).certs, ¬ w.certs.Freed p
  | _ => True

variable {pending : List Pointer} {t : TlsSocketWrapper}

theorem setCaChain_kept (h : w.holdings.Kept pending) (hlive : w.destroyed = false)
    {crt : Option Pointer} (hcrt : ∀ p, crt = some p → w.certs.Known p) (answer : ConfigAnswer) :
    (w.setCaChain crt answer).holdings.Kept pending ∧
      (w.setCaChain crt answer).holdings.ca = ⟨crt, false⟩ ∧
      (w.setCaChain crt answer).destroyed = false := by
  obtain ⟨hca, -, -, hcerts, hdestroyed⟩ :=
    Holdings.provide_frame (w.holdings.replaceCa crt) answer
  have hholdings := setCaChain_holdings h.ca crt answer
  rw [hholdings]
  refine ⟨((h.replaceCa hcrt).provide hlive).refer fun c p hp => ?_, hca,
    (congrArg Holdings.destroyed hholdings).trans (hdestroyed.trans hlive)⟩
  rw [SslConfig.mem_certs] at hp ⊢
  obtain hp | hp := hp
  · rw [hcerts]
    exact .inr (Heap.known_release.mpr (hcrt p hp))
  · exact .inl (.inr hp)

theorem setCaChain_alive (h : w.holdings.Kept pending) (ha : w.holdings.Alive)
    {crt : Option Pointer} (hcrt : ∀ p, crt = some p → w.certs.Known p)
    (answer : ConfigAnswer) :
    (w.setCaChain crt answer).holdings.Alive ↔
      w.certs.Installable w.holdings.ca.owned crt ∧ w.holdings.CaReplaceable := by
  rw [setCaChain_holdings h.ca, (h.replaceCa hcrt).alive_provide_refer]
  exact h.alive_replaceCa ha

theorem setOwnCert_kept (h : w.holdings.Kept pending) (hlive : w.destroyed = false)
    {crt : Option Pointer} (hcrt : ∀ p, crt = some p → w.certs.Known p) (answer : ConfigAnswer)
    (rc : ℤ) :
    (w.setOwnCert crt answer rc).holdings.Kept pending ∧
      (w.setOwnCert crt answer rc).holdings.cli = ⟨crt, false⟩ ∧
      (w.setOwnCert crt answer rc).destroyed = false := by
  cases crt with
  | none =>
      have hholdings := setOwnCert_holdings_none h.cli answer rc
      rw [hholdings]
      exact ⟨h.replaceCli nofun, rfl, (congrArg Holdings.destroyed hholdings).trans hlive⟩
  | some crt =>
      obtain ⟨-, hcli, -, hcerts, hdestroyed⟩ :=
        Holdings.provide_frame (w.holdings.replaceCli (some crt)) answer
      have hholdings := setOwnCert_holdings_some h.cli crt answer rc
      rw [hholdings]
      refine ⟨((h.replaceCli hcrt).provide hlive).refer fun c p hp => ?_, hcli,
        (congrArg Holdings.destroyed hholdings).trans (hdestroyed.trans hlive)⟩
      obtain hp | ⟨-, rfl⟩ := mem_certs_addCert.mp hp
      · exact .inl hp
      · rw [hcerts]
        exact .inr (Heap.known_release.mpr (hcrt p rfl))

theorem setOwnCert_alive (h : w.holdings.Kept pending) (ha : w.holdings.Alive)
    {crt : Option Pointer} (hcrt : ∀ p, crt = some p → w.certs.Known p) (answer : ConfigAnswer)
    (rc : ℤ) :
    (w.setOwnCert crt answer rc).holdings.Alive ↔
      w.certs.Installable w.holdings.cli.owned crt ∧ w.holdings.CliReplaceable := by
  cases crt with
  | none =>
      rw [setOwnCert_holdings_none h.cli, h.alive_replaceCli_none ha]
      exact (and_iff_right nofun).symm
  | some crt =>
      rw [setOwnCert_holdings_some h.cli, (h.replaceCli hcrt).alive_provide_refer]
      exact h.alive_replaceCli_some ha

theorem known_fresh_cert (w : TlsSocketWrapper) :
    ∀ p, some w.certs.fresh = some p → w.certs.alloc.Known p := by
  rintro _ ⟨⟩
  exact Heap.known_fresh

theorem installable_fresh (h : w.holdings.Kept []) {s : Slot}
    (hs : ∀ p, s.pointer = some p → w.certs.Known p) :
    w.certs.alloc.Installable s.owned (some w.certs.fresh) := by
  rintro _ ⟨⟩
  refine ⟨h.certs.alloc.not_freed List.mem_cons_self, fun howned => ?_⟩
  exact (hs _ (Slot.pointer_of_owned howned)).ne_fresh rfl

theorem setRootCaCert_kept (h : w.holdings.Kept []) (hlive : w.destroyed = false) (alloc : Bool)
    (parse : ℤ) (answer : ConfigAnswer) :
    (w.setRootCaCert alloc parse answer).holdings.Kept [] := by
  dsimp only [setRootCaCert]
  split
  · exact h
  · split
    · exact h.allocCert.freeCert
    · obtain ⟨hkept, hca, hlive'⟩ := setCaChain_kept (w := { w with certs := w.certs.alloc })
        h.allocCert hlive (known_fresh_cert w) answer
      exact hkept.ownCa hca hlive'

theorem setRootCaCert_alive (h : w.holdings.Kept []) (ha : w.holdings.Alive) (alloc : Bool)
    (parse : ℤ) (answer : ConfigAnswer) :
    (w.setRootCaCert alloc parse answer).holdings.Alive ↔
      (alloc = true → parse = 0 → w.holdings.CaReplaceable) := by
  dsimp only [setRootCaCert]
  split
  · next halloc => exact iff_of_true ha fun htrue => by cases halloc.symm.trans htrue
  · next halloc =>
      split
      · next hparse => exact iff_of_true (h.alive_freeCert.mpr ha) fun _ hzero => absurd hzero hparse
      · next hparse =>
          have halive := setCaChain_alive (w := { w with certs := w.certs.alloc })
            h.allocCert (h.alive_allocCert.mpr ha) (known_fresh_cert w) answer
          have hfresh := installable_fresh h (s := w.holdings.ca) fun p hp => h.knownCert p (.inl hp)
          rw [Bool.not_eq_false] at halloc
          rw [forall_prop_of_true halloc, forall_prop_of_true (not_not.mp hparse),
            ← and_iff_right (b := w.holdings.CaReplaceable) hfresh]
          refine Iff.trans ⟨fun hy => ?_, fun hy => ?_⟩ halive
          · exact ⟨hy.ca, hy.cli, hy.conf, hy.ssl, hy.sslCerts⟩
          · exact ⟨hy.ca, hy.cli, hy.conf, hy.ssl, hy.sslCerts⟩

theorem setClientCertKey_kept (h : w.holdings.Kept []) (hlive : w.destroyed = false) (alloc : Bool)
    (parse key : ℤ) (answer : ConfigAnswer) (rc : ℤ) :
    (w.setClientCertKey alloc parse key answer rc).holdings.Kept [] := by
  dsimp only [setClientCertKey]
  split
  · exact h
  · split
    · exact h.allocCert.freeCert
    · split
      · exact h.allocCert.freeCert
      · obtain ⟨hkept, hcli, hlive'⟩ := setOwnCert_kept (w := { w with certs := w.certs.alloc })
          h.allocCert hlive (known_fresh_cert w) answer rc
        exact hkept.ownCli hcli hlive'

theorem setClientCertKey_alive (h : w.holdings.Kept []) (ha : w.holdings.Alive) (alloc : Bool)
    (parse key : ℤ) (answer : ConfigAnswer) (rc : ℤ) :
    (w.setClientCertKey alloc parse key answer rc).holdings.Alive ↔
      (alloc = true → parse = 0 → key = 0 → w.holdings.CliReplaceable) := by
  dsimp only [setClientCertKey]
  split
  · next halloc => exact iff_of_true ha fun htrue => by cases halloc.symm.trans htrue
  · next halloc =>
      split
      · next hparse => exact iff_of_true (h.alive_freeCert.mpr ha) fun _ hzero => absurd hzero hparse
      · next hparse =>
          split
          · next hkey =>
              exact iff_of_true (h.alive_freeCert.mpr ha) fun _ _ hzero => absurd hzero hkey
          · next hkey =>
              have halive := setOwnCert_alive (w := { w with certs := w.certs.alloc })
                h.allocCert (h.alive_allocCert.mpr ha) (known_fresh_cert w) answer rc
              have hfresh :=
                installable_fresh h (s := w.holdings.cli) fun p hp => h.knownCert p (.inr (.inl hp))
              rw [Bool.not_eq_false] at halloc
              rw [forall_prop_of_true halloc, forall_prop_of_true (not_not.mp hparse),
                forall_prop_of_true (not_not.mp hkey),
                ← and_iff_right (b := w.holdings.CliReplaceable) hfresh]
              refine Iff.trans ⟨fun hy => ?_, fun hy => ?_⟩ halive
              · exact ⟨hy.ca, hy.cli, hy.conf, hy.ssl, hy.sslCerts⟩
              · exact ⟨hy.ca, hy.cli, hy.conf, hy.ssl, hy.sslCerts⟩

/-! ### The connection -/

theorem useTransport_holdings (w : TlsSocketWrapper) : w.useTransport.holdings = w.holdings := by
  rw [useTransport]
  split <;> rfl

theorem continueHandshake_holdings (w : TlsSocketWrapper) (answer : HandshakeAnswer) :
    (w.continueHandshake answer).1.holdings = w.holdings := by
  dsimp only [continueHandshake]
  split
  · rfl
  · split
    · rfl
    · split
      · split <;> rfl
      · split <;> rfl

theorem startHandshake_holdings (w : TlsSocketWrapper) (firstCall : Bool) (answer : StartAnswer) :
    (w.startHandshake firstCall answer).1.holdings =
      if w.transport = true ∧ w.tlsInitialized = false ∧ answer.seed = 0 then
        w.holdings.setUp answer
      else w.holdings := by
  dsimp only [startHandshake]
  split
  · next htransport => rw [if_neg (by simp [htransport])]
  · next htransport =>
      rw [Bool.not_eq_false] at htransport
      split
      · next hinitialized => rw [if_neg (by simp [hinitialized]), continueHandshake_holdings]
      · next hinitialized =>
          rw [Bool.not_eq_true] at hinitialized
          split
          · next hseed => rw [if_neg (by simp [hseed])]
          · next hseed =>
              have hreaches : w.transport = true ∧ w.tlsInitialized = false ∧ answer.seed = 0 :=
                ⟨htransport, hinitialized, not_not.mp hseed⟩
              rw [if_pos hreaches]
              let u := ((w.configure answer.rng id).configure answer.conf id).sslSetup answer
              have hu : u.holdings = w.holdings.setUp answer := by
                have hconf : ((w.configure answer.rng id).configure answer.conf id).holdings =
                    (w.holdings.provide answer.rng).provide answer.conf := by
                  rw [configure_holdings, configure_holdings, Holdings.refer_id, Holdings.refer_id]
                rw [Holdings.setUp, ← hconf]
                rfl
              split
              · exact hu
              · have hrest : ({ u.useTransport with tlsInitialized := true } :
                    TlsSocketWrapper).holdings = w.holdings.setUp answer :=
                  (useTransport_holdings u).trans hu
                split
                · exact (continueHandshake_holdings _ _).trans hrest
                · split <;> exact (continueHandshake_holdings _ _).trans hrest

/-- `connect` installs the configuration in the SSL context, or changes nothing. -/
theorem connect_holdings (w : TlsSocketWrapper) (rc : ℤ) (answer : StartAnswer) :
    w.SetsUp rc answer ∧ (w.connect rc answer).holdings = w.holdings.setUp answer ∨
      ¬ w.SetsUp rc answer ∧ (w.connect rc answer).holdings = w.holdings := by
  dsimp only [connect, SetsUp]
  by_cases htransport : w.transport = true
  · rw [if_neg (by simp [htransport])]
    by_cases hconnect : w.tlsInitialized = false ∧ w.connectTransport = true
    · rw [if_pos hconnect, useTransport, if_pos htransport]
      split
      · next hrc => exact .inr ⟨fun h => hrc.1 ((h.2.2.1 hconnect.2).resolve_right hrc.2), rfl⟩
      · next hrc =>
          have hpassed : rc = 0 ∨ rc = nsapiErrorIsConnected := by
            rw [← not_not (a := rc = 0 ∨ _), not_or]
            exact hrc
          have hholdings := startHandshake_holdings w (rc == nsapiErrorOk) answer
          by_cases hseed : answer.seed = 0
          · refine .inl ⟨⟨htransport, hconnect.1, fun _ => hpassed, hseed⟩, ?_⟩
            rw [if_pos ⟨htransport, hconnect.1, hseed⟩] at hholdings
            exact hholdings
          · refine .inr ⟨fun h => hseed h.2.2.2, ?_⟩
            rw [if_neg fun h => hseed h.2.2] at hholdings
            exact hholdings
    · rw [if_neg hconnect]
      have hholdings := startHandshake_holdings w true answer
      by_cases hreaches : w.transport = true ∧ w.tlsInitialized = false ∧ answer.seed = 0
      · refine .inl ⟨⟨htransport, hreaches.2.1, fun hconn => ?_, hreaches.2.2⟩, ?_⟩
        · exact absurd ⟨hreaches.2.1, hconn⟩ hconnect
        · rw [if_pos hreaches] at hholdings
          exact hholdings
      · refine .inr ⟨fun h => hreaches ⟨h.1, h.2.1, h.2.2.2⟩, ?_⟩
        rw [if_neg hreaches] at hholdings
        exact hholdings
  · exact .inr ⟨fun h => htransport h.1, by rw [if_pos (Bool.eq_false_iff.mpr htransport)]; rfl⟩

theorem transfer_holdings (w : TlsSocketWrapper) (translate : ℤ → ℤ) (answer : HandshakeAnswer)
    (rc : ℤ) : (w.transfer translate answer rc).holdings = w.holdings := by
  have hholdings := (continueHandshake_holdings w.useTransport answer).trans
    (useTransport_holdings w)
  dsimp only [transfer]
  split
  · rfl
  · split
    · exact hholdings
    · split <;> exact hholdings

theorem getpeername_holdings (w : TlsSocketWrapper) (rc : ℤ) :
    (w.getpeername rc).holdings = w.holdings := by
  dsimp only [getpeername]
  split
  · rfl
  · exact useTransport_holdings w

theorem recvfrom_holdings (w : TlsSocketWrapper) (address : Bool) (peer : ℤ)
    (answer : HandshakeAnswer) (rc : ℤ) :
    (w.recvfrom address peer answer rc).holdings = w.holdings := by
  dsimp only [recvfrom]
  split
  · exact (transfer_holdings _ _ _ _).trans (getpeername_holdings w peer)
  · exact transfer_holdings _ _ _ _

theorem forward_holdings (w : TlsSocketWrapper) (rc : ℤ) :
    (w.forward rc).holdings = w.holdings := by
  dsimp only [forward]
  split
  · rfl
  · exact useTransport_holdings w

theorem setTimeout_holdings (w : TlsSocketWrapper) (timeout : ℤ) :
    (w.setTimeout timeout).holdings = w.holdings := by
  dsimp only [setTimeout]
  split
  · exact useTransport_holdings w
  · rfl

/-- The connection is announced to end, and the transport may be closed. -/
theorem hangUp_holdings (w : TlsSocketWrapper) :
    let u := if w.handshakeCompleted = true then
        { w.useTransport with handshakeCompleted := false } else w
    (if u.closeTransport = true then u.useTransport else u).holdings = w.holdings := by
  intro u
  have hu : u.holdings = w.holdings := by
    dsimp only [u]
    split
    · exact useTransport_holdings w
    · rfl
  split
  · exact (useTransport_holdings u).trans hu
  · exact hu

theorem close_holdings (w : TlsSocketWrapper) (notify rc : ℤ) :
    (w.close notify rc).holdings = w.holdings := by
  rw [close]
  by_cases htransport : w.transport = false
  · rw [if_pos htransport]
    rfl
  · rw [if_neg htransport]
    exact hangUp_holdings w

/-- Without an SSL context, the destructor replaces everything by nothing. -/
theorem destroy_eq (w : TlsSocketWrapper) (answer : ConfigAnswer) :
    ∃ u : TlsSocketWrapper, u.holdings = { w.holdings with ssl := none } ∧
      w.destroy answer = { ((u.setOwnCert none answer 0).setCaChain none answer).setSslConfig none
        with destroyed := true }.done := by
  refine ⟨_, ?_, rfl⟩
  by_cases htransport : w.transport = true
  · rw [if_pos htransport]
    exact congrArg (fun x : Holdings => { x with ssl := none }) (hangUp_holdings w)
  · rw [if_neg htransport]
    rfl

theorem destroy_releases (h : w.holdings.Kept []) (hlive : w.destroyed = false)
    (answer : ConfigAnswer) :
    (w.destroy answer).holdings.Kept [] ∧ (w.destroy answer).holdings.Alive := by
  obtain ⟨u, hu, heq⟩ := destroy_eq w answer
  have hukept : u.holdings.Kept [] := by
    rw [hu]
    exact ⟨h.certs, h.configs, h.ca, h.cli, h.conf, h.knownCert,
      fun c hc => h.knownConf c (hc.elim .inl fun heq => by cases heq), h.destroyed⟩
  have hulive : u.destroyed = false := (congrArg Holdings.destroyed hu).trans hlive
  have hnone (k : Heap) : ∀ p, (none : Option Pointer) = some p → k.Known p := by
    intro p hp
    cases hp
  obtain ⟨hkept, hcli, hlive⟩ := setOwnCert_kept hukept hulive (hnone _) answer 0
  obtain ⟨hkept', hca, hlive'⟩ := setCaChain_kept hkept hlive (hnone _) answer
  obtain ⟨-, hcli', hssl, -, -⟩ :=
    Holdings.provide_frame ((u.setOwnCert none answer 0).holdings.replaceCa none) answer
  have hcaChain := setCaChain_holdings hkept.ca none answer
  have hcli'' : ((u.setOwnCert none answer 0).setCaChain none answer).holdings.cli = ⟨none, false⟩ :=
    (congrArg Holdings.cli hcaChain).trans (hcli'.trans hcli)
  have hssl'' : ((u.setOwnCert none answer 0).setCaChain none answer).holdings.ssl = none := by
    refine (congrArg Holdings.ssl hcaChain).trans (hssl.trans ?_)
    rw [setOwnCert_holdings_none hukept.cli, hu]
    rfl
  have hholdings : (w.destroy answer).holdings =
      { ((u.setOwnCert none answer 0).setCaChain none answer).holdings.replaceConf none with
        destroyed := true } := by
    rw [heq, ← setSslConfig_holdings hkept'.conf]
    rfl
  have hlast := hkept'.replaceConf (hnone _)
  rw [hholdings]
  constructor
  · exact ⟨hlast.certs, hlast.configs, hlast.ca, hlast.cli, hlast.conf, hlast.knownCert,
      hlast.knownConf, fun _ => ⟨by simp [Holdings.replaceConf, hca, Slot.owned],
        by simp [Holdings.replaceConf, hcli'', Slot.owned], rfl⟩⟩
  · refine ⟨fun p hp => ?_, fun p hp => ?_, fun c hc => ?_, fun c hc => ?_, fun c hc => ?_⟩
    · simp [Holdings.replaceConf, hca] at hp
    · simp [Holdings.replaceConf, hcli''] at hp
    · cases hc
    · simp [Holdings.replaceConf, hssl''] at hc
    · simp [Holdings.replaceConf, hssl''] at hc

/-! ## Runs -/

theorem act_kept (h : w.holdings.Kept []) (hlive : w.destroyed = false) {a : Op}
    (ha : a.Valid w) : (w.act a).holdings.Kept [] := by
  cases a with
  | setHostname | getOwnCert | getCaChain | getSslContext | accept | listen => exact h
  | setRootCaCert alloc parse answer => exact setRootCaCert_kept h hlive alloc parse answer
  | setClientCertKey alloc parse key answer rc =>
      exact setClientCertKey_kept h hlive alloc parse key answer rc
  | setOwnCert crt answer rc => exact (setOwnCert_kept h hlive ha answer rc).1
  | setCaChain crt answer => exact (setCaChain_kept h hlive ha answer).1
  | setSslConfig conf =>
      have hkept := h.replaceConf ha
      rw [← setSslConfig_holdings h.conf] at hkept
      exact hkept
  | setTimeout timeout => exact (setTimeout_holdings w timeout) ▸ h
  | setBlocking blocking => exact (setTimeout_holdings w _) ▸ h
  | getSslConfig answer =>
      have hkept : (w.holdings.provide answer).Kept [] := h.provide hlive
      rw [← getSslConfig_holdings] at hkept
      exact hkept
  | connect rc answer =>
      obtain ⟨-, hholdings⟩ | ⟨-, hholdings⟩ := connect_holdings w rc answer
      · exact hholdings ▸ h.setUp hlive
      · exact hholdings ▸ h
  | send answer rc | sendto answer rc | recv answer rc =>
      exact (transfer_holdings w _ answer rc) ▸ h
  | recvfrom address peer answer rc => exact (recvfrom_holdings w address peer answer rc) ▸ h
  | bind rc | setsockopt rc | getsockopt rc => exact (forward_holdings w rc) ▸ h
  | getpeername rc => exact (getpeername_holdings w rc) ▸ h
  | close notify rc => exact (close_holdings w notify rc) ▸ h
  | destroy answer => exact (destroy_releases h hlive answer).1

theorem act_alive_iff (h : w.holdings.Kept []) (hlive : w.destroyed = false)
    (halive : w.holdings.Alive) {a : Op} (ha : a.Valid w) :
    (w.act a).holdings.Alive ↔ w.Careful a := by
  have hsame : ∀ {t : TlsSocketWrapper}, t.holdings = w.holdings → (t.holdings.Alive ↔ True) :=
    fun heq => iff_true_intro (heq ▸ halive)
  cases a with
  | setHostname | getOwnCert | getCaChain | getSslContext | accept | listen => exact hsame rfl
  | setRootCaCert alloc parse answer => exact setRootCaCert_alive h halive alloc parse answer
  | setClientCertKey alloc parse key answer rc =>
      exact setClientCertKey_alive h halive alloc parse key answer rc
  | setOwnCert crt answer rc => exact setOwnCert_alive h halive ha answer rc
  | setCaChain crt answer => exact setCaChain_alive h halive ha answer
  | setSslConfig conf =>
      exact (congrArg Holdings.Alive (setSslConfig_holdings h.conf conf)).to_iff.trans
        (h.alive_replaceConf halive)
  | setTimeout timeout => exact hsame (setTimeout_holdings w timeout)
  | setBlocking blocking => exact hsame (setTimeout_holdings w _)
  | getSslConfig answer =>
      have hprovide : (w.holdings.provide answer).Alive := h.alive_provide.mpr halive
      have hconf := iff_true_intro hprovide
      rw [← getSslConfig_holdings] at hconf
      exact hconf
  | connect rc answer =>
      obtain ⟨hsetup, hholdings⟩ | ⟨hsetup, hholdings⟩ := connect_holdings w rc answer
      · dsimp only [act, Careful]
        rw [hholdings, h.alive_setUp halive hlive]
        exact ⟨fun hall _ => hall, fun hall => hall hsetup⟩
      · exact (hsame hholdings).trans (iff_true_intro fun hyes => absurd hyes hsetup).symm
  | send answer rc | sendto answer rc | recv answer rc => exact hsame (transfer_holdings w _ answer rc)
  | recvfrom address peer answer rc => exact hsame (recvfrom_holdings w address peer answer rc)
  | bind rc | setsockopt rc | getsockopt rc => exact hsame (forward_holdings w rc)
  | getpeername rc => exact hsame (getpeername_holdings w rc)
  | close notify rc => exact hsame (close_holdings w notify rc)
  | destroy answer => exact iff_true_intro (destroy_releases h hlive answer).2

/-- The wrapper frees what it has allocated once, before it is gone, and nothing of the user's. -/
structure FreedOnce (w : TlsSocketWrapper) : Prop where
  cert : ∀ number, w.certs.ledger.settled number ≤ 1
  config : ∀ number, w.configs.ledger.settled number ≤ 1
  allCerts : w.destroyed = true → ∀ number < w.certs.ledger.issued,
    w.certs.ledger.settled number = 1
  allConfigs : w.destroyed = true → ∀ number < w.configs.ledger.issued,
    w.configs.ledger.settled number = 1
  userCerts : w.certs.misfreed = false
  userConfigs : w.configs.misfreed = false

/-- Besides, what is installed, or what the SSL context refers to, has not been freed. -/
structure Owned (w : TlsSocketWrapper) : Prop extends FreedOnce w where
  alive : w.holdings.Alive

theorem freedOnce_of_kept (h : w.holdings.Kept []) : w.FreedOnce where
  cert := h.certs.balanced.settled_le_one
  config := h.configs.balanced.settled_le_one
  allCerts := by
    intro hdestroyed number hlt
    obtain ⟨hca, hcli, -⟩ := h.destroyed hdestroyed
    have hkeeps := h.certs
    rw [hca, hcli] at hkeeps
    exact hkeeps.settled_eq_one hlt
  allConfigs := by
    intro hdestroyed number hlt
    obtain ⟨-, -, hconf⟩ := h.destroyed hdestroyed
    have hkeeps := h.configs
    rw [hconf] at hkeeps
    exact hkeeps.settled_eq_one hlt
  userCerts := h.certs.user
  userConfigs := h.configs.user

theorem kept_new (transport : Bool) (control : ControlTransport) :
    (new transport control).holdings.Kept [] where
  certs := Heap.keeps_empty
  configs := Heap.keeps_empty
  ca := nofun
  cli := nofun
  conf := nofun
  knownCert := by
    rintro p (hp | hp | ⟨c, hp⟩)
    · cases hp
    · cases hp
    · cases hp
  knownConf := by
    rintro c (hc | hc)
    · cases hc
    · cases hc
  destroyed := nofun

theorem alive_new (transport : Bool) (control : ControlTransport) :
    (new transport control).holdings.Alive :=
  ⟨nofun, nofun, nofun, nofun, nofun⟩

theorem step_valid {a : Op} (hs : w.step a = some t) :
    w.destroyed = false ∧ a.Valid w ∧ t = w.act a := by
  obtain ⟨henabled, hs⟩ := Option.ite_none_left_eq_some.mp hs
  obtain ⟨hlive, hvalid⟩ := not_or.mp henabled
  cases hs
  exact ⟨Bool.eq_false_iff.mpr hlive, not_not.mp hvalid, rfl⟩

/-- Whatever the user passes, nothing is freed twice, left over, or freed for the user. -/
theorem always_freedOnce (transport : Bool) (control : ControlTransport) (ops : List Op) :
    Always step FreedOnce (new transport control) ops := by
  apply Always.of_inductive fun w => w.holdings.Kept []
  · intro w a t h hs
    obtain ⟨hlive, hvalid, rfl⟩ := step_valid hs
    exact act_kept h hlive hvalid
  · exact fun _ => freedOnce_of_kept
  · exact kept_new transport control

/-- Whatever is called in whatever order: every object of the wrapper is freed exactly once, none of
the user's is, and none that is still used has been, exactly if nothing is replaced while it is used
elsewhere, and nothing that has been freed, or is about to be, is installed. -/
theorem owned_iff_careful (transport : Bool) (control : ControlTransport) (ops : List Op) :
    Always step Owned (new transport control) ops ↔
      Meets step Careful (new transport control) ops := by
  apply always_iff_meets fun w => w.holdings.Kept [] ∧ w.holdings.Alive
  · rintro w a t ⟨h, halive⟩ hok hs
    obtain ⟨hlive, hvalid, rfl⟩ := step_valid hs
    exact ⟨act_kept h hlive hvalid, (act_alive_iff h hlive halive hvalid).mpr hok⟩
  · rintro w ⟨h, halive⟩
    exact ⟨freedOnce_of_kept h, halive⟩
  · rintro w a t ⟨h, halive⟩ hs hbad howned
    obtain ⟨hlive, hvalid, rfl⟩ := step_valid hs
    exact hbad ((act_alive_iff h hlive halive hvalid).mp howned.alive)
  · exact ⟨kept_new transport control, alive_new transport control⟩

/-- The CA chain of the wrapper is freed where it is set again. -/
theorem sameCaChain_not_owned :
    ¬ ∀ transport control ops, Always step Owned (new transport control) ops := by
  intro h
  have hset := ((h true .keep [.setRootCaCert true 0 ⟨true, 0⟩, .setCaChain (some (.own 0))
    ⟨true, 0⟩]).2 _ rfl).2 _ rfl
  exact hset.alive.ca (.own 0) rfl (by decide)

end TlsSocketWrapper

end OpenIotSdk.Netsocket
