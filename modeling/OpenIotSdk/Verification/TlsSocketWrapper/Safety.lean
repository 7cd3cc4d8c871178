import OpenIotSdk.Library.Transition
import OpenIotSdk.Model.Netsocket.TlsSocketWrapper

/-! # What `TLSSocketWrapper` does without a transport or a configuration

`_transport` is null from the start or after `close`, and `get_ssl_config` returns null where
the configuration cannot be allocated. -/

namespace OpenIotSdk.Netsocket.TlsSocketWrapper

open Transition

/-! ## What the setters leave alone -/

/-- The part of the state that is about the connection. -/
structure Session where
  transport : Bool
  connectTransport : Bool
  tlsInitialized : Bool
  handshakeCompleted : Bool
  established : Bool
  nullTransport : Bool
  early : Bool

def session (w : TlsSocketWrapper) : Session where
  transport := w.transport
  connectTransport := w.connectTransport
  tlsInitialized := w.tlsInitialized
  handshakeCompleted := w.handshakeCompleted
  established := w.established
  nullTransport := w.nullTransport
  early := w.early

/-- The answers with which `get_ssl_config` gets a configuration. -/
def ConfigAnswer.Succeeds (answer : ConfigAnswer) : Prop :=
  answer.alloc = true ∧ answer.defaults = 0

/-- There is a configuration, or `get_ssl_config` gets one. -/
def Configured (w : TlsSocketWrapper) (answer : ConfigAnswer) : Prop :=
  w.sslConf ≠ none ∨ ConfigAnswer.Succeeds answer

variable {w t : TlsSocketWrapper} {answer : ConfigAnswer}

theorem setSslConfig_frame (w : TlsSocketWrapper) (conf : Option Pointer) :
    (w.setSslConfig conf).session = w.session ∧ (w.setSslConfig conf).nullConf = w.nullConf ∧
      (w.setSslConfig conf).sslConf = conf := by
  dsimp only [setSslConfig]
  split <;> exact ⟨rfl, rfl, rfl⟩

theorem getSslConfig_frame (w : TlsSocketWrapper) (answer : ConfigAnswer) :
    (w.getSslConfig answer).session = w.session ∧
      (w.getSslConfig answer).nullConf = w.nullConf := by
  dsimp only [getSslConfig]
  split
  · exact ⟨rfl, rfl⟩
  · split
    · exact ⟨rfl, rfl⟩
    · split
      · obtain ⟨hsession, hnull, -⟩ := setSslConfig_frame { w with
          sslConf := some w.configs.fresh
          sslConfAllocated := true
          contents := Function.update w.contents w.configs.fresh ⟨none, []⟩
          configs := w.configs.alloc } none
        exact ⟨hsession, hnull⟩
      · exact ⟨rfl, rfl⟩

theorem getSslConfig_ne_none_iff : (w.getSslConfig answer).sslConf ≠ none ↔ w.Configured answer := by
  dsimp only [getSslConfig, Configured, ConfigAnswer.Succeeds]
  by_cases hconf : w.sslConf = none
  · rw [if_neg (not_not_intro hconf)]
    cases halloc : answer.alloc with
    | false => simp [hconf]
    | true =>
        by_cases hdefaults : answer.defaults = 0
        · simp [hdefaults]
        · simp [hdefaults, hconf, (setSslConfig_frame _ none).2.2]
  · simp [hconf]

theorem configure_session (w : TlsSocketWrapper) (answer : ConfigAnswer)
    (set : SslConfig → SslConfig) : (w.configure answer set).session = w.session := by
  have hsession := (getSslConfig_frame w answer).1
  dsimp only [configure]
  split <;> exact hsession

theorem configure_nullConf_iff {set : SslConfig → SslConfig} :
    (w.configure answer set).nullConf = false ↔ w.nullConf = false ∧ w.Configured answer := by
  rw [← getSslConfig_ne_none_iff, ← (getSslConfig_frame w answer).2]
  dsimp only [configure]
  cases hconf : (w.getSslConfig answer).sslConf with
  | none => simp
  | some conf => simp

theorem configure_sslConf (w : TlsSocketWrapper) (answer : ConfigAnswer)
    (set : SslConfig → SslConfig) :
    (w.configure answer set).sslConf = (w.getSslConfig answer).sslConf := by
  dsimp only [configure]
  split <;> rfl

theorem setCaChain_spec (w : TlsSocketWrapper) (crt : Option Pointer) (answer : ConfigAnswer) :
    (w.setCaChain crt answer).session = w.session ∧
      ((w.setCaChain crt answer).nullConf = false ↔ w.nullConf = false ∧ w.Configured answer) := by
  dsimp only [setCaChain]
  rw [configure_session, configure_nullConf_iff]
  split <;> exact ⟨rfl, Iff.rfl⟩

theorem setOwnCert_none (w : TlsSocketWrapper) (answer : ConfigAnswer) (rc : ℤ) :
    (w.setOwnCert none answer rc).session = w.session ∧
      (w.setOwnCert none answer rc).nullConf = w.nullConf ∧
      (w.setOwnCert none answer rc).sslConf = w.sslConf := by
  dsimp only [setOwnCert]
  split <;> exact ⟨rfl, rfl, rfl⟩

theorem setOwnCert_some (w : TlsSocketWrapper) (crt : Pointer) (answer : ConfigAnswer) (rc : ℤ) :
    (w.setOwnCert (some crt) answer rc).session = w.session ∧
      ((w.setOwnCert (some crt) answer rc).nullConf = false ↔
        w.nullConf = false ∧ w.Configured answer) := by
  dsimp only [setOwnCert]
  rw [configure_session, configure_nullConf_iff]
  split <;> exact ⟨rfl, Iff.rfl⟩

/-! ## The invariant -/

/-- A completed handshake is one of an open connection. -/
structure Session.Sound (x : Session) : Prop where
  nullTransport : x.nullTransport = false
  early : x.early = false
  completed : x.handshakeCompleted = true → x.established = true
  connected : x.established = true → x.transport = true

theorem sound_new (transport : Bool) (control : ControlTransport) :
    (new transport control).session.Sound :=
  ⟨rfl, rfl, nofun, nofun⟩

theorem useTransport_eq (h : w.transport = true) : w.useTransport = w := if_pos h

theorem continueHandshake_spec (h : w.session.Sound) (htransport : w.transport = true)
    (answer : HandshakeAnswer) :
    (w.continueHandshake answer).1.session.Sound ∧
      (w.continueHandshake answer).1.transport = true ∧
      (w.continueHandshake answer).1.nullConf = w.nullConf ∧
      ((w.continueHandshake answer).2 = nsapiErrorIsConnected →
        (w.continueHandshake answer).1.established = true) := by
  have herror : ∀ error, error ≠ nsapiErrorIsConnected → error = nsapiErrorIsConnected →
      w.established = true := fun _ hne heq => absurd heq hne
  dsimp only [continueHandshake]
  split
  · next hcompleted => exact ⟨h, htransport, rfl, fun _ => h.completed hcompleted⟩
  · split
    · exact ⟨h, htransport, rfl, herror nsapiErrorNoConnection (by decide)⟩
    · split
      · split
        · exact ⟨h, htransport, rfl, herror nsapiErrorAlready (by decide)⟩
        · exact ⟨h, htransport, rfl, herror nsapiErrorAuthFailure (by decide)⟩
      · split
        · exact ⟨⟨h.nullTransport, h.early, fun _ => rfl, fun _ => htransport⟩, htransport, rfl,
            fun _ => rfl⟩
        · exact ⟨⟨h.nullTransport, h.early, fun _ => rfl, fun _ => htransport⟩, htransport, rfl,
            fun _ => rfl⟩

theorem startHandshake_spec (h : w.session.Sound) (htransport : w.transport = true)
    (firstCall : Bool) (answer : StartAnswer) :
    (w.startHandshake firstCall answer).1.session.Sound ∧
      ((w.startHandshake firstCall answer).1.nullConf = false ↔ w.nullConf = false ∧
        (w.tlsInitialized = false → answer.seed = 0 → w.Configured answer.rng)) := by
  dsimp only [startHandshake]
  rw [if_neg (by simp [htransport])]
  cases hinitialized : w.tlsInitialized with
  | true =>
      obtain ⟨hsound, -, hnull, -⟩ := continueHandshake_spec h htransport answer.toHandshakeAnswer
      rw [if_pos rfl, hnull]
      exact ⟨hsound, by simp⟩
  | false =>
      rw [if_neg (by simp)]
      by_cases hseed : answer.seed = 0
      · rw [if_neg (not_not_intro hseed)]
        -- Once there is a configuration, the second call finds it.
        let u := ((w.configure answer.rng id).configure answer.conf id).sslSetup answer
        have hsession : u.session = w.session :=
          (configure_session _ _ _).trans (configure_session _ _ _)
        have hnull : u.nullConf = false ↔ w.nullConf = false ∧ w.Configured answer.rng := by
          change (configure _ answer.conf id).nullConf = false ↔ _
          rw [configure_nullConf_iff, configure_nullConf_iff, and_iff_left_iff_imp]
          rintro ⟨-, hconf⟩
          left
          rw [configure_sslConf]
          exact getSslConfig_ne_none_iff.mpr hconf
        have hu : u.session.Sound := hsession ▸ h
        have hutransport : u.transport = true :=
          (congrArg Session.transport hsession).trans htransport
        split
        · exact ⟨hu, by simpa [hseed] using hnull⟩
        · rw [useTransport_eq hutransport]
          have hinit : ({ u with tlsInitialized := true } : TlsSocketWrapper).session.Sound :=
            ⟨hu.nullTransport, hu.early, hu.completed, hu.connected⟩
          obtain ⟨hsound, -, hsame, -⟩ :=
            continueHandshake_spec hinit hutransport answer.toHandshakeAnswer
          split
          · exact ⟨hsound, by simpa [hseed, hsame] using hnull⟩
          · split
            · exact ⟨hsound, by simpa [hseed, hsame] using hnull⟩
            · exact ⟨hsound, by simpa [hseed, hsame] using hnull⟩
      · rw [if_pos hseed]
        exact ⟨h, by simp [hseed]⟩

theorem connect_spec (h : w.session.Sound) (rc : ℤ) (answer : StartAnswer) :
    (w.connect rc answer).session.Sound ∧
      ((w.connect rc answer).nullConf = false ↔ w.nullConf = false ∧
        (w.transport = true → w.tlsInitialized = false →
          (w.connectTransport = true → rc = 0 ∨ rc = nsapiErrorIsConnected) →
          answer.seed = 0 → w.Configured answer.rng)) := by
  dsimp only [connect]
  cases htransport : w.transport with
  | false => exact ⟨h, by simp [ret]⟩
  | true =>
      rw [if_neg (by simp)]
      by_cases hconnect : w.tlsInitialized = false ∧ w.connectTransport = true
      · rw [if_pos hconnect, useTransport_eq htransport]
        split
        · next hrc => exact ⟨h, by simp [ret, hrc, hconnect]⟩
        · next hrc =>
            obtain ⟨hsound, hnull⟩ :=
              startHandshake_spec h htransport (rc == nsapiErrorOk) answer
            have hpassed : rc = 0 ∨ rc = nsapiErrorIsConnected := by
              rw [← not_not (a := rc = 0 ∨ _), not_or]
              exact hrc
            exact ⟨hsound, by simpa [ret, hpassed, hconnect] using hnull⟩
      · rw [if_neg hconnect]
        obtain ⟨hsound, hnull⟩ := startHandshake_spec h htransport true answer
        refine ⟨hsound, hnull.trans (and_congr_right fun _ => ?_)⟩
        constructor
        · exact fun hall _ hinitialized _ => hall hinitialized
        · exact fun hall hinitialized => hall rfl hinitialized fun hconn =>
            absurd ⟨hinitialized, hconn⟩ hconnect

theorem transfer_spec (h : w.session.Sound) (translate : ℤ → ℤ) (answer : HandshakeAnswer)
    (rc : ℤ) :
    (w.transfer translate answer rc).session.Sound ∧
      (w.transfer translate answer rc).nullConf = w.nullConf := by
  dsimp only [transfer]
  cases htransport : w.transport with
  | false => exact ⟨h, rfl⟩
  | true =>
      rw [if_neg (by simp), useTransport_eq htransport]
      obtain ⟨hsound, -, hnull, hestablished⟩ := continueHandshake_spec h htransport answer
      split
      · exact ⟨hsound, hnull⟩
      · next hconnected =>
          rw [if_pos (hestablished (not_not.mp hconnected))]
          exact ⟨hsound, hnull⟩

theorem Session.Sound.transport {x : Session} (h : x.Sound) (hc : x.handshakeCompleted = true) :
    x.transport = true :=
  h.connected (h.completed hc)

theorem getpeername_spec (h : w.session.Sound) (rc : ℤ) :
    (w.getpeername rc).session = w.session ∧ (w.getpeername rc).nullConf = w.nullConf := by
  dsimp only [getpeername]
  split
  · exact ⟨rfl, rfl⟩
  · next hcompleted =>
      rw [Bool.not_eq_false] at hcompleted
      rw [useTransport_eq (h.transport hcompleted)]
      exact ⟨rfl, rfl⟩

theorem recvfrom_spec (h : w.session.Sound) (address : Bool) (peer : ℤ) (answer : HandshakeAnswer)
    (rc : ℤ) :
    (w.recvfrom address peer answer rc).session.Sound ∧
      (w.recvfrom address peer answer rc).nullConf = w.nullConf := by
  dsimp only [recvfrom]
  split
  · obtain ⟨hsession, hnull⟩ := getpeername_spec h peer
    rw [← hnull]
    exact transfer_spec (hsession.symm ▸ h) _ answer rc
  · exact transfer_spec h _ answer rc

theorem forward_spec (w : TlsSocketWrapper) (rc : ℤ) :
    (w.forward rc).session = w.session ∧ (w.forward rc).nullConf = w.nullConf := by
  dsimp only [forward]
  split
  · exact ⟨rfl, rfl⟩
  · next htransport =>
      rw [useTransport_eq (by simpa using htransport)]
      exact ⟨rfl, rfl⟩

theorem setTimeout_spec (h : w.session.Sound) (timeout : ℤ) :
    (w.setTimeout timeout).nullConf = w.nullConf ∧
      ((w.setTimeout timeout).session.Sound ↔ (w.transport = false →
        w.connectTransport = true → w.tlsInitialized = false → timeout = -1)) := by
  dsimp only [setTimeout]
  split
  · next hcond =>
      obtain ⟨hinitialized, htimeout, hconnect⟩ := hcond
      cases htransport : w.transport with
      | true =>
          rw [useTransport_eq htransport]
          exact ⟨rfl, iff_of_true h nofun⟩
      | false =>
          rw [useTransport, if_neg (by simp [htransport])]
          refine ⟨rfl, iff_of_false (fun hsound => ?_) fun hall => ?_⟩
          · cases hsound.nullTransport
          · exact htimeout (hall rfl hconnect hinitialized)
  · next hcond =>
      refine ⟨rfl, iff_of_true h fun _ hconnect hinitialized => ?_⟩
      by_contra htimeout
      exact hcond ⟨hinitialized, htimeout, hconnect⟩

theorem sound_setTimeout (h : w.session.Sound) {timeout : ℤ}
    (hnull : (w.setTimeout timeout).nullTransport = false) :
    (w.setTimeout timeout).session.Sound := by
  suffices hsession : (w.setTimeout timeout).session = w.session ∨
      (w.setTimeout timeout).nullTransport = true by
    obtain hsession | htrue := hsession
    · exact hsession ▸ h
    · cases hnull.symm.trans htrue
  dsimp only [setTimeout]
  split
  · rw [useTransport]
    split
    · exact .inl rfl
    · exact .inr rfl
  · exact .inl rfl

/-- The end of the connection is announced. -/
theorem hangUp_eq (h : w.transport = true) :
    (if w.handshakeCompleted = true then { w.useTransport with handshakeCompleted := false }
      else w) = { w with handshakeCompleted := false } := by
  split
  · rw [useTransport_eq h]
  · next hcompleted =>
      rw [Bool.not_eq_true] at hcompleted
      rw [← hcompleted]

theorem sound_hungUp (h : w.session.Sound) :
    ({ w with handshakeCompleted := false, transport := false, established := false } :
      TlsSocketWrapper).session.Sound :=
  ⟨h.nullTransport, h.early, nofun, nofun⟩

theorem close_spec (h : w.session.Sound) (notify rc : ℤ) :
    (w.close notify rc).session.Sound ∧ (w.close notify rc).nullConf = w.nullConf := by
  dsimp only [close]
  by_cases htransport : w.transport = true
  · rw [if_neg (by simp [htransport]), hangUp_eq htransport,
      useTransport_eq (w := { w with handshakeCompleted := false }) htransport, ite_self]
    exact ⟨sound_hungUp (w := w) h, rfl⟩
  · rw [if_pos (Bool.eq_false_iff.mpr htransport)]
    exact ⟨h, rfl⟩

theorem clear_spec (w : TlsSocketWrapper) (answer : ConfigAnswer) :
    (((w.setOwnCert none answer 0).setCaChain none answer).setSslConfig none).session =
        w.session ∧
      ((((w.setOwnCert none answer 0).setCaChain none answer).setSslConfig none).nullConf = false ↔
        w.nullConf = false ∧ w.Configured answer) := by
  obtain ⟨hsession, hnull, -⟩ :=
    setSslConfig_frame ((w.setOwnCert none answer 0).setCaChain none answer) none
  obtain ⟨hsession', hnull'⟩ := setCaChain_spec (w.setOwnCert none answer 0) none answer
  obtain ⟨hsession'', hnull'', hconf⟩ := setOwnCert_none w answer 0
  refine ⟨hsession.trans (hsession'.trans hsession''), ?_⟩
  rw [hnull, hnull', hnull'', Configured, hconf]
  rfl

/-- Before them, the destructor ends the connection. -/
theorem destroy_hangs_up (h : w.session.Sound) (answer : ConfigAnswer) :
    ∃ u : TlsSocketWrapper, (u.session.Sound ∧ u.nullConf = w.nullConf ∧ u.sslConf = w.sslConf) ∧
      w.destroy answer = { ((u.setOwnCert none answer 0).setCaChain none answer).setSslConfig none
        with destroyed := true }.done := by
  refine ⟨_, ?_, rfl⟩
  by_cases htransport : w.transport = true
  · rw [if_pos htransport, hangUp_eq htransport]
    dsimp only
    rw [useTransport_eq (w := { w with handshakeCompleted := false }) htransport, ite_self]
    exact ⟨sound_hungUp (w := w) h, rfl, rfl⟩
  · rw [if_neg htransport]
    exact ⟨h, rfl, rfl⟩

theorem destroy_spec (h : w.session.Sound) (answer : ConfigAnswer) :
    (w.destroy answer).session.Sound ∧
      ((w.destroy answer).nullConf = false ↔ w.nullConf = false ∧ w.Configured answer) := by
  obtain ⟨u, ⟨hsound, hnull, hconf⟩, heq⟩ := destroy_hangs_up h answer
  obtain ⟨hsession, hcleared⟩ := clear_spec u answer
  rw [hnull, Configured, hconf] at hcleared
  rw [heq]
  exact ⟨(congrArg Session.Sound hsession).mpr hsound, hcleared⟩

/-! ## Runs -/

def Op.setter : Op → Bool
  | .setHostname | .setRootCaCert .. | .setClientCertKey .. | .setOwnCert .. | .setCaChain ..
  | .setSslConfig _ | .setTimeout _ | .setBlocking _ => true
  | _ => false

/-- What one operation does. -/
structure Safe (w : TlsSocketWrapper) (a : Op) (t : TlsSocketWrapper) : Prop where
  transport : t.nullTransport = false
  conf : t.nullConf = false
  connection : t.early = false
  closed : w.transport = false → a.setter = false → ∀ r, t.result = some r → r < 0

def Op.timeout : Op → Option ℤ
  | .setTimeout timeout => some timeout
  | .setBlocking blocking => some (if blocking then -1 else 0)
  | _ => none

/-- The answers in `get_ssl_config`, where its configuration is passed to Mbed TLS. -/
def Op.configures (w : TlsSocketWrapper) : Op → Option ConfigAnswer
  | .setRootCaCert alloc parse answer => if alloc = true ∧ parse = 0 then some answer else none
  | .setClientCertKey alloc parse key answer _ =>
      if alloc = true ∧ parse = 0 ∧ key = 0 then some answer else none
  | .setOwnCert crt answer _ => if crt = none then none else some answer
  | .setCaChain _ answer => some answer
  | .connect rc answer =>
      if w.transport = true ∧ w.tlsInitialized = false ∧
        (w.connectTransport = true → rc = 0 ∨ rc = nsapiErrorIsConnected) ∧ answer.seed = 0
      then some answer.rng else none
  | .destroy answer => some answer
  | _ => none

/-- Without a transport and before the handshake, a wrapper that connects its transport gets no
timeout but -1; and where Mbed TLS is given the configuration, there is one or it is allocated. -/
structure Guarded (w : TlsSocketWrapper) (a : Op) : Prop where
  timeout : ∀ timeout, a.timeout = some timeout → w.transport = false →
    w.connectTransport = true → w.tlsInitialized = false → timeout = -1
  conf : ∀ answer, a.configures w = some answer → w.Configured answer

theorem conf_iff_of_none {a : Op} (ha : a.configures w = none) (hnull : t.nullConf = w.nullConf) :
    t.nullConf = false ↔
      w.nullConf = false ∧ ∀ answer, a.configures w = some answer → w.Configured answer := by
  rw [hnull, ha]
  simp

/-- A setter that passes the configuration to Mbed TLS under a condition. -/
theorem conf_iff_of_ite {a : Op} {p : Prop} [Decidable p]
    (ha : a.configures w = if p then some answer else none)
    (hnull : t.nullConf = false ↔ w.nullConf = false ∧ (p → w.Configured answer)) :
    t.nullConf = false ↔
      w.nullConf = false ∧ ∀ answer, a.configures w = some answer → w.Configured answer := by
  rw [hnull, ha]
  refine and_congr_right fun _ => ⟨fun hconf answer' heq => ?_, fun hall hp => ?_⟩
  · obtain ⟨hp, heq⟩ := Option.ite_none_right_eq_some.mp heq
    cases heq
    exact hconf hp
  · exact hall answer (if_pos hp)

theorem setRootCaCert_spec (w : TlsSocketWrapper) (alloc : Bool) (parse : ℤ)
    (answer : ConfigAnswer) :
    (w.setRootCaCert alloc parse answer).session = w.session ∧
      ((w.setRootCaCert alloc parse answer).nullConf = false ↔ w.nullConf = false ∧
        (alloc = true ∧ parse = 0 → w.Configured answer)) := by
  dsimp only [setRootCaCert]
  split
  · next halloc => exact ⟨rfl, by simp [ret, halloc]⟩
  · split
    · next hparse => exact ⟨rfl, by simp [ret, hparse]⟩
    · next halloc hparse =>
        obtain ⟨hsession, hnull⟩ :=
          setCaChain_spec { w with certs := w.certs.alloc } (some w.certs.fresh) answer
        rw [Bool.not_eq_false] at halloc
        rw [forall_prop_of_true ⟨halloc, not_not.mp hparse⟩]
        exact ⟨hsession, hnull⟩

theorem setClientCertKey_spec (w : TlsSocketWrapper) (alloc : Bool) (parse key : ℤ)
    (answer : ConfigAnswer) (rc : ℤ) :
    (w.setClientCertKey alloc parse key answer rc).session = w.session ∧
      ((w.setClientCertKey alloc parse key answer rc).nullConf = false ↔ w.nullConf = false ∧
        (alloc = true ∧ parse = 0 ∧ key = 0 → w.Configured answer)) := by
  dsimp only [setClientCertKey]
  split
  · next halloc => exact ⟨rfl, by simp [ret, halloc]⟩
  · split
    · next hparse => exact ⟨rfl, by simp [ret, hparse]⟩
    · split
      · next hkey => exact ⟨rfl, by simp [ret, hkey]⟩
      · next halloc hparse hkey =>
          obtain ⟨hsession, hnull⟩ :=
            setOwnCert_some { w with certs := w.certs.alloc } w.certs.fresh answer rc
          rw [Bool.not_eq_false] at halloc
          rw [forall_prop_of_true ⟨halloc, not_not.mp hparse, not_not.mp hkey⟩]
          exact ⟨hsession, hnull⟩

theorem act_nullConf_iff (h : w.session.Sound) (a : Op) :
    (w.act a).nullConf = false ↔
      w.nullConf = false ∧ ∀ answer, a.configures w = some answer → w.Configured answer := by
  cases a with
  | setHostname | getOwnCert | getCaChain | getSslContext | accept | listen =>
      exact conf_iff_of_none rfl rfl
  | setRootCaCert alloc parse answer =>
      exact conf_iff_of_ite rfl (setRootCaCert_spec w alloc parse answer).2
  | setClientCertKey alloc parse key answer rc =>
      exact conf_iff_of_ite rfl (setClientCertKey_spec w alloc parse key answer rc).2
  | setOwnCert crt answer rc =>
      cases crt with
      | none => exact conf_iff_of_none rfl (setOwnCert_none w answer rc).2.1
      | some crt =>
          refine conf_iff_of_ite (p := True) rfl ?_
          rw [true_imp_iff]
          exact (setOwnCert_some w crt answer rc).2
  | setCaChain crt answer =>
      refine conf_iff_of_ite (p := True) rfl ?_
      rw [true_imp_iff]
      exact (setCaChain_spec w crt answer).2
  | setSslConfig conf => exact conf_iff_of_none rfl (setSslConfig_frame w conf).2.1
  | setTimeout timeout => exact conf_iff_of_none rfl (setTimeout_spec h timeout).1
  | setBlocking blocking => exact conf_iff_of_none rfl (setTimeout_spec h _).1
  | getSslConfig answer => exact conf_iff_of_none rfl (getSslConfig_frame w answer).2
  | connect rc answer =>
      refine conf_iff_of_ite rfl ((connect_spec h rc answer).2.trans (and_congr_right fun _ => ?_))
      simp only [and_imp]
  | send answer rc | sendto answer rc | recv answer rc =>
      exact conf_iff_of_none rfl (transfer_spec h _ answer rc).2
  | recvfrom address peer answer rc =>
      exact conf_iff_of_none rfl (recvfrom_spec h address peer answer rc).2
  | bind rc | setsockopt rc | getsockopt rc => exact conf_iff_of_none rfl (forward_spec w rc).2
  | getpeername rc => exact conf_iff_of_none rfl (getpeername_spec h rc).2
  | close notify rc => exact conf_iff_of_none rfl (close_spec h notify rc).2
  | destroy answer =>
      refine conf_iff_of_ite (p := True) rfl ?_
      rw [true_imp_iff]
      exact (destroy_spec h answer).2

/-- Every operation but a timeout keeps the invariant. -/
theorem act_sound (h : w.session.Sound) {a : Op} (ha : a.timeout = none) :
    (w.act a).session.Sound := by
  cases a with
  | setHostname | getOwnCert | getCaChain | getSslContext | accept | listen => exact h
  | setRootCaCert alloc parse answer => exact (setRootCaCert_spec w alloc parse answer).1 ▸ h
  | setClientCertKey alloc parse key answer rc =>
      exact (setClientCertKey_spec w alloc parse key answer rc).1 ▸ h
  | setOwnCert crt answer rc =>
      cases crt with
      | none => exact (setOwnCert_none w answer rc).1 ▸ h
      | some crt => exact (setOwnCert_some w crt answer rc).1 ▸ h
  | setCaChain crt answer => exact (setCaChain_spec w crt answer).1 ▸ h
  | setSslConfig conf => exact (setSslConfig_frame w conf).1 ▸ h
  | setTimeout timeout => cases ha
  | setBlocking blocking => cases ha
  | getSslConfig answer => exact (getSslConfig_frame w answer).1 ▸ h
  | connect rc answer => exact (connect_spec h rc answer).1
  | send answer rc | sendto answer rc | recv answer rc => exact (transfer_spec h _ answer rc).1
  | recvfrom address peer answer rc => exact (recvfrom_spec h address peer answer rc).1
  | bind rc | setsockopt rc | getsockopt rc => exact (forward_spec w rc).1 ▸ h
  | getpeername rc => exact (getpeername_spec h rc).1 ▸ h
  | close notify rc => exact (close_spec h notify rc).1
  | destroy answer => exact (destroy_spec h answer).1

theorem act_eq_setTimeout {a : Op} {timeout : ℤ} (ha : a.timeout = some timeout) :
    w.act a = w.setTimeout timeout := by
  cases a <;> cases ha <;> rfl

theorem act_sound_iff (h : w.session.Sound) (a : Op) :
    (w.act a).session.Sound ↔ ∀ timeout, a.timeout = some timeout → w.transport = false →
      w.connectTransport = true → w.tlsInitialized = false → timeout = -1 := by
  cases ha : a.timeout with
  | none => exact iff_of_true (act_sound h ha) nofun
  | some timeout =>
      rw [act_eq_setTimeout ha, (setTimeout_spec h timeout).2]
      simp

theorem transfer_closed (hclosed : w.transport = false) (translate : ℤ → ℤ)
    (answer : HandshakeAnswer) (rc : ℤ) :
    (w.transfer translate answer rc).result = some nsapiErrorNoSocket := by
  rw [transfer, if_pos hclosed]
  rfl

theorem forward_closed (hclosed : w.transport = false) (rc : ℤ) :
    (w.forward rc).result = some nsapiErrorNoSocket := by
  rw [forward, if_pos hclosed]
  rfl

theorem getpeername_closed (h : w.session.Sound) (hclosed : w.transport = false) (rc : ℤ) :
    w.getpeername rc = w.ret nsapiErrorNoConnection := by
  rw [getpeername, if_pos]
  by_contra hcompleted
  rw [Bool.not_eq_false] at hcompleted
  cases (h.transport hcompleted).symm.trans hclosed

theorem recvfrom_closed (h : w.session.Sound) (hclosed : w.transport = false) (address : Bool)
    (peer : ℤ) (answer : HandshakeAnswer) (rc : ℤ) :
    (w.recvfrom address peer answer rc).result = some nsapiErrorNoSocket := by
  dsimp only [recvfrom]
  split
  · rw [getpeername_closed h hclosed]
    exact transfer_closed (w := w.ret _) hclosed _ answer rc
  · exact transfer_closed hclosed _ answer rc

/-- An operation that is no setter fails without a transport. -/
theorem act_closed (h : w.session.Sound) {a : Op} (hclosed : w.transport = false)
    (ha : a.setter = false) {r : ℤ} (hr : (w.act a).result = some r) : r < 0 := by
  have herror : ∀ error, (w.act a).result = some error → error < 0 → r < 0 := by
    intro error heq hneg
    cases heq.symm.trans hr
    exact hneg
  cases a with
  | setHostname | setRootCaCert | setClientCertKey | setOwnCert | setCaChain | setSslConfig
  | setTimeout | setBlocking => cases ha
  | getOwnCert | getCaChain | getSslContext | getSslConfig | destroy => cases hr
  | accept | listen => exact herror nsapiErrorUnsupported rfl (by decide)
  | connect rc answer =>
      refine herror nsapiErrorNoSocket ?_ (by decide)
      dsimp only [act, connect]
      rw [if_pos hclosed]
      rfl
  | send answer rc | sendto answer rc | recv answer rc =>
      exact herror nsapiErrorNoSocket (transfer_closed hclosed _ answer rc) (by decide)
  | recvfrom address peer answer rc =>
      exact herror nsapiErrorNoSocket (recvfrom_closed h hclosed address peer answer rc) (by decide)
  | bind rc | setsockopt rc | getsockopt rc =>
      exact herror nsapiErrorNoSocket (forward_closed hclosed rc) (by decide)
  | getpeername rc =>
      refine herror nsapiErrorNoConnection ?_ (by decide)
      dsimp only [act]
      rw [getpeername_closed h hclosed]
      rfl
  | close notify rc =>
      refine herror nsapiErrorNoSocket ?_ (by decide)
      dsimp only [act, close]
      rw [if_pos hclosed]
      rfl

/-- From a sound state, an operation is safe exactly if it is guarded. -/
theorem safe_act_iff (h : w.session.Sound) (hnull : w.nullConf = false) (a : Op) :
    Safe w a (w.act a) ↔ Guarded w a := by
  constructor
  · intro hsafe
    refine ⟨(act_sound_iff h a).mp ?_, ((act_nullConf_iff h a).mp hsafe.conf).2⟩
    cases ha : a.timeout with
    | none => exact act_sound h ha
    | some timeout =>
        have hkept := hsafe.transport
        rw [act_eq_setTimeout ha] at hkept ⊢
        exact sound_setTimeout h hkept
  · intro hguarded
    have hsound := (act_sound_iff h a).mpr hguarded.timeout
    exact ⟨hsound.nullTransport, (act_nullConf_iff h a).mpr ⟨hnull, hguarded.conf⟩, hsound.early,
      fun hclosed ha _ hr => act_closed h hclosed ha hr⟩

theorem step_eq_some {a : Op} (hs : w.step a = some t) : w.destroyed = false ∧ t = w.act a := by
  obtain ⟨henabled, hs⟩ := Option.ite_none_left_eq_some.mp hs
  obtain ⟨hlive, -⟩ := not_or.mp henabled
  cases hs
  exact ⟨Bool.eq_false_iff.mpr hlive, rfl⟩

/-- Whatever is called in whatever order, with or without a transport: no null transport or
configuration is used, data is only passed through a connection, and the calls on a closed wrapper
fail, exactly if no timeout is set while a transport to be connected is missing, and Mbed TLS is
only configured where there is a configuration or one can be had. -/
theorem safe_iff_guarded (transport : Bool) (control : ControlTransport) (ops : List Op) :
    Steps step Safe (new transport control) ops ↔ Meets step Guarded (new transport control) ops := by
  apply steps_iff_meets fun w => w.session.Sound ∧ w.nullConf = false
  · rintro w a t ⟨h, hnull⟩ hok hs
    obtain ⟨-, rfl⟩ := step_eq_some hs
    exact ⟨(act_sound_iff h a).mpr hok.timeout, (act_nullConf_iff h a).mpr ⟨hnull, hok.conf⟩⟩
  · rintro w a t ⟨h, hnull⟩ hok hs
    obtain ⟨-, rfl⟩ := step_eq_some hs
    exact (safe_act_iff h hnull a).mpr hok
  · rintro w a t ⟨h, hnull⟩ hs hbad hsafe
    obtain ⟨-, rfl⟩ := step_eq_some hs
    exact hbad ((safe_act_iff h hnull a).mp hsafe)
  · exact ⟨sound_new transport control, rfl⟩

/-- A timeout on a wrapper that has been closed before its first connection. -/
theorem closedTimeout_not_safe :
    ¬ ∀ transport control ops, Steps step Safe (new transport control) ops := by
  intro h
  have htimeout := ((h true .connectAndClose [.close 0 0, .setTimeout 1] _ rfl).2 _ rfl).1
  cases htimeout.transport

end OpenIotSdk.Netsocket.TlsSocketWrapper
