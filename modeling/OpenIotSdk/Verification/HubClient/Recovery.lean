import OpenIotSdk.Library.Transition
import OpenIotSdk.Model.Azure.HubClient
import Mathlib.Tactic.IntervalCases

/-! # The recovery of the connection

The delays of `sample_connection_monitor` double up to their maximum. The client is there for the
application thread and for the sample threads as long as it is not deinitialised under them, and as
long as the status tells whether it is initialised. -/

namespace OpenIotSdk.HubClient

open Transition

variable {s t : State} {a : Action}

/-! ## The specification -/

/-- The delay after `retries` others. -/
def delay (retries : ℕ) : ℕ := min (3 * 2 ^ retries) 600

/-- The delays since the last reset, and a counter that stops before it shifts too far. -/
structure Backoff (s : State) : Prop where
  count : s.exponentialRetryCount.toNat = min s.waits.length 8
  waits : s.waits = (List.range s.waits.length).map delay

def Pc.initializes : Pc → Bool
  | .reinit | .initializeIothub _ .clientInit => true
  | _ => false

/-- The thread has a message, or is about to create one. -/
def TelemetryPc.busy : TelemetryPc → Bool
  | .look | .ended => false
  | _ => true

def CloudPc.busy : CloudPc → Bool
  | .look => false
  | _ => true

/-- The client is initialised unless it is going to be, also for the sample threads. -/
structure Ready (s : State) : Prop where
  application : s.initialized = !s.pc.initializes
  telemetry : s.samples.telemetry.busy = true → s.initialized = true
  cloud : s.samples.cloud.busy = true → s.initialized = true

/-- Neither sample thread is between two looks at the status. -/
def AtRest (s : Samples) : Prop := s.telemetry.busy = false ∧ s.cloud.busy = false

/-- The first initialisation succeeds, only a client that is not initialised is reported so, and
the sample threads find neither a client that is not initialised nor lose one. -/
def Truthful (s : State) : Action → Prop
  | .application answer =>
      match s.pc with
      | .initializeIothub first .clientInit => first = true → answer = .success
      | .initializeIothub first .clientDeinit => first = false ∧ AtRest s.samples
      | .deinit => AtRest s.samples
      | .monitor => s.sampleConnectionStatus ≠ .notInitialized
      | .connect => answer ≠ .notInitialized
      | _ => True
  | .telemetry _ =>
      s.samples.telemetry = .look → s.samples.messageId < 6 →
        s.sampleConnectionStatus = .success → s.initialized = true
  | .cloud _ =>
      s.samples.cloud = .look → s.sampleConnectionStatus = .success → s.initialized = true
  | .callback _ => True

/-! ## The delays -/

theorem backoffDelay_toNat {count : BitVec 32} (h : count.toNat ≤ 8) :
    (backoffDelay count).toNat = 3 * 2 ^ count.toNat := by
  obtain ⟨n, hn, rfl⟩ : ∃ n ≤ 8, count = BitVec.ofNat 32 n := ⟨count.toNat, h, by simp⟩
  clear h
  interval_cases n <;> rfl

/-- Nothing else than the sleeps and the reset changes the delays. -/
def SameDelays (s t : State) : Prop :=
  t.waits = s.waits ∧ t.exponentialRetryCount = s.exponentialRetryCount

theorem recover_sameDelays (s : State) (status : Status) : SameDelays s (s.recover status) := by
  cases status <;> exact ⟨rfl, rfl⟩

theorem initReturns_sameDelays (s : State) (first ok : Bool) :
    SameDelays s (s.initReturns first ok) := by
  cases first <;> cases ok <;> exact ⟨rfl, rfl⟩

theorem initializeIothub_sameDelays (s : State) (first : Bool) (call : InitCall)
    (answer : Status) : SameDelays s (s.initializeIothub first call answer) := by
  cases call with
  | clientDeinit => exact initReturns_sameDelays { s with initialized := false } first false
  | clientInit =>
      by_cases hok : answer = .success
      · simp only [State.initializeIothub, hok, if_true]
        exact ⟨rfl, rfl⟩
      · simp only [State.initializeIothub, hok, if_false]
        exact initReturns_sameDelays s first false
  | cloudMessageEnable =>
      by_cases hok : answer = .success
      · simp only [State.initializeIothub, hok, if_true]
        exact initReturns_sameDelays s first true
      · simp only [State.initializeIothub, hok, if_false]
        exact ⟨rfl, rfl⟩
  | trustedCertAdd2 | trustedCertAdd3 | symmetricKeySet | connectionStatusCallbackSet =>
      by_cases hok : answer = .success <;> simp only [State.initializeIothub, hok, if_true, if_false]
        <;> exact ⟨rfl, rfl⟩

theorem Backoff.congr (h : Backoff s) (hsame : SameDelays s t) : Backoff t := by
  obtain ⟨hwaits, hcount⟩ := hsame
  constructor
  · rw [hcount, hwaits]
    exact h.count
  · rw [hwaits]
    exact h.waits

theorem Backoff.exponentialBackoff (h : Backoff s) : Backoff s.exponentialBackoff := by
  have hcount := h.count
  have hle : s.exponentialRetryCount.toNat ≤ 8 := by omega
  have hdelay := backoffDelay_toNat hle
  have happend {d : ℕ} (hd : d = delay s.waits.length) :
      s.waits ++ [d] = (List.range (s.waits ++ [d]).length).map delay := by
    rw [List.length_append, List.length_singleton, List.range_succ, List.map_append, ← h.waits, hd]
    rfl
  by_cases hmax : maxExponentialBackoffInSec < backoffDelay s.exponentialRetryCount
  · simp only [State.exponentialBackoff, if_pos hmax]
    -- The maximum is passed at the ninth delay.
    have hlt : 600 < 3 * 2 ^ s.exponentialRetryCount.toNat := hdelay ▸ BitVec.lt_def.mp hmax
    have height : 8 ≤ s.waits.length := by
      by_contra hlen
      rw [hcount, min_eq_left (by omega)] at hlt
      have hpow : 2 ^ s.waits.length ≤ 2 ^ 7 := Nat.pow_le_pow_right (by decide) (by omega)
      omega
    refine ⟨?_, happend ?_⟩
    · simp only [List.length_append, List.length_singleton]
      omega
    · have hpow : 2 ^ 8 ≤ 2 ^ s.waits.length := Nat.pow_le_pow_right (by decide) height
      have hmin : min (3 * 2 ^ s.waits.length) 600 = 600 := min_eq_right (by omega)
      exact hmin.symm
  · simp only [State.exponentialBackoff, if_neg hmax]
    have hge : 3 * 2 ^ s.exponentialRetryCount.toNat ≤ 600 :=
      hdelay ▸ BitVec.not_lt.mp hmax
    have hlt : s.exponentialRetryCount.toNat < 8 := by
      by_contra hlen
      have hpow : 2 ^ 8 ≤ 2 ^ s.exponentialRetryCount.toNat :=
        Nat.pow_le_pow_right (by decide) (by omega)
      omega
    have hlen : s.exponentialRetryCount.toNat = s.waits.length := by omega
    refine ⟨?_, happend ?_⟩
    · have hsucc : (s.exponentialRetryCount + 1).toNat = s.exponentialRetryCount.toNat + 1 :=
        BitVec.toNat_add_of_lt (by simp; omega)
      simp only [List.length_append, List.length_singleton, hsucc]
      omega
    · rw [hdelay, hlen]
      rw [hlen] at hge
      exact (min_eq_left hge).symm

theorem Backoff.application (h : Backoff s) (answer : Status) : Backoff (s.application answer) := by
  unfold State.application
  split
  · exact h.congr (initializeIothub_sameDelays s _ _ answer)
  · exact h.congr ⟨rfl, rfl⟩
  · unfold State.connectionMonitor
    split
    · exact ⟨rfl, rfl⟩
    · exact h.congr (recover_sameDelays s _)
    · exact h.congr ⟨rfl, rfl⟩
  · exact h.congr (recover_sameDelays s _)
  · exact h.congr ⟨rfl, rfl⟩
  · split
    · have hcounted : Backoff { s with iothubInitCount := s.iothubInitCount + 1 } :=
        h.congr ⟨rfl, rfl⟩
      exact hcounted.exponentialBackoff.congr ⟨rfl, rfl⟩
    · exact h.congr ⟨rfl, rfl⟩
  · exact h.exponentialBackoff.congr ⟨rfl, rfl⟩
  · split
    · exact h.congr ⟨rfl, rfl⟩
    · exact h
  · exact h.congr (recover_sameDelays s answer)
  · exact h.congr ⟨rfl, rfl⟩

theorem Backoff.step (h : Backoff s) (ht : step s a = some t) : Backoff t := by
  cases a with
  | application answer =>
      cases ht
      exact h.application answer
  | telemetry answer =>
      obtain ⟨-, ht⟩ := Option.ite_none_right_eq_some.mp ht
      obtain ⟨samples, -, rfl⟩ := Option.map_eq_some_iff.mp ht
      exact h.congr ⟨rfl, rfl⟩
  | cloud answer =>
      obtain ⟨-, ht⟩ := Option.ite_none_right_eq_some.mp ht
      cases ht
      exact h.congr ⟨rfl, rfl⟩
  | callback status =>
      cases ht
      exact h.congr ⟨rfl, rfl⟩

/-- In every order of the steps, the delays since the last reset are 3 seconds and then always
twice as long, up to 10 minutes. -/
theorem backoff_always (acts : List Action) : Always step Backoff init acts :=
  .of_inductive Backoff (fun _ _ _ h ht => h.step ht) (fun _ h => h) ⟨rfl, rfl⟩ acts

/-! ## The client -/

@[simp] theorem exponentialBackoff_initialized (s : State) :
    s.exponentialBackoff.initialized = s.initialized := by
  rw [State.exponentialBackoff]
  split <;> rfl

@[simp] theorem exponentialBackoff_samples (s : State) :
    s.exponentialBackoff.samples = s.samples := by
  rw [State.exponentialBackoff]
  split <;> rfl

@[simp] theorem recover_initialized (s : State) (status : Status) :
    (s.recover status).initialized = s.initialized := by
  cases status <;> rfl

@[simp] theorem recover_samples (s : State) (status : Status) :
    (s.recover status).samples = s.samples := by
  cases status <;> rfl

/-- Only a client that is reported not to be initialised is going to be. -/
@[simp] theorem recover_initializes (s : State) (status : Status) :
    (s.recover status).pc.initializes = decide (status = .notInitialized) := by
  cases status <;> rfl

@[simp] theorem initReturns_initialized (s : State) (first ok : Bool) :
    (s.initReturns first ok).initialized = s.initialized := by
  cases first <;> cases ok <;> rfl

@[simp] theorem initReturns_samples (s : State) (first ok : Bool) :
    (s.initReturns first ok).samples = s.samples := by
  cases first <;> cases ok <;> rfl

@[simp] theorem initReturns_initializes (s : State) (first ok : Bool) :
    (s.initReturns first ok).pc.initializes = (!first && !ok) := by
  cases first <;> cases ok <;> rfl

theorem application_samples (s : State) (answer : Status) :
    (s.application answer).samples = s.samples := by
  unfold State.application State.initializeIothub State.connectionMonitor
  repeat' split
  all_goals simp [State.goto, State.exponentialBackoffReset]

/-- The client is lost to sample threads at rest only. -/
theorem Ready.of_application (h : Ready s) {answer : Status}
    (happ : (s.application answer).initialized = !(s.application answer).pc.initializes)
    (hkeep : AtRest s.samples ∨ (s.initialized = true → (s.application answer).initialized = true)) :
    Ready (s.application answer) := by
  refine ⟨happ, fun hbusy => ?_, fun hbusy => ?_⟩
  · rw [application_samples] at hbusy
    rcases hkeep with ⟨hrest, -⟩ | hkeep
    · rw [hbusy] at hrest
      cases hrest
    · exact hkeep (h.telemetry hbusy)
  · rw [application_samples] at hbusy
    rcases hkeep with ⟨-, hrest⟩ | hkeep
    · rw [hbusy] at hrest
      cases hrest
    · exact hkeep (h.cloud hbusy)

/-- In between, `initialize_iothub` neither initialises the client nor gives it up. -/
theorem initializeIothub_between (s : State) (first : Bool) {call : InitCall} (answer : Status)
    (hinit : call ≠ .clientInit) (hdeinit : call ≠ .clientDeinit) :
    (s.initializeIothub first call answer).initialized = s.initialized ∧
      (s.initializeIothub first call answer).pc.initializes = false := by
  cases call with
  | clientInit => exact absurd rfl hinit
  | clientDeinit => exact absurd rfl hdeinit
  | cloudMessageEnable =>
      by_cases hanswer : answer = .success
      · simp [State.initializeIothub, InitCall.next, hanswer]
      · simp only [State.initializeIothub, if_neg hanswer]
        exact ⟨rfl, rfl⟩
  | trustedCertAdd2 | trustedCertAdd3 | symmetricKeySet | connectionStatusCallbackSet =>
      by_cases hanswer : answer = .success
      · simp only [State.initializeIothub, InitCall.next, if_pos hanswer]
        exact ⟨rfl, rfl⟩
      · simp only [State.initializeIothub, if_neg hanswer]
        exact ⟨rfl, rfl⟩

theorem Ready.initializeIothub (h : Ready s) {first : Bool} {call : InitCall} {answer : Status}
    (hpc : s.pc = .initializeIothub first call) (hok : Truthful s (.application answer)) :
    Ready (s.application answer) := by
  have hstep : s.application answer = s.initializeIothub first call answer := by
    simp only [State.application, hpc]
  have hinit : s.initialized = !(Pc.initializeIothub first call).initializes := hpc ▸ h.application
  have hbetween := @initializeIothub_between s first call answer
  rw [← hstep] at hbetween
  simp only [Truthful, hpc] at hok
  cases call with
  | clientInit =>
      refine h.of_application ?_ (.inr fun htrue => absurd (hinit.symm.trans htrue) nofun)
      rw [hstep]
      by_cases hanswer : answer = .success
      · simp only [State.initializeIothub, if_pos hanswer]
        rfl
      · have hfirst : first = false := Bool.eq_false_iff.mpr fun htrue => hanswer (hok htrue)
        simp only [State.initializeIothub, if_neg hanswer, initReturns_initialized,
          initReturns_initializes, hfirst]
        exact hinit
  | clientDeinit =>
      obtain ⟨rfl, hrest⟩ := hok
      refine h.of_application ?_ (.inl hrest)
      rw [hstep]
      simp [State.initializeIothub]
  | trustedCertAdd2 | trustedCertAdd3 | symmetricKeySet | connectionStatusCallbackSet
  | cloudMessageEnable =>
      obtain ⟨hsame, hnot⟩ := hbetween nofun nofun
      refine h.of_application ?_ (.inr fun htrue => hsame.trans htrue)
      rw [hsame, hnot]
      exact hinit

theorem Ready.step_application (h : Ready s) (hne : s.pc ≠ .disconnect .notInitialized)
    {answer : Status} (hok : Truthful s (.application answer)) : Ready (s.application answer) := by
  have hinit := h.application
  -- Most calls keep the client, and are not followed by its initialisation.
  have hkept (hnot : s.pc.initializes = false)
      (hsame : (s.application answer).initialized = s.initialized)
      (hnext : (s.application answer).pc.initializes = false) : Ready (s.application answer) := by
    refine h.of_application ?_ (.inr fun htrue => hsame.trans htrue)
    rw [hsame, hnext, hinit, hnot]
  cases hpc : s.pc with
  | initializeIothub first call => exact h.initializeIothub hpc hok
  | deinit =>
      simp only [Truthful, hpc] at hok
      refine h.of_application ?_ (.inl hok)
      simp only [State.application, hpc]
      rfl
  | monitor =>
      simp only [Truthful, hpc] at hok
      have hstep : s.application answer = s.connectionMonitor := by
        simp only [State.application, hpc]
      refine hkept (by rw [hpc]; rfl) ?_ ?_ <;> rw [hstep, State.connectionMonitor] <;> split
      · rfl
      · rfl
      · rfl
      · rfl
      · next heq => exact absurd heq hok
      · rfl
  | connect =>
      simp only [Truthful, hpc] at hok
      have hstep : s.application answer = s.recover answer := by simp only [State.application, hpc]
      exact hkept (by rw [hpc]; rfl) (by simp [hstep]) (by simp [hstep, hok])
  | disconnect status =>
      have hok : status ≠ .notInitialized := fun heq => hne (heq ▸ hpc)
      have hstep : s.application answer = s.recover status := by simp only [State.application, hpc]
      exact hkept (by rw [hpc]; rfl) (by simp [hstep]) (by simp [hstep, hok])
  | reinit =>
      have hnot : s.initialized = false := by
        rw [hinit, hpc]
        rfl
      refine h.of_application ?_ (.inr fun htrue => absurd (hnot.symm.trans htrue) nofun)
      simp only [State.application, hpc]
      split
      · exact (exponentialBackoff_initialized _).trans hnot
      · exact hnot
  | backoff =>
      have hstep : s.application answer = s.exponentialBackoff.goto .gateway := by
        simp only [State.application, hpc]
      refine hkept (by rw [hpc]; rfl) ?_ ?_ <;> rw [hstep]
      · exact exponentialBackoff_initialized s
      · rfl
  | firstConnect | sleep =>
      refine hkept (by rw [hpc]; rfl) ?_ ?_ <;> simp only [State.application, hpc] <;> rfl
  | gateway =>
      have hnot : s.pc.initializes = false := by
        rw [hpc]
        rfl
      refine hkept hnot ?_ ?_ <;> simp only [State.application, hpc] <;> split
      · rfl
      · rfl
      · rfl
      · exact hnot

/-! ## Every order of steps -/

/-- A client that is going to be initialised is not disconnected. -/
structure Inv (s : State) : Prop where
  ready : Ready s
  disconnect : s.pc ≠ .disconnect .notInitialized

theorem recover_pc (s : State) (status after : Status) :
    (s.recover status).pc ≠ .disconnect after := by
  cases status <;> nofun

theorem initReturns_pc (s : State) (first ok : Bool) (status : Status) :
    (s.initReturns first ok).pc ≠ .disconnect status := by
  cases first <;> cases ok <;> nofun

theorem application_pc (s : State) (answer : Status) (h : s.pc ≠ .disconnect .notInitialized) :
    (s.application answer).pc ≠ .disconnect .notInitialized := by
  unfold State.application
  split
  · unfold State.initializeIothub
    repeat' split
    all_goals first | exact initReturns_pc _ _ _ _ | nofun
  · nofun
  · unfold State.connectionMonitor
    split
    · nofun
    · exact recover_pc s _ _
    · next hne => exact fun heq => hne (Pc.disconnect.inj heq)
  · exact recover_pc s _ _
  · nofun
  · nofun
  · nofun
  · split
    · nofun
    · exact h
  · exact recover_pc s _ _
  · nofun

/-- A telemetry thread that becomes busy has found the status to be success. -/
theorem telemetryThread_cases {s t : Samples} {status answer : Status}
    (ht : s.telemetryThread status answer = some t) :
    t.cloud = s.cloud ∧ (t.telemetry.busy = true → s.telemetry.busy = true ∨
      s.telemetry = .look ∧ s.messageId < 6 ∧ status = .success) := by
  unfold Samples.telemetryThread at ht
  split at ht
  case h_1 hlook =>
    cases ht
    split
    · next hid =>
        split
        · next hsuccess => exact ⟨rfl, fun _ => .inr ⟨hlook, hid, hsuccess⟩⟩
        · exact ⟨rfl, .inl⟩
    · exact ⟨rfl, nofun⟩
  case h_2 hpc =>
    cases ht
    refine ⟨by split <;> rfl, fun _ => .inl ?_⟩
    rw [hpc]
    rfl
  case h_5 hpc =>
    cases ht
    refine ⟨by split <;> rfl, fun _ => .inl ?_⟩
    rw [hpc]
    rfl
  case h_6 => cases ht
  all_goals
    next hpc =>
      cases ht
      refine ⟨rfl, fun _ => .inl ?_⟩
      rw [hpc]
      rfl

theorem cloudToDeviceThread_cases (s : Samples) (status answer : Status) :
    (s.cloudToDeviceThread status answer).telemetry = s.telemetry ∧
      ((s.cloudToDeviceThread status answer).cloud.busy = true → s.cloud.busy = true ∨
        s.cloud = .look ∧ status = .success) := by
  unfold Samples.cloudToDeviceThread
  split
  case h_1 hlook =>
    split
    · next hsuccess => exact ⟨rfl, fun _ => .inr ⟨hlook, hsuccess⟩⟩
    · exact ⟨rfl, .inl⟩
  case h_2 hpc =>
    refine ⟨by split <;> rfl, fun _ => .inl ?_⟩
    rw [hpc]
    rfl
  all_goals
    next hpc =>
      refine ⟨rfl, fun _ => .inl ?_⟩
      rw [hpc]
      rfl

theorem inv_init : Inv init := ⟨⟨rfl, nofun, nofun⟩, nofun⟩

theorem Inv.step (h : Inv s) (hok : Truthful s a) (ht : step s a = some t) : Inv t := by
  cases a with
  | application answer =>
      cases ht
      exact ⟨h.ready.step_application h.disconnect hok, application_pc s answer h.disconnect⟩
  | telemetry answer =>
      obtain ⟨-, ht⟩ := Option.ite_none_right_eq_some.mp ht
      obtain ⟨samples, hsamples, rfl⟩ := Option.map_eq_some_iff.mp ht
      obtain ⟨hcloud, hbusy⟩ := telemetryThread_cases hsamples
      refine ⟨⟨h.ready.application, fun hb => ?_, fun hb => h.ready.cloud (hcloud ▸ hb)⟩,
        h.disconnect⟩
      rcases hbusy hb with hb | ⟨hlook, hid, hsuccess⟩
      · exact h.ready.telemetry hb
      · exact hok hlook hid hsuccess
  | cloud answer =>
      obtain ⟨-, ht⟩ := Option.ite_none_right_eq_some.mp ht
      cases ht
      obtain ⟨htelemetry, hbusy⟩ :=
        cloudToDeviceThread_cases s.samples s.sampleConnectionStatus answer
      refine ⟨⟨h.ready.application, fun hb => h.ready.telemetry (htelemetry ▸ hb), fun hb => ?_⟩,
        h.disconnect⟩
      rcases hbusy hb with hb | ⟨hlook, hsuccess⟩
      · exact h.ready.cloud hb
      · exact hok hlook hsuccess
  | callback status =>
      cases ht
      exact ⟨⟨h.ready.application, h.ready.telemetry, h.ready.cloud⟩, h.disconnect⟩

theorem Ready.atRest (h : Ready s) (hnot : s.initialized = false) : AtRest s.samples := by
  constructor <;> refine Bool.eq_false_iff.mpr fun hbusy => ?_
  · exact nomatch hnot.symm.trans (h.telemetry hbusy)
  · exact nomatch hnot.symm.trans (h.cloud hbusy)

theorem truthful_of_application (h : Inv s) {answer : Status}
    (hready : Ready (s.application answer)) : Truthful s (.application answer) := by
  have hafter := hready.application
  have hinit := h.ready.application
  unfold Truthful
  cases hpc : s.pc with
  | initializeIothub first call =>
      have hstep : s.application answer = s.initializeIothub first call answer := by
        simp only [State.application, hpc]
      cases call with
      | clientInit =>
          rintro rfl
          by_contra hanswer
          rw [hstep, State.initializeIothub, if_neg hanswer, initReturns_initialized,
            initReturns_initializes, hinit, hpc] at hafter
          cases hafter
      | clientDeinit =>
          rw [hstep, State.initializeIothub] at hready
          have hafter := hready.application
          rw [initReturns_initialized, initReturns_initializes] at hafter
          exact ⟨by simpa using hafter, by simpa using hready.atRest (initReturns_initialized ..)⟩
      | _ => trivial
  | deinit =>
      have hnot : (s.application answer).initialized = false := by
        simp only [State.application, hpc]
        rfl
      exact application_samples s answer ▸ hready.atRest hnot
  | monitor =>
      intro hstatus
      have hstep : s.application answer = s.recover .notInitialized := by
        simp only [State.application, hpc, State.connectionMonitor, hstatus]
      rw [hstep, recover_initialized, recover_initializes, hinit, hpc] at hafter
      cases hafter
  | connect =>
      rintro rfl
      have hstep : s.application .notInitialized = s.recover .notInitialized := by
        simp only [State.application, hpc]
      rw [hstep, recover_initialized, recover_initializes, hinit, hpc] at hafter
      cases hafter
  | _ => trivial

theorem truthful_of_ready (h : Inv s) (ht : step s a = some t) (hready : Ready t) :
    Truthful s a := by
  cases a with
  | application answer =>
      cases ht
      exact truthful_of_application h hready
  | telemetry answer =>
      intro hlook hid hsuccess
      obtain ⟨-, ht⟩ := Option.ite_none_right_eq_some.mp ht
      simp only [Samples.telemetryThread, hlook, if_pos hid, if_pos hsuccess] at ht
      cases ht
      exact hready.telemetry rfl
  | cloud answer =>
      intro hlook hsuccess
      obtain ⟨-, ht⟩ := Option.ite_none_right_eq_some.mp ht
      simp only [Samples.cloudToDeviceThread, hlook, if_pos hsuccess] at ht
      cases ht
      exact hready.cloud rfl
  | callback status => trivial

/-- In every order of the steps, the client is there for all threads exactly as long as what they
are told about it is true and nobody deinitialises it under the sample threads. -/
theorem ready_always_iff (acts : List Action) :
    Always step Ready init acts ↔ Meets step Truthful init acts :=
  always_iff_meets Inv (fun _ _ _ h hok ht => h.step hok ht) (fun _ h => h.ready)
    (fun _ _ _ h ht hbad hready => hbad (truthful_of_ready h ht hready)) inv_init acts

end OpenIotSdk.HubClient
