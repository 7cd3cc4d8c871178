import OpenIotSdk.Verification.HubClient.Recovery

/-! # The messages of the sample threads

The telemetry thread tries to send six messages, and neither thread keeps a message. -/

namespace OpenIotSdk.HubClient

open Transition

/-! ## The specification -/

def TelemetryPc.held : TelemetryPc → ℕ
  | .propertyAdd _ | .messageDelete | .send => 1
  | .look | .messageCreate | .ended => 0

def CloudPc.held : CloudPc → ℕ
  | .propertyGet | .packetRelease => 1
  | .look | .messageReceive => 0

/-- Each number is tried once, in the order of the numbers, and no message is lost or given back
twice. -/
structure Messages (s : Samples) : Prop where
  tried : s.tried = (List.range s.messageId.toNat).map telemetryText
  six : s.messageId.toNat ≤ 6
  ended : s.telemetry = .ended → s.messageId.toNat = 6
  fits : ∀ text ∈ s.tried, text.length < 30 -- the size of the buffer
  sent : s.sent.Sublist s.tried
  created : s.created = s.deleted + s.sent.length + s.telemetry.held
  received : s.received = s.released + s.cloud.held

/-! ## Every order of steps -/

def TelemetryPc.trying : TelemetryPc → Bool
  | .messageCreate | .propertyAdd _ | .send => true
  | .look | .messageDelete | .ended => false

structure MessagesInv (s : Samples) : Prop where
  tried : s.tried = (List.range s.messageId.toNat).map telemetryText
  six : s.messageId.toNat ≤ 6
  trying : s.telemetry.trying = true → s.messageId.toNat < 6
  ended : s.telemetry = .ended → s.messageId.toNat = 6
  sent : s.sent.Sublist s.tried
  created : s.created = s.deleted + s.sent.length + s.telemetry.held
  received : s.received = s.released + s.cloud.held

theorem telemetryText_length {i : ℕ} (h : i < 6) : (telemetryText i).length < 30 := by
  interval_cases i <;> decide

theorem MessagesInv.messages {s : Samples} (h : MessagesInv s) : Messages s := by
  refine ⟨h.tried, h.six, h.ended, fun text hmem => ?_, h.sent, h.created, h.received⟩
  rw [h.tried] at hmem
  obtain ⟨i, hi, rfl⟩ := List.mem_map.mp hmem
  exact telemetryText_length ((List.mem_range.mp hi).trans_le h.six)

theorem MessagesInv.telemetry {s t : Samples} {status answer : Status} (h : MessagesInv s)
    (ht : s.telemetryThread status answer = some t) : MessagesInv t := by
  obtain ⟨htried, hsix, htrying, hended, hsent, hcreated, hreceived⟩ := h
  unfold Samples.telemetryThread at ht
  split at ht
  · next hpc =>
      rw [hpc] at hcreated
      cases ht
      split
      · next hid =>
          split
          · exact ⟨htried, hsix, fun _ => BitVec.lt_def.mp hid, nofun, hsent, hcreated, hreceived⟩
          · exact ⟨htried, hsix, htrying, hended, hsent, by rw [hpc]; exact hcreated, hreceived⟩
      · next hid =>
          have hge : 6 ≤ s.messageId.toNat := BitVec.not_lt.mp hid
          exact ⟨htried, hsix, nofun, fun _ => Nat.le_antisymm hsix hge, hsent, hcreated, hreceived⟩
  · next hpc =>
      rw [hpc] at hcreated htrying
      have hlt := htrying rfl
      cases ht
      split
      · exact ⟨htried, hsix, fun _ => hlt, nofun, hsent, congrArg (· + 1) hcreated, hreceived⟩
      · exact ⟨htried, hsix, nofun, nofun, hsent, hcreated, hreceived⟩
  · next hpc =>
      rw [hpc] at hcreated htrying
      have hlt := htrying rfl
      cases ht
      refine ⟨htried, hsix, fun _ => hlt, ?_, hsent, ?_, hreceived⟩
      · dsimp only
        repeat' split
        all_goals nofun
      · dsimp only
        repeat' split
        all_goals exact hcreated
  · next hpc =>
      rw [hpc] at hcreated
      cases ht
      refine ⟨htried, hsix, nofun, nofun, hsent, ?_, hreceived⟩
      simp only [TelemetryPc.held] at hcreated ⊢
      omega
  · next hpc =>
      rw [hpc] at hcreated htrying
      have hlt := htrying rfl
      have hnext : (s.messageId + 1).toNat = s.messageId.toNat + 1 :=
        BitVec.toNat_add_of_lt (by simp; omega)
      have hagain : s.tried ++ [telemetryText s.messageId.toNat] =
          (List.range (s.messageId + 1).toNat).map telemetryText := by
        rw [hnext, List.range_succ, List.map_append, htried]
        rfl
      cases ht
      split
      · refine ⟨hagain, hnext ▸ hlt, nofun, nofun, hsent.append_right _, ?_, hreceived⟩
        simp only [List.length_append, List.length_singleton, TelemetryPc.held] at hcreated ⊢
        omega
      · exact ⟨hagain, hnext ▸ hlt, nofun, nofun, hsent.trans (List.sublist_append_left ..),
          hcreated, hreceived⟩
  · cases ht

theorem MessagesInv.cloud {s : Samples} (h : MessagesInv s) (status answer : Status) :
    MessagesInv (s.cloudToDeviceThread status answer) := by
  obtain ⟨htried, hsix, htrying, hended, hsent, hcreated, hreceived⟩ := h
  have hinv {cloud : CloudPc} {received released : ℕ} (h : received = released + cloud.held) :
      MessagesInv { s with cloud := cloud, received := received, released := released } :=
    ⟨htried, hsix, htrying, hended, hsent, hcreated, h⟩
  unfold Samples.cloudToDeviceThread
  split
  · next hpc =>
      rw [hpc] at hreceived
      split
      · exact hinv hreceived
      · exact ⟨htried, hsix, htrying, hended, hsent, hcreated, by rw [hpc]; exact hreceived⟩
  · next hpc =>
      rw [hpc] at hreceived
      split
      · exact hinv (congrArg (· + 1) hreceived)
      · exact hinv hreceived
  · next hpc =>
      rw [hpc] at hreceived
      exact hinv hreceived
  · next hpc =>
      rw [hpc] at hreceived
      exact hinv hreceived

theorem messagesInv_init : MessagesInv init.samples :=
  ⟨rfl, by decide, nofun, nofun, .slnil, rfl, rfl⟩

theorem MessagesInv.step {s t : State} {a : Action} (h : MessagesInv s.samples)
    (ht : step s a = some t) : MessagesInv t.samples := by
  cases a with
  | application answer =>
      cases ht
      rw [application_samples]
      exact h
  | telemetry answer =>
      obtain ⟨-, ht⟩ := Option.ite_none_right_eq_some.mp ht
      obtain ⟨samples, hsamples, rfl⟩ := Option.map_eq_some_iff.mp ht
      exact h.telemetry hsamples
  | cloud answer =>
      obtain ⟨-, ht⟩ := Option.ite_none_right_eq_some.mp ht
      cases ht
      exact h.cloud ..
  | callback status =>
      cases ht
      exact h

/-- In every order of the steps, the telemetry thread tries the numbers 0 to 5 one after the other,
and each message is sent, deleted or released once, but for the one a thread holds. -/
theorem messages_always (acts : List Action) :
    Always step (fun s => Messages s.samples) init acts :=
  .of_inductive (fun s => MessagesInv s.samples) (fun _ _ _ h ht => h.step ht)
    (fun _ h => h.messages) messagesInv_init acts

end OpenIotSdk.HubClient
