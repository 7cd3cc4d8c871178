import OpenIotSdk.Model.Netsocket.TlsCredentials

/-! # Failed updates of the credentials

A certificate that is refused leaves everything as it was. A key that is refused takes the old one
with it, and what fails behind them is not reported. -/

namespace OpenIotSdk.Netsocket

namespace TlsCredentials

variable {κ : Type*} {c : TlsCredentials κ} {alloc : Bool} {parse rc : ℤ} {key : KeyAnswer κ}
  {answer : ConfigAnswer}

/-- The call returns an error, what is installed is as before, and what was allocated is freed. -/
structure Refused (c d : TlsCredentials κ) : Prop where
  error : ∃ e ∈ d.wrapper.result, e ≠ nsapiErrorOk
  ca : d.wrapper.cacert = c.wrapper.cacert
  caAllocated : d.wrapper.cacertAllocated = c.wrapper.cacertAllocated
  cert : d.wrapper.clicert = c.wrapper.clicert
  certAllocated : d.wrapper.clicertAllocated = c.wrapper.clicertAllocated
  key : d.pkctx = c.pkctx
  contents : d.wrapper.contents = c.wrapper.contents
  certs : c.wrapper.certs.ledger.Returned d.wrapper.certs.ledger
  configs : c.wrapper.configs.ledger.Returned d.wrapper.configs.ledger

theorem refused_unallocated {e : ℤ} (he : e ≠ nsapiErrorOk) :
    Refused c ⟨c.wrapper.ret e, c.pkctx⟩ where
  error := ⟨e, rfl, he⟩
  ca := rfl
  caAllocated := rfl
  cert := rfl
  certAllocated := rfl
  key := rfl
  contents := rfl
  certs := .refl _
  configs := .refl _

/-- A certificate has been allocated and freed again. -/
def released (c : TlsCredentials κ) (e : ℤ) : TlsCredentials κ where
  wrapper :=
    { c.wrapper with certs := c.wrapper.certs.alloc.free c.wrapper.certs.fresh }.ret e
  pkctx := c.pkctx

theorem refused_released {e : ℤ} (he : e ≠ nsapiErrorOk) : Refused c (c.released e) where
  error := ⟨e, rfl, he⟩
  ca := rfl
  caAllocated := rfl
  cert := rfl
  certAllocated := rfl
  key := rfl
  contents := rfl
  certs := (Ledger.Returned.refl _).bracket
  configs := .refl _

theorem not_refused {d : TlsCredentials κ} (h : d.wrapper.result = some nsapiErrorOk) :
    ¬ Refused c d := by
  intro hrefused
  obtain ⟨e, he, hne⟩ := hrefused.error
  exact hne (Option.some.inj (he.symm.trans h))

theorem noMemory_ne_ok : nsapiErrorNoMemory ≠ nsapiErrorOk := by decide

theorem parameter_ne_ok : nsapiErrorParameter ≠ nsapiErrorOk := by decide

/-! ## `set_root_ca_cert` -/

theorem setRootCaCert_parse (h : parse ≠ 0) :
    c.setRootCaCert true parse answer = c.released nsapiErrorParameter := by
  simp [setRootCaCert, TlsSocketWrapper.setRootCaCert, h, released]

theorem setRootCaCert_ok :
    (c.setRootCaCert true 0 answer).wrapper.result = some nsapiErrorOk := by
  simp [setRootCaCert, TlsSocketWrapper.setRootCaCert, TlsSocketWrapper.ret]

/-- What fails behind the certificate is not reported. -/
theorem setRootCaCert_refused_iff :
    Refused c (c.setRootCaCert alloc parse answer) ↔ alloc = false ∨ parse ≠ 0 := by
  cases alloc with
  | false => exact iff_of_true (refused_unallocated noMemory_ne_ok) (Or.inl rfl)
  | true =>
      by_cases hparse : parse = 0
      · subst hparse
        exact iff_of_false (not_refused setRootCaCert_ok) (by simp)
      · refine iff_of_true ?_ (Or.inr hparse)
        rw [setRootCaCert_parse hparse]
        exact refused_released parameter_ne_ok

/-! ## `set_client_cert_key` -/

theorem setClientCertKey_parse (h : parse ≠ 0) :
    c.setClientCertKey true parse key answer rc = c.released nsapiErrorParameter := by
  simp [setClientCertKey, TlsSocketWrapper.setClientCertKey, h, released]

/-- A key that is refused leaves no key. -/
theorem setClientCertKey_key (h : key.rc ≠ 0) :
    c.setClientCertKey true 0 key answer rc =
      { c.released nsapiErrorParameter with pkctx := none } := by
  simp [setClientCertKey, TlsSocketWrapper.setClientCertKey, h, key.failed h, released]

theorem setClientCertKey_ok (h : key.rc = 0) :
    (c.setClientCertKey true 0 key answer rc).wrapper.result = some nsapiErrorOk := by
  simp [setClientCertKey, TlsSocketWrapper.setClientCertKey, h, TlsSocketWrapper.ret]

theorem setClientCertKey_refused_iff :
    Refused c (c.setClientCertKey alloc parse key answer rc) ↔
      alloc = false ∨ parse ≠ 0 ∨ key.rc ≠ 0 ∧ c.pkctx = none := by
  cases alloc with
  | false =>
      refine iff_of_true ?_ (Or.inl rfl)
      have heq : c.setClientCertKey false parse key answer rc =
          ⟨c.wrapper.ret nsapiErrorNoMemory, c.pkctx⟩ := by
        simp [setClientCertKey, TlsSocketWrapper.setClientCertKey]
      rw [heq]
      exact refused_unallocated noMemory_ne_ok
  | true =>
      by_cases hparse : parse = 0
      · subst hparse
        by_cases hkey : key.rc = 0
        · exact iff_of_false (not_refused (setClientCertKey_ok hkey)) (by simp [hkey])
        · rw [setClientCertKey_key hkey]
          constructor
          · intro hrefused
            exact Or.inr (Or.inr ⟨hkey, hrefused.key.symm⟩)
          · -- The old key is the empty context again.
            intro hcases
            have hnone : c.pkctx = none := by simpa [hkey] using hcases
            have hsame : { c.released nsapiErrorParameter with pkctx := none } =
                c.released nsapiErrorParameter := by
              rw [released, hnone]
            rw [hsame]
            exact refused_released parameter_ne_ok
      · refine iff_of_true ?_ (Or.inr (Or.inl hparse))
        rw [setClientCertKey_parse hparse]
        exact refused_released parameter_ne_ok

/-- A call is refused without a trace if it ends at the certificate, or if there was no key yet. -/
theorem credentials_iff (c : TlsCredentials κ) (alloc : Bool) (parse : ℤ) (key : KeyAnswer κ)
    (answer : ConfigAnswer) (rc : ℤ) :
    (Refused c (c.setRootCaCert alloc parse answer) ↔ alloc = false ∨ parse ≠ 0) ∧
    (Refused c (c.setClientCertKey alloc parse key answer rc) ↔
      alloc = false ∨ parse ≠ 0 ∨ key.rc ≠ 0 ∧ c.pkctx = none) :=
  ⟨setRootCaCert_refused_iff, setClientCertKey_refused_iff⟩

/-- A new wrapper with a first certificate and key. -/
def installed : TlsCredentials Unit :=
  setClientCertKey ⟨.new true .keep, none⟩ true 0 ⟨0, some (), fun h => absurd rfl h⟩ ⟨true, 0⟩ 0

/-- A second key is refused, and the first one is gone. -/
theorem second_key_lost :
    ¬ ∀ (c : TlsCredentials Unit) (alloc : Bool) (parse : ℤ) (key : KeyAnswer Unit)
      (answer : ConfigAnswer) (rc : ℤ), alloc = false ∨ parse ≠ 0 ∨ key.rc ≠ 0 →
      Refused c (c.setClientCertKey alloc parse key answer rc) := by
  intro h
  have hrefused := h installed true 0 ⟨-0x3D00, none, fun _ => rfl⟩ ⟨true, 0⟩ 0
    (Or.inr (Or.inr (by decide)))
  cases hrefused.key

end TlsCredentials

end OpenIotSdk.Netsocket
