import OpenIotSdk.Model.Netsocket.TlsSocketWrapper

/-! # The credentials of `TLSSocketWrapper`

`set_root_ca_cert` and `set_client_cert_key`, with the key in `_pkctx`. -/

namespace OpenIotSdk.Netsocket

/-- What `mbedtls_pk_parse_key` answers, and what it leaves in an empty context. -/
structure KeyAnswer (κ : Type*) where
  rc : ℤ
  key : Option κ
  failed : rc ≠ 0 → key = none

/-- A wrapper with its `_pkctx`, which is empty or has a key. -/
structure TlsCredentials (κ : Type*) where
  wrapper : TlsSocketWrapper
  pkctx : Option κ

namespace TlsCredentials

variable {κ : Type*} (c : TlsCredentials κ)

def setRootCaCert (alloc : Bool) (parse : ℤ) (answer : ConfigAnswer) : TlsCredentials κ :=
  { c with wrapper := c.wrapper.setRootCaCert alloc parse answer }

/-- `set_client_cert_key`. Behind the certificate, `mbedtls_pk_init` empties `_pkctx` for the key. -/
def setClientCertKey (alloc : Bool) (parse : ℤ) (key : KeyAnswer κ) (answer : ConfigAnswer)
    (rc : ℤ) : TlsCredentials κ where
  wrapper := c.wrapper.setClientCertKey alloc parse key.rc answer rc
  pkctx := if alloc = false ∨ parse ≠ 0 then c.pkctx else key.key

end TlsCredentials

end OpenIotSdk.Netsocket
