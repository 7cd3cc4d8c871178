import OpenIotSdk.Model.IotSocket

/-! # Error codes of `mbed-os-netsocket`

`IotSocketToMbed.c`, with the codes of `nsapi_types.h` that it names. -/

namespace OpenIotSdk.Netsocket

def nsapiErrorOk : ℤ := 0
def nsapiErrorWouldBlock : ℤ := -3001
def nsapiErrorUnsupported : ℤ := -3002
def nsapiErrorNoConnection : ℤ := -3004
def nsapiErrorNoSocket : ℤ := -3005
def nsapiErrorNoMemory : ℤ := -3007
def nsapiErrorAuthFailure : ℤ := -3011
def nsapiErrorInProgress : ℤ := -3013
def nsapiErrorAlready : ℤ := -3014
def nsapiErrorIsConnected : ℤ := -3015
def nsapiErrorConnectionLost : ℤ := -3016
def nsapiErrorConnectionTimeout : ℤ := -3017
def nsapiErrorAddressInUse : ℤ := -3018
def nsapiErrorHostNotFound : ℤ := -3021
def nsapiErrorUnknown : ℤ := -3022

/-- The cases of the `switch` that stand for an error, and its default. -/
def errorCases : List (ℤ × ℤ) :=
  [(iotSocketError, nsapiErrorUnknown),
    (iotSocketEnotsup, nsapiErrorUnsupported),
    (iotSocketEnomem, nsapiErrorNoMemory),
    (iotSocketEinprogress, nsapiErrorInProgress),
    (iotSocketEagain, nsapiErrorWouldBlock),
    (iotSocketEtimedout, nsapiErrorConnectionTimeout),
    (iotSocketEisconn, nsapiErrorIsConnected),
    (iotSocketEinval, nsapiErrorNoSocket),
    (iotSocketEsock, nsapiErrorNoSocket),
    (iotSocketEnotconn, nsapiErrorNoConnection),
    (iotSocketEconnreset, nsapiErrorAuthFailure),
    (iotSocketEconnrefused, nsapiErrorAuthFailure),
    (iotSocketEconnaborted, nsapiErrorConnectionLost),
    (iotSocketEalready, nsapiErrorAlready),
    (iotSocketEaddrinuse, nsapiErrorAddressInUse),
    (iotSocketEhostnotfound, nsapiErrorHostNotFound)]

def iotSocketErrorToMbed (code : ℤ) : ℤ :=
  if 0 < code then code
  else if code = 0 then nsapiErrorOk
  else (errorCases.lookup code).getD nsapiErrorUnknown

theorem iotSocketErrorToMbed_of_nonneg {code : ℤ} (h : 0 ≤ code) :
    iotSocketErrorToMbed code = code := by
  dsimp only [iotSocketErrorToMbed]
  split_ifs with hpos hzero
  · rfl
  · exact hzero.symm
  · omega

/-- Every error stays an error. -/
theorem iotSocketErrorToMbed_neg {code : ℤ} (h : code < 0) : iotSocketErrorToMbed code < 0 := by
  dsimp only [iotSocketErrorToMbed]
  rw [if_neg (by omega), if_neg (by omega)]
  cases hcase : errorCases.lookup code with
  | none => decide
  | some error =>
      obtain ⟨before, after, heq, -⟩ := List.lookup_eq_some_iff.mp hcase
      have hmem : (code, error) ∈ errorCases := by rw [heq]; simp
      have hall : ∀ c ∈ errorCases, c.2 < 0 := by decide
      exact hall _ hmem

end OpenIotSdk.Netsocket
