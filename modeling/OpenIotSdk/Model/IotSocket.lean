import Mathlib.Data.BitVec
import Mathlib.Data.Int.Order.Basic
import Mathlib.Logic.Function.Basic

/-! # The socket API of `iot_socket.h`

Its error codes, what a caller can rely on in `iotSocketSend`, and the sockets that the
stack holds. -/

namespace OpenIotSdk

def iotSocketError : ℤ := -1
def iotSocketEsock : ℤ := -2
def iotSocketEinval : ℤ := -3
def iotSocketEnotsup : ℤ := -4
def iotSocketEnomem : ℤ := -5
def iotSocketEagain : ℤ := -6
def iotSocketEinprogress : ℤ := -7
def iotSocketEtimedout : ℤ := -8
def iotSocketEisconn : ℤ := -9
def iotSocketEnotconn : ℤ := -10
def iotSocketEconnrefused : ℤ := -11
def iotSocketEconnreset : ℤ := -12
def iotSocketEconnaborted : ℤ := -13
def iotSocketEalready : ℤ := -14
def iotSocketEaddrinuse : ℤ := -15
def iotSocketEhostnotfound : ℤ := -16

/-- The result of `iotSocketSend` for `len` bytes, when the stack answers `reply`: an error
as it is, and a count within the bytes offered and within `int32_t`. -/
def iotSocketSend (reply : ℤ) (len : ℕ) : ℤ := min reply (min len (2 ^ 31 - 1))

theorem iotSocketSend_le (reply : ℤ) (len : ℕ) :
    iotSocketSend reply len ≤ len ∧ iotSocketSend reply len < 2 ^ 31 := by
  dsimp only [iotSocketSend]
  omega

/-! ## The sockets of the stack -/

/-- The sockets, by their ids. -/
structure Stack where
  isOpen : ℤ → Bool -- created, and not closed since
  connected : ℤ → Bool -- `iotSocketConnect` has succeeded since the creation
  unclosed : ℤ → Bool -- created, and not passed to `iotSocketClose` since

namespace Stack

/-- A stack that has created no socket. -/
def empty : Stack := ⟨fun _ => false, fun _ => false, fun _ => false⟩

/-- The result of `iotSocketCreate`: the id of a new socket is not in use. -/
def created (k : Stack) (reply : ℤ) : ℤ :=
  if 0 ≤ reply ∧ k.isOpen reply = true then iotSocketError else reply

def iotSocketCreate (k : Stack) (reply : ℤ) : Stack :=
  if k.created reply < 0 then k
  else
    { isOpen := Function.update k.isOpen (k.created reply) true
      connected := Function.update k.connected (k.created reply) false
      unclosed := Function.update k.unclosed (k.created reply) true }

/-- The result of a call on the socket `id`, when the stack answers `reply`. -/
def answer (k : Stack) (id reply : ℤ) : ℤ := if k.isOpen id then reply else iotSocketEsock

def iotSocketConnect (k : Stack) (id reply : ℤ) : Stack :=
  if k.answer id reply = 0 then { k with connected := Function.update k.connected id true }
  else k

def iotSocketClose (k : Stack) (id reply : ℤ) : Stack :=
  if k.answer id reply = 0 then
    { isOpen := Function.update k.isOpen id false
      connected := Function.update k.connected id false
      unclosed := Function.update k.unclosed id false }
  else { k with unclosed := Function.update k.unclosed id false }

/-- Only a socket that is open is closed or connected. -/
theorem isOpen_of_answer {k : Stack} {id reply : ℤ} (h : k.answer id reply = 0) :
    k.isOpen id = true := by
  by_contra hn
  rw [answer, if_neg hn] at h
  exact absurd h (by decide)

theorem isOpen_created {k : Stack} {reply : ℤ} (h : 0 ≤ k.created reply) :
    k.isOpen (k.created reply) = false := by
  dsimp only [created] at h ⊢
  split at h
  · exact absurd h (by decide)
  · next hn =>
      rw [if_neg hn]
      rw [not_and] at hn
      exact Bool.eq_false_iff.mpr (hn h)

end Stack

/-! ## Conversion to `int` -/

/-- The value of an unsigned number as a signed one of 32 bits. -/
def toInt32 (n : ℕ) : ℤ := Int.bmod n (2 ^ 32)

theorem toInt32_of_lt {n : ℕ} (h : n < 2 ^ 31) : toInt32 n = n := by
  refine Int.bmod_eq_of_le_mul_two ?_ ?_ <;> omega

theorem toInt32_neg {n : ℕ} (h : 2 ^ 31 ≤ n) (h' : n < 2 ^ 32) : toInt32 n < 0 := by
  have hround : toInt32 n = Int.bmod ((n : ℤ) - 2 ^ 32) (2 ^ 32) :=
    (Int.sub_bmod_right n (2 ^ 32)).symm
  rw [hround, Int.bmod_eq_of_le_mul_two] <;> omega

end OpenIotSdk
