import Mathlib.Data.Nat.Notation
import Mathlib.Data.BitVec

/-!
# Words, error codes and aborts

The target is a 32-bit ARM core: `size_t`, `vaddr_t` and `paddr_t` are 32 bits
wide.  `assert` is compiled out (`CFG_TEE_CORE_DEBUG=n`), so no assertion of the
source appears in the model.  What stops an execution is a call of `panic`, the
dereference of a ring pointer that is `NULL`, or the use of a pointer that was computed
from `NULL`; `hang` is what a walk over a cyclic chain comes to.
-/

namespace TrustedGateway

abbrev Byte := BitVec 8
abbrev Half := BitVec 16
abbrev Word := BitVec 32

/-- How an execution stops without returning. -/
inductive Abort
  | panic (msg : String)
  | nullDeref
  | wildPointer
  | hang
  deriving DecidableEq, Repr

/-- `TEE_Result`: what the trusted side returns to the normal world. -/
inductive TeeResult
  | success
  | generic
  | accessDenied
  | badParameters
  | outOfMemory
  deriving DecidableEq, Repr

/-! ## Return codes of `internal/err.h` and `internal/virtio-net.h` -/

def noError : ℤ := 0
def errGeneric : ℤ := -1
def errNoMemory : ℤ := -5
def errNotValid : ℤ := -7
def errInvalidArgs : ℤ := -8
def errNotEnoughBuffer : ℤ := -9
def errChannelClosed : ℤ := -15
def errTooBig : ℤ := -25
def virtioNapiRetry : ℤ := -47
def virtioNoAvail : ℤ := -48

/-- The sum of two `size_t` values. -/
def addSize (a b : ℕ) : ℕ := (a + b) % 2 ^ 32

theorem addSize_of_lt {a b : ℕ} (h : a + b < 2 ^ 32) : addSize a b = a + b := Nat.mod_eq_of_lt h

end TrustedGateway
