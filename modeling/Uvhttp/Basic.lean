import Mathlib.Tactic
import Mathlib.Data.List.TakeWhile

namespace uvhttp

/-- The result codes of `uvhttp_error_t` that the modelled functions return. -/
inductive UvhttpError where
  | OK
  | INVALID_PARAM
  | OUT_OF_MEMORY
  | NOT_FOUND
  | ALREADY_EXISTS
  | HEADER_TOO_LARGE
  | BUFFER_TOO_SMALL
  | CONNECTION_INIT
  | CONNECTION_START
  | CONNECTION_CLOSE
  | CONNECTION_BROKEN
  | CONNECTION_TIMEOUT
  | RESPONSE_SEND
  | IO_ERROR
  | SERVER_INIT
  | FILE_TOO_LARGE
  | TLS_WRITE
  | TLS_WANT_WRITE
  | RATE_LIMIT_EXCEEDED
  deriving DecidableEq, Repr

/-- The largest `size_t` of the 64-bit targets. -/
def SIZE_MAX : Nat := 2 ^ 64 - 1

/-- Conversion of an `int` to `size_t`: negative values wrap around. -/
def size_t (value : Int) : Nat := (value % 2 ^ 64).toNat

/-- A nonnegative `int` keeps its value as an `uint64_t`. -/
theorem toNat_ofInt {value : Int} (hlow : 0 ≤ value) (hhigh : value < 2 ^ 64) :
    (UInt64.ofInt value).toNat = value.toNat := by
  rw [UInt64.ofInt, UInt64.toNat_ofNat', Int.emod_eq_of_lt hlow hhigh]
  apply Nat.mod_eq_of_lt
  omega

/-- The characters of a string literal as the bytes C stores for it. -/
def bytes (text : String) : List UInt8 := text.toList.map fun c => UInt8.ofNat c.toNat

/-- What C string functions see of a character buffer: everything before the
first NUL. -/
def cstr (buffer : List UInt8) : List UInt8 := buffer.takeWhile (· != 0)

@[simp] theorem cstr_nil : cstr [] = [] := rfl

theorem cstr_cons (c : UInt8) (rest : List UInt8) :
    cstr (c :: rest) = if c = 0 then [] else c :: cstr rest := by
  rw [cstr, List.takeWhile_cons]
  by_cases hc : c = 0
  · simp [hc]
  · simp [hc, cstr]

theorem length_cstr_le (buffer : List UInt8) : (cstr buffer).length ≤ buffer.length :=
  (List.takeWhile_prefix _).length_le

/-- `uvhttp_safe_strncpy` into a buffer of `dest_size` bytes. -/
def uvhttp_safe_strncpy (dest_size : Nat) (src : List UInt8) : List UInt8 := src.take (dest_size - 1)

end uvhttp
