import Mathlib.Algebra.Group.Nat.Defs
/-!
# Outcomes and machine words

The errors of the core crate, the three ways a call can fail to return a
value, and the 64-bit arithmetic of `usize` and of the shared cursors. A
cursor and a length are natural numbers with the wrapping and checked
operations the source applies to them; a sequence number is a `UInt64`.
-/

namespace Dsline

/-- A payload, a frame, or any other byte string. -/
abbrev Bytes := List UInt8

inductive ChannelError where
  | closed
  | bufferFull
  | bufferEmpty
  | messageTooLarge (len slotSize : ℕ)
  | corruptedMessage
  | sequenceMismatch (expected actual : UInt64)
  | invalidConfig (msg : String)
  | storageIo (msg : String)
  deriving DecidableEq, Repr

inductive ProtocolError where
  | frameTooShort (len minimum : ℕ)
  | invalidMagic (magic : UInt32)
  | unsupportedVersion (version : UInt16)
  | invalidFrameKind (kind : UInt16)
  | invalidHeaderLength (headerLen minimum : ℕ)
  | invalidPayloadLength (declared : UInt64) (available : ℕ)
  | invalidMetadataLength (offset declared : ℕ)
  | headerLengthOverflow
  deriving DecidableEq, Repr

inductive DslineError where
  | channel (err : ChannelError)
  | protocol (err : ProtocolError)
  deriving DecidableEq, Repr

/-- **How a call fails.** It returns an error, it panics (an index out of
bounds, a buffer larger than the address space), or it runs a loop no other
actor will end. -/
inductive Failure where
  | error (err : DslineError)
  | panic
  | diverges
  deriving DecidableEq, Repr

/-- A channel error, as a failure. -/
abbrev Failure.ofChannel (err : ChannelError) : Failure := .error (.channel err)

/-- A protocol error, as a failure. -/
abbrev Failure.ofProtocol (err : ProtocolError) : Failure := .error (.protocol err)

instance decidableEqExcept {ε α : Type} [DecidableEq ε] [DecidableEq α] : DecidableEq (Except ε α)
  | .ok a, .ok b => decidable_of_iff (a = b) (by simp)
  | .error a, .error b => decidable_of_iff (a = b) (by simp)
  | .ok _, .error _ => isFalse (by simp)
  | .error _, .ok _ => isFalse (by simp)

/-- The number of `u64` values, and of `usize` values. -/
abbrev wordCount : ℕ := 2 ^ 64

/-- The largest byte length a Rust slice or vector can have. -/
abbrev isizeMax : ℕ := 2 ^ 63 - 1

/-- `checked_add` on `usize`. -/
def checkedAdd (a b : ℕ) : Option ℕ := if a + b < wordCount then some (a + b) else none

/-- `checked_mul` on `usize`. -/
def checkedMul (a b : ℕ) : Option ℕ := if a * b < wordCount then some (a * b) else none

/-- `checked_sub` on `usize`. -/
def checkedSub (a b : ℕ) : Option ℕ := if b ≤ a then some (a - b) else none

/-- `wrapping_add` on a cursor. -/
def wrappingAdd (a b : ℕ) : ℕ := (a + b) % wordCount

/-- `wrapping_sub` on a cursor. -/
def wrappingSub (a b : ℕ) : ℕ := if b ≤ a then a - b else wordCount - (b - a)

theorem wrappingAdd_of_lt {a b : ℕ} (h : a + b < wordCount) : wrappingAdd a b = a + b :=
  Nat.mod_eq_of_lt h

theorem wrappingSub_of_le {a b : ℕ} (h : b ≤ a) : wrappingSub a b = a - b := if_pos h

@[simp] theorem wrappingSub_self {a : ℕ} : wrappingSub a a = 0 := by
  rw [wrappingSub_of_le (Nat.le_refl a), Nat.sub_self]

end Dsline
