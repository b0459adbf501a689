import Dsline.Core.Error
import Mathlib.Tactic.SplitIfs
/-!
# Channel configuration

The backpressure modes and the ring configuration. Only whether a `Block`
timeout is set is read anywhere; how long it lasts is the clock's business
(`Host.polls`).
-/

namespace Dsline

inductive Backpressure where
  | block
  | raise
  | dropNewest
  | dropOldest
  deriving DecidableEq, Repr

structure SpscConfig where
  capacity : ℕ
  slotSize : ℕ
  backpressure : Backpressure
  /-- The `Block` timeout, in nanoseconds. -/
  timeout : Option ℕ
  multiProducer : Bool
  deriving DecidableEq, Repr

namespace SpscConfig

/-- `SpscConfig::validate`. -/
def validate (config : SpscConfig) : Except Failure Unit :=
  if config.capacity = 0 then
    .error (.ofChannel (.invalidConfig "capacity must be greater than zero"))
  else if config.slotSize = 0 then
    .error (.ofChannel (.invalidConfig "slot_size must be greater than zero"))
  else .ok ()

theorem validate_eq_ok {config : SpscConfig} :
    config.validate = .ok () ↔ 0 < config.capacity ∧ 0 < config.slotSize := by
  unfold validate
  split_ifs with h₁ h₂
  · simp [h₁]
  · simp [h₂]
  · simp only [true_iff]
    omega

end SpscConfig

end Dsline
