import Dsline.Shm.MessageCodec
/-!
# Send plans and size limits

`send_plan` and `message_size_limits` work out the largest message apart from
one another. They agree: a length is planned for exactly where it is within
the limit (`sendPlan_exact`). The operators the source does not check are
written here as the machine runs them, trapping.
-/

namespace Dsline

/-- `a - b` on `usize`, which traps below zero. -/
def trappingSub (a b : ℕ) : Except Failure ℕ := if b ≤ a then .ok (a - b) else .error .panic

/-- `a / b` on `usize`, which traps on zero. -/
def trappingDiv (a b : ℕ) : Except Failure ℕ := if b = 0 then .error .panic else .ok (a / b)

structure MessageSizeLimits where
  slotSize : ℕ
  chunkMetadataSize : ℕ
  chunkPayloadSize : ℕ
  maxMessageSize : ℕ
  deriving DecidableEq, Repr

/-- `message_size_limits`. -/
def messageSizeLimits (config : SpscConfig) : MessageSizeLimits where
  slotSize := config.slotSize
  chunkMetadataSize := CHUNK_METADATA_LEN
  chunkPayloadSize := (checkedSub config.slotSize CHUNK_METADATA_LEN).getD 0
  maxMessageSize := maxMessageSize config

/-- `send_plan` with its unchecked operators trapping. -/
def sendPlanTrapping (config : SpscConfig) (len : ℕ) : Except Failure SendPlan := do
  let tooLarge : Except Failure SendPlan := throw (.ofChannel
    (.messageTooLarge len (messageSizeLimits config).maxMessageSize))
  let overflow := Failure.ofChannel (.invalidConfig "message size overflow")
  if len ≤ config.slotSize then
    return { chunkPayloadSize := config.slotSize, neededSlots := 1 }
  match checkedSub config.slotSize CHUNK_METADATA_LEN with
  | none => tooLarge
  | some chunkPayloadSize =>
      if chunkPayloadSize = 0 then
        tooLarge
      else
        match checkedAdd len (← trappingSub chunkPayloadSize 1) with
        | none => throw overflow
        | some padded =>
            let neededSlots ← trappingDiv padded chunkPayloadSize
            match checkedMul config.capacity chunkPayloadSize with
            | none => throw overflow
            | some maxChunkedMessageSize =>
                if config.capacity < neededSlots ∨ maxChunkedMessageSize < len then
                  tooLarge
                else
                  return { chunkPayloadSize, neededSlots }

section

variable {config : SpscConfig} {plan : SendPlan} {len size : ℕ}

/-- **No operator traps.** -/
theorem sendPlanTrapping_eq (config : SpscConfig) (len : ℕ) :
    sendPlanTrapping config len = sendPlan config len := by
  unfold sendPlanTrapping sendPlan
  by_cases hslot : len ≤ config.slotSize
  · rw [if_pos hslot, if_pos hslot]
    rfl
  rw [if_neg hslot, if_neg hslot]
  cases checkedSub config.slotSize CHUNK_METADATA_LEN with
  | none => rfl
  | some size =>
      simp only
      by_cases hzero : size = 0
      · rw [if_pos hzero, if_pos hzero]
        rfl
      rw [if_neg hzero, if_neg hzero]
      -- A chunk holds a byte, so the subtraction and the division are defined.
      have hsub : trappingSub size 1 = .ok (size - 1) := if_pos (Nat.pos_of_ne_zero hzero)
      have hdiv (a : ℕ) : trappingDiv a size = .ok (a / size) := if_neg hzero
      simp only [hsub, hdiv, bind, Except.bind]
      cases checkedAdd len (size - 1) with
      | none => rfl
      | some padded =>
          simp only
          cases checkedMul config.capacity size with
          | none => rfl
          | some most =>
              simp only
              split <;> rfl

theorem sendPlan_ne_panic : sendPlan config len ≠ .error .panic := by
  intro h
  unfold sendPlan at h
  split at h
  · cases h
  split at h
  · cases h
  split at h
  · cases h
  split at h
  · cases h
  simp only at h
  split at h
  · cases h
  split at h <;> cases h

/-- A ceiling division: as many pieces as the length needs, and no more. -/
theorem lt_and_le_ceil (hs : 0 < size) (hlen : 0 < len) :
    ((len + (size - 1)) / size - 1) * size < len ∧ len ≤ (len + (size - 1)) / size * size := by
  have hdiv := Nat.div_add_mod (len + (size - 1)) size
  have hmod := Nat.mod_lt (len + (size - 1)) hs
  have hcomm : (len + (size - 1)) / size * size = size * ((len + (size - 1)) / size) :=
    Nat.mul_comm _ _
  rw [Nat.sub_mul]
  omega

/-- The ring holds the pieces where it holds the length. -/
theorem ceil_le_iff (hs : 0 < size) {n : ℕ} : (len + (size - 1)) / size ≤ n ↔ len ≤ n * size := by
  rw [Nat.div_le_iff_le_mul_add_pred hs, Nat.mul_comm]
  omega

/-- The limit of a ring whose slots leave no room for chunks. -/
theorem maxMessageSize_small (h : config.slotSize ≤ CHUNK_METADATA_LEN) :
    maxMessageSize config = config.slotSize := by
  have hzero : (checkedSub config.slotSize CHUNK_METADATA_LEN).getD 0 = 0 := by
    unfold checkedSub
    split
    · exact Nat.sub_eq_zero_of_le h
    · rfl
  have hmul : checkedMul config.capacity 0 = some 0 := by simp [checkedMul]
  rw [maxMessageSize, hzero, hmul]
  exact Nat.zero_max _

/-- **Accepted exactly within the limit.** -/
theorem isOk_sendPlan_iff (hlen : len ≤ isizeMax) :
    (sendPlan config len).isOk = true ↔ len ≤ maxMessageSize config := by
  by_cases hslot : len ≤ config.slotSize
  · refine iff_of_true ?_ ?_
    · rw [sendPlan, if_pos hslot]
      rfl
    · unfold maxMessageSize
      split
      · exact Nat.le_trans hslot (Nat.le_max_right _ _)
      · exact hslot
  by_cases hsmall : config.slotSize ≤ CHUNK_METADATA_LEN
  · rw [maxMessageSize_small hsmall]
    refine iff_of_false (fun h => ?_) hslot
    cases hplan : sendPlan config len with
    | error err =>
        rw [hplan] at h
        cases h
    | ok plan =>
        rcases sendPlan_ok hplan with ⟨h1, -⟩ | ⟨-, h2, -⟩
        · exact hslot h1
        · exact absurd h2 (Nat.not_lt.2 hsmall)
  have hchunk : checkedSub config.slotSize CHUNK_METADATA_LEN =
      some (config.slotSize - CHUNK_METADATA_LEN) := if_pos (Nat.le_of_not_le hsmall)
  have hpos : config.slotSize - CHUNK_METADATA_LEN ≠ 0 := by omega
  have hadd : checkedAdd len (config.slotSize - CHUNK_METADATA_LEN - 1) =
      some (len + (config.slotSize - CHUNK_METADATA_LEN - 1)) := by
    have hword : isizeMax + isizeMax < wordCount := by decide
    exact if_pos (by omega)
  rw [sendPlan, if_neg hslot, maxMessageSize, hchunk, Option.getD_some]
  simp only [if_neg hpos, hadd]
  by_cases hmul : config.capacity * (config.slotSize - CHUNK_METADATA_LEN) < wordCount
  · have hmost : checkedMul config.capacity (config.slotSize - CHUNK_METADATA_LEN) =
        some (config.capacity * (config.slotSize - CHUNK_METADATA_LEN)) := if_pos hmul
    simp only [hmost]
    have hmax : len ≤ max (config.capacity * (config.slotSize - CHUNK_METADATA_LEN))
        config.slotSize ↔
          len ≤ config.capacity * (config.slotSize - CHUNK_METADATA_LEN) := by omega
    rw [hmax]
    by_cases hroom : len ≤ config.capacity * (config.slotSize - CHUNK_METADATA_LEN)
    · have hneeded := (ceil_le_iff (Nat.pos_of_ne_zero hpos)).2 hroom
      rw [if_neg (by omega)]
      exact iff_of_true rfl hroom
    · rw [if_pos (.inr (Nat.lt_of_not_le hroom))]
      exact iff_of_false Bool.false_ne_true hroom
  · have hmost : checkedMul config.capacity (config.slotSize - CHUNK_METADATA_LEN) = none :=
      if_neg hmul
    simp only [hmost]
    exact iff_of_false Bool.false_ne_true hslot

/-- What an accepted plan says of the length. -/
theorem neededSlots_exact (hplan : sendPlan config len = .ok plan) :
    (plan.neededSlots = 1 ↔ len ≤ config.slotSize) ∧
      (config.slotSize < len → (plan.neededSlots - 1) * plan.chunkPayloadSize < len ∧
        len ≤ plan.neededSlots * plan.chunkPayloadSize) := by
  rcases sendPlan_ok hplan with ⟨h1, rfl⟩ | ⟨h1, h2, h3, h4, -⟩
  · exact ⟨iff_of_true rfl h1, fun h => absurd h1 (Nat.not_le.2 h)⟩
  · have hmany := one_lt_neededSlots hplan h1
    refine ⟨iff_of_false (Nat.ne_of_gt hmany) (Nat.not_le.2 h1), fun _ => ?_⟩
    rw [h4]
    exact lt_and_le_ceil (by omega) (by omega)

end

/-- **The plan's arithmetic is exact.** A length is planned for where it is
within the limit, no operator traps, and the slots of a plan are those the
length needs. -/
theorem sendPlan_exact {config : SpscConfig} {len : ℕ} (hcap : 1 ≤ config.capacity)
    (hlen : len ≤ isizeMax) :
    ((sendPlan config len).isOk = true ↔ len ≤ (messageSizeLimits config).maxMessageSize) ∧
      sendPlanTrapping config len = sendPlan config len ∧
      sendPlanTrapping config len ≠ .error .panic ∧
      ∀ plan, sendPlan config len = .ok plan → plan.neededSlots ≤ config.capacity ∧
        (plan.neededSlots = 1 ↔ len ≤ config.slotSize) ∧
        (config.slotSize < len → (plan.neededSlots - 1) * plan.chunkPayloadSize < len ∧
          len ≤ plan.neededSlots * plan.chunkPayloadSize) := by
  refine ⟨isOk_sendPlan_iff hlen, sendPlanTrapping_eq config len, ?_, fun plan hplan => ?_⟩
  · rw [sendPlanTrapping_eq]
    exact sendPlan_ne_panic
  · exact ⟨neededSlots_le hcap hplan, neededSlots_exact hplan⟩

/-- Sixty bytes in slots of fifty: chunks of eight. -/
def sampleChunkConfig : SpscConfig := ⟨8, 50, .raise, none, false⟩

theorem sendPlan_exact_eight :
    ((sendPlan sampleChunkConfig 60).isOk = true ↔
      60 ≤ (messageSizeLimits sampleChunkConfig).maxMessageSize) ∧
      sendPlan sampleChunkConfig 60 = .ok ⟨8, 8⟩ ∧ (8 - 1) * 8 < 60 := by
  have hplan : sendPlan sampleChunkConfig 60 = .ok ⟨8, 8⟩ := by decide
  have hexact := @sendPlan_exact sampleChunkConfig 60 (by decide) (by decide)
  exact ⟨hexact.1, hplan, ((hexact.2.2.2 ⟨8, 8⟩ hplan).2.2 (by decide)).1⟩

end Dsline
