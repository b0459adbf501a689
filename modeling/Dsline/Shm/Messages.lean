import Dsline.Shm.SpscReceive
/-!
# Messages and their entries

The entry a message that was taken leaves in the ring: its frames under its
plan, delivering it.
-/

namespace Dsline

/-- The slots a message takes. -/
def slotsOf (config : SpscConfig) (message : ReceivedMessage) : ℕ :=
  match sendPlan config message.payload.length with
  | .ok plan => plan.neededSlots
  | .error _ => 0

variable [Checksum] {config : SpscConfig} {message : ReceivedMessage} {plan : SendPlan}
  {messages : List ReceivedMessage}

/-- The frames of a message. -/
def framesOf (config : SpscConfig) (message : ReceivedMessage) : List Bytes :=
  match sendPlan config message.payload.length with
  | .ok plan => messageFrames plan message.seq message.payload
  | .error _ => []

/-- A message's entry in the ring. -/
def entryOf (config : SpscConfig) (message : ReceivedMessage) : Entry :=
  .message message.seq (framesOf config message) (.ok message.payload)

/-- A message that was taken. -/
def Taken (config : SpscConfig) (message : ReceivedMessage) : Prop :=
  (∃ plan, sendPlan config message.payload.length = .ok plan) ∧
    message.payload.length ≤ isizeMax

variable (message) in
theorem framesOf_eq (h : sendPlan config message.payload.length = .ok plan) :
    framesOf config message = messageFrames plan message.seq message.payload := by
  rw [framesOf, h]

variable (message) in
omit [Checksum] in
theorem slotsOf_eq (h : sendPlan config message.payload.length = .ok plan) :
    slotsOf config message = plan.neededSlots := by
  rw [slotsOf, h]

/-- Where no entry comes first there is no message. -/
theorem map_entryOf_nil (hfirst : ∀ seq datas out rest,
    messages.map (entryOf config) ≠ .message seq datas out :: rest) : messages = [] := by
  cases messages with
  | nil => rfl
  | cons m rest => exact absurd rfl (hfirst _ _ _ _)

variable (message plan) in
/-- The entry of a message that was just sent. -/
theorem entryOf_eq (hplan : sendPlan config message.payload.length = .ok plan)
    (hfit : FramesFit config message.payload.length) :
    entryOf config message = .message message.seq
      ((messageFrames plan message.seq message.payload).map stored) (.ok message.payload) := by
  rw [entryOf, framesOf_eq _ hplan, stored_messageFrames hplan hfit]

/-- Messages are not leases. -/
theorem leasesOf_entryOf : leasesOf (messages.map (entryOf config)) = 0 := by
  refine List.countP_eq_zero.2 fun e he => ?_
  obtain ⟨m, -, rfl⟩ := List.mem_map.1 he
  exact Bool.false_ne_true

end Dsline
