import MicrokernelIpc.Memory.Error
import MicrokernelIpc.Wire.Descriptor

/-!
# Delivery errors

A delivery fails on the sender's command, on the receiver's handle table or on the memory of
one of the two. The command's faults come first, the receiver's memory last.
-/

namespace MicrokernelIpc

/-- Why a command was not delivered. -/
inductive DeliveryError
  /-- The command is longer than a command buffer, or a payload longer than the command. -/
  | commandTooLarge
  /-- The receiver's handle table is full. -/
  | outOfHandles
  /-- A word of the transfer region is no known descriptor. -/
  | unsupportedDescriptor (error : UnsupportedDescriptor)
  /-- The command could not be read from the sender or written to the receiver. -/
  | memory (error : MemoryError)
  deriving DecidableEq, Repr

namespace DeliveryError

/-- The complaint about a command. -/
def message : DeliveryError → String
  | .commandTooLarge => "Command too large"
  | .outOfHandles => "Out of handles"
  | .unsupportedDescriptor error => error.message
  | .memory error => error.message

/-- The code that the guest sees. -/
def code : DeliveryError → ResultCode
  | .commandTooLarge => ResultCode.commandTooLarge
  | .outOfHandles => ResultCode.outOfHandles
  | .unsupportedDescriptor error => error.code
  | .memory error => error.code

end DeliveryError

end MicrokernelIpc
