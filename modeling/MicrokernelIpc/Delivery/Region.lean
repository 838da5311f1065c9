import MicrokernelIpc.Delivery.Error
import MicrokernelIpc.Effect
import MicrokernelIpc.Journal
import MicrokernelIpc.Wire.CommandBuffer

/-!
# The transfer region of a command

The transfer region is cut from left to right into blocks, each a descriptor word and its
payload. The whole region is cut before anything is done with it; a word that is no
descriptor, or a payload that passes the end of the command, spoils it all.
-/

namespace MicrokernelIpc

/-- A descriptor and the index of its word in the command. -/
structure RegionItem where
  index : Nat
  descriptor : Descriptor
  deriving DecidableEq, Repr

/-- Where the transfer region of a command cannot be cut any further. -/
inductive RegionError
  /-- A word is no known descriptor. -/
  | unsupported (error : UnsupportedDescriptor) (index : Nat)
  /-- A payload needs more words than the command has. -/
  | payloadTooLong (descriptor : Descriptor) (index needed size : Nat)
  deriving DecidableEq, Repr

namespace RegionError

/-- How the kernel notes the error. -/
def notice : RegionError → Notice
  | .unsupported error index => .unsupportedDescriptor error index
  | .payloadTooLong descriptor index needed size =>
    .payloadTooLong descriptor index needed size

/-- How the error is reported to the sender. -/
def deliveryError : RegionError → DeliveryError
  | .unsupported error _ => .unsupportedDescriptor error
  | .payloadTooLong .. => .commandTooLarge

end RegionError

namespace RegionItem

/-- The index after the payload. -/
def stop (item : RegionItem) : Nat := item.index + 1 + item.descriptor.payloadWords

/-- The descriptors of the words from `index` up to `size`, in order. -/
def ofRegion (buffer : CommandBuffer) (index size : Nat) :
    ExceptT RegionError (Except Fault) (List RegionItem) :=
  if index < size then do
    let word ← buffer.word index
    match Descriptor.decode word with
    | .error error => throw (.unsupported error index)
    | .ok descriptor =>
      let item : RegionItem := ⟨index, descriptor⟩
      if size < item.stop then throw (.payloadTooLong descriptor index item.stop size)
      return item :: (← ofRegion buffer item.stop size)
  else return []
termination_by size - index
decreasing_by
  simp only [RegionItem.stop]
  omega

end RegionItem

end MicrokernelIpc
