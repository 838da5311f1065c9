import MicrokernelIpc.Object.Id
import MicrokernelIpc.Wire.Descriptor
import MicrokernelIpc.Wire.Header

/-!
# Faults

A fault stops a computation for good. Some faults blame the caller: a command laid out
otherwise than the reader expects, more words written than the header declares, a value too
large for its field. The others would be the kernel's own mistakes: an index outside a
command buffer, a page that is not there after its range was checked, a reference taken to
an object that is gone.
-/

namespace MicrokernelIpc

/-- The packed fields whose values a caller can choose too large. -/
inductive PackedField
  | headerNormal | headerTransfer | staticBufferId | staticSize | mappedSize
  deriving DecidableEq, Repr

/-- Why a computation stopped. -/
inductive Fault
  /-- A handle descriptor announces no handle or more than its field can count. -/
  | handleCount (count : Nat)
  /-- A value does not fit its packed field. -/
  | fieldOutOfBounds (field : PackedField)
  /-- A command was begun that is longer than a command buffer. -/
  | commandTooLong (words : Nat)
  /-- A write goes past the declared end of the command. -/
  | writePastEnd (start stop size : Nat)
  /-- A read goes past the declared end of the command. -/
  | readPastEnd (start stop size : Nat)
  /-- The command's header is not the expected one. -/
  | headerMismatch (found expected : Header)
  /-- Another descriptor stands where the calling process was expected. -/
  | expectedCallingPid
  /-- A handle descriptor does not announce exactly one handle. -/
  | expectedSingleHandle
  /-- Another descriptor stands where handles were expected. -/
  | expectedHandles (found : Descriptor)
  /-- Another descriptor stands where a static buffer was expected. -/
  | expectedStaticBuffer (found : Descriptor)
  /-- Another descriptor stands where a mapped buffer was expected. -/
  | expectedMappedBuffer (found : Descriptor)
  /-- A word that is no descriptor stands where one was expected. -/
  | unsupportedDescriptor (error : UnsupportedDescriptor) (index : Nat)
  /-- A mapped buffer has another size or permission than expected. -/
  | mappedBufferMismatch (found : MappedBuffer) (size : Nat) (permission : BufferPermission)
  /-- A word past the end of a row of words was touched. -/
  | indexOutOfBounds (length index : Nat)
  /-- A range of words begins past the end of the row. -/
  | rangeStart (start length : Nat)
  /-- A range of words ends past the end of the row. -/
  | rangeEnd (stop length : Nat)
  /-- A reference was taken to an object that is gone. -/
  | retainDestroyed (id : ObjectId)
  /-- A page is absent although its range was found mapped. -/
  | missingPage (page : Nat)
  /-- An address does not fit in 32 bits. -/
  | addressOverflow
  /-- A process, thread, handle table or arena was used that is not there any more. -/
  | discarded
  deriving DecidableEq, Repr

/-- The full name of a packed field. -/
def PackedField.text : PackedField → String
  | .headerNormal => "Header.normal_params_size"
  | .headerTransfer => "Header.translate_params_size"
  | .staticBufferId => "StaticBufferDescriptor.buffer_id"
  | .staticSize => "StaticBufferDescriptor.size"
  | .mappedSize => "MappedBufferDescriptor.size"

namespace Fault

/-- A range of words as a fault names it. -/
def rangeText (start stop : Nat) : String := toString start ++ ".." ++ toString stop

/-- What is said of two values that should have been equal. -/
def inequality (complaint : String) : String :=
  "assertion `left == right` failed: " ++ complaint

/-- The complaint of a fault. -/
def message : Fault → String
  | .handleCount count =>
    "handle descriptor count " ++ toString count ++ " outside 1..="
      ++ toString Descriptor.maxHandles
  | .fieldOutOfBounds field => "value out of bounds for field " ++ field.text ++ ": OutOfBounds"
  | .commandTooLong words =>
    "command of " ++ toString words ++ " words does not fit in the command buffer"
  | .writePastEnd start stop size =>
    "writing words " ++ rangeText start stop ++ " past the end of a " ++ toString size
      ++ "-word command"
  | .readPastEnd start stop size =>
    "reading words " ++ rangeText start stop ++ " past the end of a " ++ toString size
      ++ "-word request"
  | .headerMismatch found expected =>
    inequality ("request header " ++ Text.hexWord found.toWord.toNat
      ++ " does not match expected " ++ Text.hexWord expected.toWord.toNat)
  | .expectedCallingPid => inequality "expected a calling pid descriptor"
  | .expectedSingleHandle => inequality "expected a single handle"
  | .expectedHandles found => "expected a handle descriptor, found " ++ found.text
  | .expectedStaticBuffer found => "expected a static buffer descriptor, found " ++ found.text
  | .expectedMappedBuffer found => "expected a mapped buffer descriptor, found " ++ found.text
  | .unsupportedDescriptor error index => error.message ++ " at word " ++ toString index
  | .mappedBufferMismatch found size permission =>
    "mapped buffer " ++ found.text ++ " does not match size " ++ Text.hex 1 size
      ++ " with " ++ permission.text
  | .indexOutOfBounds length index =>
    "index out of bounds: the len is " ++ toString length ++ " but the index is "
      ++ toString index
  | .rangeStart start length =>
    "range start index " ++ toString start ++ " out of range for slice of length "
      ++ toString length
  | .rangeEnd stop length =>
    "range end index " ++ toString stop ++ " out of range for slice of length "
      ++ toString length
  | .retainDestroyed id => "retain of destroyed object " ++ id.text
  | .missingPage page => "page " ++ Text.hex 1 page ++ " is absent"
  | .addressOverflow => "address past the end of the address space"
  | .discarded => "use of a discarded process, thread, table or arena"

end Fault

end MicrokernelIpc
