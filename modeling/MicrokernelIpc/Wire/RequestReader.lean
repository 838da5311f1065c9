import MicrokernelIpc.Wire.RequestWriter

/-!
# Reading commands

A reader is opened with the layout it expects and takes parameters and descriptors in
order. A command laid out otherwise is a fault, and so is reading on past the words that
the header declares. A header may declare more words than a buffer has: then the reader
opens, and the first word touched outside the buffer is the fault.
-/

namespace MicrokernelIpc

/-- A command being read: the buffer, its header and the next word to read. -/
structure RequestReader where
  buffer : CommandBuffer
  header : Header
  index : Nat

/-- A computation that reads from a command. -/
abbrev Reading := Effect RequestReader

namespace RequestReader

/-- Open a command that must have the given header. -/
def start (buffer : CommandBuffer) (command : UInt16) (normal transfer : Nat) :
    Except Fault RequestReader := do
  let expected ← Header.make command normal transfer
  if buffer.header = expected then return ⟨buffer, expected, 1⟩
  else throw (.headerMismatch buffer.header expected)

/-- Pass over the next words. Gives the index of the first. -/
def advance (count : Nat) : Reading Nat := do
  let reader ← get
  let stop := reader.index + count
  if reader.header.totalSize < stop then
    throw (.readPastEnd reader.index stop reader.header.totalSize)
  set { reader with index := stop }
  return reader.index

/-- Take the next words. -/
def popWords (count : Nat) : Reading (List UInt32) := do
  let start ← advance count
  (← get).buffer.slice start (start + count)

/-- Take a plain value. -/
def pop (kind : ParamKind) : Reading Param := do
  Param.ofWords kind (← popWords kind.size)

/-- Take one word. -/
def popWord : Reading UInt32 := do
  wordAt (← popWords 1) 0

/-- Take a descriptor word. -/
def popDescriptor : Reading Descriptor := do
  let index ← advance 1
  let word ← (← get).buffer.word index
  match Descriptor.decode word with
  | .ok descriptor => return descriptor
  | .error error => throw (.unsupportedDescriptor error index)

/-- Take the slot of the calling process. -/
def popPid : Reading UInt32 := do
  match ← popDescriptor with
  | .callingPid => popWord
  | _ => throw .expectedCallingPid

/-- Take the handles of one descriptor, copied or moved. -/
def popHandles : Reading (List Handle) := do
  let descriptor ← popDescriptor
  if descriptor.isHandle then
    return (← popWords descriptor.payloadWords).map Handle.mk
  else throw (.expectedHandles descriptor)

/-- Take the handle of a descriptor that announces just one. -/
def popHandle : Reading Handle := do
  match ← popHandles with
  | [handle] => return handle
  | _ => throw .expectedSingleHandle

/-- Take a static buffer. -/
def popStaticBuffer : Reading StaticBuffer := do
  match ← popDescriptor with
  | .staticBuffer bufferId size => return ⟨← popWord, size, bufferId⟩
  | other => throw (.expectedStaticBuffer other)

/-- Take a mapped buffer. -/
def popMappedBuffer : Reading MappedBuffer := do
  match ← popDescriptor with
  | .mappedBuffer size permission => return ⟨← popWord, size, permission⟩
  | other => throw (.expectedMappedBuffer other)

/-- Take a mapped buffer of a known size and permission. Gives its address. -/
def expectMappedBuffer (size : Nat) (permission : BufferPermission) : Reading UInt32 := do
  let buffer ← popMappedBuffer
  if buffer.size = size ∧ buffer.permission = permission then return buffer.address
  else throw (.mappedBufferMismatch buffer size permission)

/-- Pass over words and make them zero if asked to. -/
def skip (count : Nat) (clear : Bool) : Reading Unit := do
  let start ← advance count
  if clear then
    let reader ← get
    let buffer ← reader.buffer.overwrite start (List.replicate count 0)
    set { reader with buffer }

/-- Begin the reply in the same buffer, under the same command identifier. -/
def reply (reader : RequestReader) (normal transfer : Nat) : Except Fault RequestWriter :=
  RequestWriter.start reader.buffer reader.header.command normal transfer

end RequestReader

end MicrokernelIpc
