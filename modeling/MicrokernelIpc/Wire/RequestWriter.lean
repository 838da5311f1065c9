import MicrokernelIpc.Effect
import MicrokernelIpc.Wire.CommandBuffer
import MicrokernelIpc.Wire.Param
import MicrokernelIpc.Handle

/-!
# Writing commands

A writer puts the header into a command buffer and then appends parameters and descriptors
one after the other. Writing more words than the header declares is a fault.
-/

namespace MicrokernelIpc

/-- A command being written: the buffer, its header and the next word to write. -/
structure RequestWriter where
  buffer : CommandBuffer
  header : Header
  index : Nat

/-- A computation that writes to a command. -/
abbrev Writing := Effect RequestWriter

namespace RequestWriter

/-- Begin a command in a buffer. Only the header word is written. -/
def start (buffer : CommandBuffer) (command : UInt16) (normal transfer : Nat) :
    Except Fault RequestWriter := do
  let header ← Header.make command normal transfer
  if CommandBuffer.size < header.totalSize then
    throw (.commandTooLong header.totalSize)
  return ⟨← buffer.setWord 0 header.toWord, header, 1⟩

/-- Reserve the next words. Gives the index of the first. -/
def advance (count : Nat) : Writing Nat := do
  let writer ← get
  let stop := writer.index + count
  if writer.header.totalSize < stop then
    throw (.writePastEnd writer.index stop writer.header.totalSize)
  set { writer with index := stop }
  return writer.index

/-- Append words. -/
def pushWords (words : List UInt32) : Writing Unit := do
  let start ← advance words.length
  let writer ← get
  set { writer with buffer := ← writer.buffer.overwrite start words }

/-- Append a plain value. -/
def push (param : Param) : Writing Unit := pushWords param.toWords

/-- Append one word. -/
def pushWord (word : UInt32) : Writing Unit := pushWords [word]

/-- Append a descriptor word. -/
def pushDescriptor (descriptor : Descriptor) : Writing Unit := do
  pushWord (← descriptor.encode)

/-- Append a descriptor and its handles. -/
def pushHandles (descriptor : Descriptor) (handles : List Handle) : Writing Unit := do
  pushDescriptor descriptor
  handles.forM fun handle => pushWord handle.raw

/-- Append handles to copy. -/
def pushCopyHandles (handles : List Handle) : Writing Unit := do
  pushHandles (← Descriptor.copyHandles handles.length) handles

/-- Append handles to move. -/
def pushMoveHandles (handles : List Handle) : Writing Unit := do
  pushHandles (← Descriptor.moveHandles handles.length) handles

/-- Append a slot for the sender's process id, which the kernel fills in. -/
def pushCallingPid : Writing Unit := do
  pushDescriptor .callingPid
  pushWord 0

/-- Append a static buffer. -/
def pushStaticBuffer (buffer : StaticBuffer) : Writing Unit := do
  pushDescriptor (.staticBuffer buffer.bufferId buffer.size)
  pushWord buffer.address

/-- Append a mapped buffer. -/
def pushMappedBuffer (buffer : MappedBuffer) : Writing Unit := do
  pushDescriptor (.mappedBuffer buffer.size buffer.permission)
  pushWord buffer.address

end RequestWriter

end MicrokernelIpc
