import MicrokernelIpc.Kernel.Machine
import MicrokernelIpc.Wire.CommandBuffer

/-!
# The memory of processes

Accesses to the memory of a process, and the command buffers that lie there: every thread
has one, at a fixed place in its slot of thread-local storage.
-/

namespace MicrokernelIpc

/-- Run an access in the memory of a process. -/
def accessMemory {α : Type} (key : Key Process) (access : MemoryAccess α) :
    Attempt MemoryError α := do
  let process ← processAt key
  match access.run process.memory with
  | .ok (.ok value) memory =>
    setProcess key { process with memory }
    return value
  | .ok (.error error) memory =>
    setProcess key { process with memory }
    throw error
  | .error fault memory =>
    setProcess key { process with memory }
    halt fault

/-- The command buffer of a thread. -/
def loadCommandBuffer (key : Key Thread) : Attempt MemoryError CommandBuffer := do
  let thread ← threadAt key
  let words ← accessMemory thread.owner
    (MemoryAccess.readWords thread.commandBufferAddress CommandBuffer.size)
  return CommandBuffer.ofList words

/-- Replace the command buffer of a thread. -/
def storeCommandBuffer (key : Key Thread) (buffer : CommandBuffer) :
    Attempt MemoryError Unit := do
  let thread ← threadAt key
  accessMemory thread.owner (MemoryAccess.writeWords thread.commandBufferAddress buffer.toList)

end MicrokernelIpc
