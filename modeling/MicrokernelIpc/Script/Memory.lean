import MicrokernelIpc.Script.Variables

/-!
# Steps on memory and commands

An access to memory answers with what was read, or with the error that refused it. The
command of a thread is reached through the memory of its process like everything else
there.
-/

namespace MicrokernelIpc.Script

/-- Access the memory of a process, and answer with the outcome. -/
def accessAndAnswer {α : Type} (key : Key Process) (access : MemoryAccess α)
    (answer : α → Answer) : Run Answer := do
  match ← (accessMemory key access).run with
  | .ok value => return answer value
  | .error error => return .refused (.memory error)

/-- Change the memory of a process, and answer with what it looks like then. -/
def changeAndAnswer (key : Key Process) (change : AddressSpace → AddressSpace) : Run Answer := do
  let process ← processAt key
  let memory := change process.memory
  setProcess key { process with memory }
  return .text memory.text

/-- Do one step on the memory of a process. -/
def runMemoryStep (key : Key Process) : MemoryStep → Run Answer
  | .map address size => changeAndAnswer key fun memory => memory.map address size
  | .unmap address size => changeAndAnswer key fun memory => memory.unmap address size
  | .isMapped address size => do
    return .flag ((← processAt key).memory.isMapped address size)
  | .readBlock address size => accessAndAnswer key (.readBlock address size) .bytes
  | .readWord address => accessAndAnswer key (.readWord address) .word
  | .readWords address count => accessAndAnswer key (.readWords address count) .words
  | .writeBlock address data => accessAndAnswer key (.writeBlock address data) fun _ => .done
  | .writeWord address word => do
    let word ← word.value
    accessAndAnswer key (.writeWord address word) fun _ => .done
  | .writeWords address words => do
    let words ← words.mapM WordArg.value
    accessAndAnswer key (.writeWords address words) fun _ => .done

/-- Do one step on the command buffers of threads. -/
def runCommandStep : CommandStep → Run Answer
  | .write thread words => do
    let key ← threadNamed thread
    let words ← words.mapM WordArg.value
    if CommandBuffer.size < words.length then misuse "more words than a command buffer has"
    let outcome ← (storeCommandBuffer key (.ofList words)).run
    return .ofOutcome Refusal.memory outcome
  | .read thread count names => do
    let key ← threadNamed thread
    holdingThread key do
      match ← (loadCommandBuffer key).run with
      | .error error => return .refused (.memory error)
      | .ok buffer =>
        names.forM fun (name, index) => do
          bindName name (.handle ⟨← buffer.word index⟩)
        return .command (buffer.toList.take count) buffer.text
  | .deliver source target sourceAddress targetAddress => do
    let source ← threadNamed source
    let target ← threadNamed target
    let sourceAddress := sourceAddress.getD (← threadAt source).commandBufferAddress
    let targetAddress := targetAddress.getD (← threadAt target).commandBufferAddress
    let outcome ← (deliver source target sourceAddress targetAddress).run
    return .ofOutcome Refusal.delivery outcome

end MicrokernelIpc.Script
