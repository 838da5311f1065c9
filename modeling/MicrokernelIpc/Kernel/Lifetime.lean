import MicrokernelIpc.Kernel.Handles

/-!
# Holding processes and threads

A process or thread is discarded when its last holder lets go. A process then lets go of
its record first and of the entries of its handle table after that, in the order of the
slots; a thread lets go of its record and then of its process.
-/

namespace MicrokernelIpc

/-- Hold a process once more. -/
def holdProcess (key : Key Process) : Action Unit := do
  let process ← processAt key
  setProcess key { process with holders := process.holders + 1 }

/-- Hold a thread once more. -/
def holdThread (key : Key Thread) : Action Unit := do
  let thread ← threadAt key
  setThread key { thread with holders := thread.holders + 1 }

/-- Let a process go. -/
def releaseProcess (key : Key Process) : Action Unit := do
  let process ← processAt key
  if process.holders ≤ 1 then
    modifyWorld fun world => { world with processes := world.processes.remove key }
    release process.object
    releaseAll process.handles.objects
  else setProcess key { process with holders := process.holders - 1 }

/-- Let a thread go. -/
def releaseThread (key : Key Thread) : Action Unit := do
  let thread ← threadAt key
  if thread.holders ≤ 1 then
    modifyWorld fun world => { world with threads := world.threads.remove key }
    release thread.object
    releaseProcess thread.owner
  else setThread key { thread with holders := thread.holders - 1 }

end MicrokernelIpc
