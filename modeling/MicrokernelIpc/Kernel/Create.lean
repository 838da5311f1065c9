import MicrokernelIpc.Kernel.Lifetime

/-!
# Making kernel objects

The current kernel makes processes, threads and objects. Identifiers count up from zero for
processes and from one for threads and sessions.
-/

namespace MicrokernelIpc

/-- Make an arena. -/
def newArena : Action (Key Arena) := do
  let (key, arenas) := (← get).world.arenas.add Arena.empty
  modifyWorld fun world => { world with arenas }
  return key

/-- Make a kernel with an arena of its own, which is the current one from then on. -/
def newKernel : Action Unit := do
  let arena ← newArena
  modifyWorld fun world => { world with kernel := Kernel.new arena }

/-- Let an object into the arena of the current kernel. -/
def createObject (object : KernelObject) : Action ObjectRef := do
  insertObject (← get).world.kernel.arena object

/-- Make a process. -/
def createProcess (name : String) : Action (Key Process) := do
  let processId := (← get).world.kernel.nextProcessId
  modifyWorld fun world =>
    { world with kernel := { world.kernel with nextProcessId := processId + 1 } }
  let object ← createObject (.process ⟨name, processId⟩)
  note (.processCreated processId name)
  let (key, processes) := (← get).world.processes.add (Process.new processId name object)
  modifyWorld fun world => { world with processes }
  return key

/-- Make a thread in a process and map its slot of thread-local storage. -/
def createThread (owner : Key Process) (name : String) : Action (Key Thread) := do
  let threadId := (← get).world.kernel.nextThreadId
  modifyWorld fun world =>
    { world with kernel := { world.kernel with nextThreadId := threadId + 1 } }
  let processId := (← processAt owner).processId
  let object ← createObject (.thread ⟨name, threadId, processId⟩)
  let (tlsAddress, process) ← (← processAt owner).takeTlsSlot
  setProcess owner process
  note (.threadCreated threadId name processId tlsAddress)
  holdProcess owner
  let (key, threads) :=
    (← get).world.threads.add ⟨threadId, name, object, owner, tlsAddress, 1⟩
  modifyWorld fun world => { world with threads }
  return key

/-- Make an event. -/
def createEvent (name : String) (reset : ResetType) : Action ObjectRef :=
  createObject (.event (.new name reset))

/-- Make a semaphore. -/
def createSemaphore (name : String) (initial maxCount : UInt32) :
    Attempt SemaphoreError ObjectRef := do
  match Semaphore.make name initial maxCount with
  | .ok semaphore => createObject (.semaphore semaphore)
  | .error error => throw error

/-- Make a block of shared memory. -/
def createSharedMemory (name : String) (size : Nat) (owner other : MemoryPermission) :
    Action ObjectRef :=
  createObject (.sharedMemory (.new name size owner other))

/-- Make both ends of a session: the server's, then the client's. -/
def createSessionPair (name : String) : Action (ObjectRef × ObjectRef) := do
  let sessionId := (← get).world.kernel.nextSessionId
  modifyWorld fun world =>
    { world with kernel := { world.kernel with nextSessionId := sessionId + 1 } }
  let server ← createObject (.session ⟨name, sessionId, .server⟩)
  let client ← createObject (.session ⟨name, sessionId, .client⟩)
  return (server, client)

end MicrokernelIpc
