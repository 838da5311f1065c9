import MicrokernelIpc.Object.Event
import MicrokernelIpc.Object.Semaphore
import MicrokernelIpc.Object.SharedMemory

/-!
# Kernel objects

Everything that a handle can name is a kernel object: an event, a semaphore, a block of
shared memory, the record of a thread or process, or one end of a session. Events and
semaphores can be taken by waiters; threads and processes can be waited on but are never
taken here; the others cannot be waited on.
-/

namespace MicrokernelIpc

/-- The record of a thread. -/
structure ThreadRecord where
  name : String
  threadId : UInt32
  processId : UInt32
  deriving DecidableEq

/-- The record of a process. -/
structure ProcessRecord where
  name : String
  processId : UInt32
  deriving DecidableEq

/-- The two ends of a session. -/
inductive SessionEndpoint
  | client | server
  deriving DecidableEq, Repr

/-- One end of a session. Both ends of a pair have the same session id. -/
structure Session where
  name : String
  sessionId : UInt32
  endpoint : SessionEndpoint
  deriving DecidableEq

/-- The kinds of kernel objects. -/
inductive ObjectKind
  | event | semaphore | sharedMemory | thread | process | clientSession | serverSession
  deriving DecidableEq, Repr

/-- A kernel object. -/
inductive KernelObject
  | event (event : EventObject)
  | semaphore (semaphore : Semaphore)
  | sharedMemory (block : SharedMemory)
  | thread (record : ThreadRecord)
  | process (record : ProcessRecord)
  | session (session : Session)
  deriving DecidableEq

/-- The name of a kind. -/
def ObjectKind.text : ObjectKind → String
  | .event => "Event"
  | .semaphore => "Semaphore"
  | .sharedMemory => "SharedMemory"
  | .thread => "Thread"
  | .process => "Process"
  | .clientSession => "ClientSession"
  | .serverSession => "ServerSession"

namespace KernelObject

/-- The kind of an object. -/
def kind : KernelObject → ObjectKind
  | .event _ => .event
  | .semaphore _ => .semaphore
  | .sharedMemory _ => .sharedMemory
  | .thread _ => .thread
  | .process _ => .process
  | .session s =>
    match s.endpoint with
    | .client => .clientSession
    | .server => .serverSession

/-- The name of an object. -/
def name : KernelObject → String
  | .event e => e.name
  | .semaphore s => s.name
  | .sharedMemory b => b.name
  | .thread t => t.name
  | .process p => p.name
  | .session s => s.name

/-- Whether threads can wait on the object. -/
def isWaitable : KernelObject → Bool
  | .event _ => true
  | .semaphore _ => true
  | .thread _ => true
  | .process _ => true
  | .sharedMemory _ => false
  | .session _ => false

/-- Whether a waiter would block on the object now. Objects that no waiter can take always
block. -/
def shouldWait : KernelObject → Bool
  | .event e => !e.signaled
  | .semaphore s => s.available == 0
  | _ => true

/-- Take one signal from the object for a waiter, if there is one. -/
def acquire : KernelObject → Bool × KernelObject
  | .event e => (e.acquire.1, .event e.acquire.2)
  | .semaphore s => (s.acquire.1, .semaphore s.acquire.2)
  | object => (false, object)

end KernelObject

end MicrokernelIpc
