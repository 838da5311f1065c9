import MicrokernelIpc.Delivery.Request
import MicrokernelIpc.Kernel.Create
import MicrokernelIpc.Wire.RequestReader

/-!
# Script steps

A script drives the kernel step by step. What a step makes can be bound to a name, under
which later steps use it. Steps on a command buffer stand in lists of their own: the work
of a request handler, or the making or reading of one command.
-/

namespace MicrokernelIpc.Script

/-- A word of a script: a number, or a name bound to a handle. -/
inductive WordArg
  | literal (word : UInt32)
  | named (name : String)

/-- The object that a step works on: a name bound to a reference, or the identifier of an
object of the current kernel. -/
inductive ObjectArg
  | named (name : String)
  | identified (id : ObjectId)

/-- A step on a command buffer. -/
inductive BufferStep
  | parse (command : UInt16) (normal transfer : Nat)
  | build (command : UInt16) (normal transfer : Nat)
  | reply (normal transfer : Nat)
  | words
  | header
  | describe
  | setWords (start : Nat) (words : List WordArg)
  | pop (kind : ParamKind)
  | popPid
  | popHandles (names : List String)
  | popHandle (name : Option String)
  | popStaticBuffer
  | popMappedBuffer
  | expectMappedBuffer (size : Nat) (permission : BufferPermission)
  | skip (count : Nat) (clear : Bool)
  | push (param : Param)
  | pushWord (word : WordArg)
  | pushCopyHandles (handles : List WordArg)
  | pushMoveHandles (handles : List WordArg)
  | pushCallingPid
  | pushStaticBuffer (buffer : StaticBuffer)
  | pushMappedBuffer (buffer : MappedBuffer)

/-- An object to be let into an arena as it is. -/
inductive ObjectPlan
  | event (name : String) (reset : ResetType)
  | semaphore (name : String) (initial maxCount : UInt32)
  | sharedMemory (name : String) (size : Nat) (owner other : MemoryPermission)
  | thread (name : String) (threadId processId : UInt32)
  | process (name : String) (processId : UInt32)
  | session (name : String) (sessionId : UInt32) (endpoint : SessionEndpoint)

/-- A step on one object. -/
inductive ObjectAction
  | show
  | acquire
  | signal
  | clear
  | release (count : UInt32)
  | load (offset length : Nat)
  | store (offset : Nat) (data : List UInt8)

/-- A step that makes, names or looks at kernel objects. The first name of a step that
makes something is the one it is bound to. -/
inductive ObjectStep
  | newKernel
  | newArena (bind : Option String)
  | createProcess (bind : Option String) (name : String)
  | createThread (bind : Option String) (process : String) (name : String)
  | processInfo (process : String)
  | threadInfo (thread : String)
  | createEvent (bind : Option String) (name : String) (reset : ResetType)
  | createSemaphore (bind : Option String) (name : String) (initial maxCount : UInt32)
  | createSharedMemory (bind : Option String) (name : String) (size : Nat)
    (owner other : MemoryPermission)
  | createSessionPair (bindServer bindClient : Option String) (name : String)
  | insert (bind : Option String) (plan : ObjectPlan) (arena : Option String)
  | share (bind : Option String) (ref : String)
  | letGo (name : String)
  | describe (ref : String)
  | sameObject (ref other : String)
  | act (object : ObjectArg) (action : ObjectAction)
  | arena (arena : Option String)
  | entry (id : ObjectId)

/-- A step on a handle table. -/
inductive TableStep
  | create (bind : Option String) (ref : String)
  | give (bind : Option String) (ref : String)
  | fill (bind : Option String) (ref : String) (count : Nat)
  | churn (bind : Option String) (ref : String) (count : Nat)
  | duplicate (bind : Option String) (handle : WordArg)
  | close (handle : WordArg)
  | take (bind : Option String) (handle : WordArg)
  | acquire (bind : Option String) (handle : WordArg)
  | get (handle : WordArg)
  | clear
  | describe

/-- A step on the memory of a process. -/
inductive MemoryStep
  | map (address : UInt32) (size : Nat)
  | unmap (address : UInt32) (size : Nat)
  | isMapped (address : UInt32) (size : Nat)
  | readBlock (address : UInt32) (size : Nat)
  | readWord (address : UInt32)
  | readWords (address : UInt32) (count : Nat)
  | writeBlock (address : UInt32) (data : List UInt8)
  | writeWord (address : UInt32) (word : WordArg)
  | writeWords (address : UInt32) (words : List WordArg)

/-- A step on the command buffers of threads. -/
inductive CommandStep
  | write (thread : String) (words : List WordArg)
  | read (thread : String) (count : Nat) (bind : List (String × Nat))
  | deliver (source target : String) (sourceAddress targetAddress : Option UInt32)

/-- A step of a script. -/
inductive Step
  | buffer (step : BufferStep)
  | object (step : ObjectStep)
  | newTable (bind : Option String)
  | table (table : String) (step : TableStep)
  | memory (process : String) (step : MemoryStep)
  | command (step : CommandStep)
  /-- Make a command from zeros and store it as a thread's command. -/
  | compose (thread : String) (steps : List Step)
  /-- Read a thread's command without changing it. -/
  | study (thread : String) (steps : List Step)
  /-- Send a request; the steps are the handler. -/
  | send (client server : String) (handler : List Step)
  /-- Who takes part in the request being handled. -/
  | context
  /-- All objects and handle tables. -/
  | state

end MicrokernelIpc.Script
