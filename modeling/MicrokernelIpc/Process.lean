import MicrokernelIpc.HandleTable.Basic
import MicrokernelIpc.Memory.AddressSpace
import MicrokernelIpc.Text.Quoted

/-!
# Processes and threads

A process owns its handle table and its address space. Its object in the arena only records
who it is, so handles to a process keep neither alive. A thread belongs to a process and
has a slot of thread-local storage there, in which its command buffer lies.

Processes and threads live as long as somebody holds them; the number of holders is kept
with them. A thread is one of the holders of its process.
-/

namespace MicrokernelIpc

/-- Where the thread-local storage of a process begins. -/
def tlsAreaAddress : Nat := 0x1FF82000

/-- The size of one thread's slot of thread-local storage. -/
def tlsEntrySize : Nat := 0x200

/-- Where in its slot a thread's command buffer begins. -/
def commandBufferOffset : Nat := 0x80

/-- A process. -/
structure Process where
  processId : UInt32
  name : String
  /-- The process's own reference to its record. -/
  object : ObjectRef
  handles : HandleTable
  memory : AddressSpace
  nextTlsSlot : UInt32
  holders : Nat

namespace Process

/-- A new process, held once. -/
def new (processId : UInt32) (name : String) (object : ObjectRef) : Process where
  processId := processId
  name := name
  object := object
  handles := HandleTable.empty
  memory := AddressSpace.empty
  nextTlsSlot := 0
  holders := 1

/-- The process as a record. -/
def text (process : Process) : String :=
  Text.record "Process"
    [("process_id", toString process.processId.toNat),
     ("name", Text.quoted process.name),
     ("object", process.object.text),
     ("handles", toString process.handles.live)]

/-- Take the next slot of thread-local storage and map its page. Gives the slot's address. -/
def takeTlsSlot (process : Process) : Except Fault (UInt32 × Process) :=
  let address := tlsAreaAddress + process.nextTlsSlot.toNat * tlsEntrySize
  if address < AddressSpace.addressLimit then
    let slot := UInt32.ofNat address
    .ok (slot, { process with
      nextTlsSlot := process.nextTlsSlot + 1
      memory := process.memory.map slot AddressSpace.pageSize })
  else .error .addressOverflow

end Process

/-- A thread. -/
structure Thread where
  threadId : UInt32
  name : String
  /-- The thread's own reference to its record. -/
  object : ObjectRef
  owner : Key Process
  tlsAddress : UInt32
  holders : Nat

namespace Thread

/-- Where the thread's command buffer begins. -/
def commandBufferAddress (thread : Thread) : UInt32 :=
  thread.tlsAddress + UInt32.ofNat commandBufferOffset

/-- The thread as a record, with the id of its process. -/
def text (thread : Thread) (processId : UInt32) : String :=
  Text.record "Thread"
    [("thread_id", toString thread.threadId.toNat),
     ("name", Text.quoted thread.name),
     ("process_id", toString processId.toNat),
     ("tls_address", Text.hexWord thread.tlsAddress.toNat)]

end Thread

end MicrokernelIpc
