import MicrokernelIpc.Script.Step

/-!
# Answers

Every step has an answer, kept as data: what was made, read or taken, or the error that was
reported. A script that ends early has as its last answer why it did.
-/

namespace MicrokernelIpc.Script

/-- An error that a step reports. -/
inductive Refusal
  | semaphore (error : SemaphoreError)
  | memory (error : MemoryError)
  | table (error : HandleTableError)
  | delivery (error : DeliveryError)

/-- The complaint of an error. -/
def Refusal.message : Refusal → String
  | .semaphore error => error.message
  | .memory error => error.message
  | .table error => error.message
  | .delivery error => error.message

/-- The code that the guest sees. -/
def Refusal.code : Refusal → ResultCode
  | .semaphore error => error.code
  | .memory error => error.code
  | .table error => error.code
  | .delivery error => error.code

/-- Why a script ends early: a fault, or a step that makes no sense where it stands. -/
inductive Stop
  | fault (fault : Fault)
  | misuse (complaint : String)

/-- An object's identifier, its kind while it is there, and the references to it. -/
structure ObjectSummary where
  id : ObjectId
  kind : Option ObjectKind
  refs : UInt32

/-- What a reader took from a command. -/
inductive Popped
  | param (param : Param)
  | word (word : UInt32)
  | handles (handles : List Handle)
  | staticBuffer (buffer : StaticBuffer)
  | mappedBuffer (buffer : MappedBuffer)
  | nothing

/-- One object in an overview. -/
structure ObjectLine where
  summary : ObjectSummary
  name : String
  shouldWait : Bool

/-- The answer of a step. -/
inductive Answer
  | done
  | nothing
  | noObject
  | flag (value : Bool)
  | word (word : UInt32)
  | words (words : List UInt32)
  | bytes (bytes : List UInt8)
  | text (text : String)
  | refused (refusal : Refusal)
  | stopped (stop : Stop)
  | header (header : Header)
  | opened (header : UInt32) (index : Nat)
  | popped (value : Popped) (index : Nat)
  | pushed (index : Nat)
  | processMade (processId : UInt32) (id : ObjectId)
  | threadMade (thread : Thread)
  | processInfo (process : Process)
  | threadInfo (thread : Thread) (processId : UInt32)
  | object (summary : ObjectSummary)
  | counted (summary : ObjectSummary)
  | sessionPair (server client : ObjectSummary)
  | described (summary : ObjectSummary) (text : String)
  | shown (object : KernelObject)
  | released (previous available : UInt32)
  | arena (size : Nat) (text : String)
  | entry (contained : Bool) (summary : ObjectSummary)
  | filled (created : Nat) (last : Option (Except Refusal Handle))
  | churned (last : Option (Except Refusal Handle))
  | resolved (id : Option ObjectId) (live : Bool)
  | table (live : Nat) (isEmpty : Bool) (text : String)
  | command (words : List UInt32) (text : String)
  | composed (answers : List Answer) (refusal : Option Refusal)
  | studied (answers : List Answer)
  | sent (handler : Option (List Answer)) (refusal : Option Refusal)
  | context (caller server : UInt32) (callerProcess serverProcess : UInt32)
  | state (objects : List ObjectLine) (size : Nat) (tables : List (String × Nat))

/-- A handle, or the error that stood in its way. -/
def Answer.ofHandle : Except HandleTableError Handle → Answer
  | .ok handle => .word handle.raw
  | .error error => .refused (.table error)

/-- The error of an outcome, if it is one. -/
def Refusal.ofOutcome? {ε : Type} (wrap : ε → Refusal) : Except ε Unit → Option Refusal
  | .ok () => none
  | .error error => some (wrap error)

/-- Nothing to say, or the error that stood in the way. -/
def Answer.ofOutcome {ε : Type} (wrap : ε → Refusal) (outcome : Except ε Unit) : Answer :=
  match Refusal.ofOutcome? wrap outcome with
  | none => .done
  | some refusal => .refused refusal

end MicrokernelIpc.Script
