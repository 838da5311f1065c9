import MicrokernelIpc.Handle
import MicrokernelIpc.Object.Basic
import MicrokernelIpc.Object.Id
import MicrokernelIpc.Wire.Descriptor

/-!
# The journal

The kernel notes what it does: objects that come and go, handles that are issued and
closed, commands that are delivered or refused. A notice is kept as data; its level and its
text are given here.
-/

namespace MicrokernelIpc

/-- How much a notice matters. -/
inductive NoticeLevel
  | trace | debug | warn | error
  deriving DecidableEq, Repr

/-- Something that the kernel notes. -/
inductive Notice
  | objectCreated (kind : ObjectKind) (id : ObjectId) (name : String)
  | objectDestroyed (kind : ObjectKind) (id : ObjectId) (name : String)
  | processCreated (processId : UInt32) (name : String)
  | threadCreated (threadId : UInt32) (name : String) (processId tlsAddress : UInt32)
  | handleCreated (handle : Handle) (id : ObjectId)
  | tableFull (id : ObjectId)
  | handleClosed (handle : Handle) (id : ObjectId)
  | unknownHandleClosed (handle : Handle)
  | tableCleared (count : Nat)
  | commandTooLong (command : UInt16) (threadId : UInt32) (words : Nat)
  | unsupportedDescriptor (error : UnsupportedDescriptor) (index : Nat)
  | payloadTooLong (descriptor : Descriptor) (index needed size : Nat)
  | descriptorMet (descriptor : Descriptor) (index : Nat) (source target : UInt32)
  | handleUnresolved (handle : Handle)
  | receiverFull (handle : Handle)
  | movedHandleGone (handle : Handle)
  | requestReceived (client server : UInt32) (command : UInt16)
  deriving DecidableEq

/-- The name of a level. -/
def NoticeLevel.text : NoticeLevel → String
  | .trace => "TRACE"
  | .debug => "DEBUG"
  | .warn => "WARN"
  | .error => "ERROR"

namespace Notice

/-- How much a notice matters. -/
def level : Notice → NoticeLevel
  | .tableFull _ => .warn
  | .commandTooLong .. => .warn
  | .unsupportedDescriptor .. => .error
  | .payloadTooLong .. => .warn
  | .descriptorMet .. => .trace
  | .handleUnresolved _ => .trace
  | .receiverFull _ => .warn
  | .movedHandleGone _ => .warn
  | _ => .debug

/-- A command identifier: at least four hexadecimal digits. -/
def commandText (command : UInt16) : String := Text.hex 4 command.toNat

/-- An object as a notice names it. -/
def objectText (kind : ObjectKind) (id : ObjectId) (name : String) : String :=
  kind.text ++ " object " ++ id.text ++ " (" ++ name ++ ")"

/-- What a notice says. -/
def message : Notice → String
  | .objectCreated kind id name => "Creating " ++ objectText kind id name
  | .objectDestroyed kind id name => "Destroying " ++ objectText kind id name
  | .processCreated processId name =>
    "Created process " ++ toString processId.toNat ++ " (" ++ name ++ ")"
  | .threadCreated threadId name processId tlsAddress =>
    "Created thread " ++ toString threadId.toNat ++ " (" ++ name ++ ") in process "
      ++ toString processId.toNat ++ " with TLS at " ++ Text.hexWord tlsAddress.toNat
  | .handleCreated handle id => "Created handle " ++ handle.display ++ " for object " ++ id.text
  | .tableFull id => "Handle table full, cannot create handle for object " ++ id.text
  | .handleClosed handle id => "Closed handle " ++ handle.display ++ " (object " ++ id.text ++ ")"
  | .unknownHandleClosed handle => "Close of invalid handle " ++ handle.display
  | .tableCleared count => "Cleared handle table (" ++ toString count ++ " handles)"
  | .commandTooLong command threadId words =>
    "Command " ++ commandText command ++ " from thread " ++ toString threadId.toNat
      ++ " declares " ++ toString words ++ " words"
  | .unsupportedDescriptor error index => error.message ++ " at word " ++ toString index
  | .payloadTooLong descriptor index needed size =>
    descriptor.text ++ " at word " ++ toString index ++ " needs " ++ toString needed
      ++ " words, command has " ++ toString size
  | .descriptorMet descriptor index source target =>
    "Translating " ++ descriptor.text ++ " at word " ++ toString index ++ " ("
      ++ toString source.toNat ++ " -> " ++ toString target.toNat ++ ")"
  | .handleUnresolved handle => "Handle " ++ handle.display ++ " resolves to no object"
  | .receiverFull handle =>
    "Destination table full while translating handle " ++ handle.display
  | .movedHandleGone handle =>
    "Moved handle " ++ handle.display ++ " was closed during translation"
  | .requestReceived client server command =>
    "Thread " ++ toString client.toNat ++ " -> thread " ++ toString server.toNat
      ++ ": command " ++ commandText command

/-- A notice as a line: its level and what it says. -/
def line (notice : Notice) : String := notice.level.text ++ " " ++ notice.message

end Notice

end MicrokernelIpc
