import MicrokernelIpc.BitField
import MicrokernelIpc.ResultCode

/-!
# Descriptors

The transfer region is a row of descriptors, each followed by its payload words. A
descriptor says what becomes of its payload when the command reaches another process:
handles are issued anew there, the process slot is filled in, buffer addresses are carried
through. This module holds the descriptors themselves and how a word is read as one.
-/

namespace MicrokernelIpc

/-- What the receiver may do with a mapped buffer. -/
inductive BufferPermission
  | read | write | readWrite
  deriving DecidableEq, Repr

namespace BufferPermission

/-- The number of a permission in a descriptor word. -/
def number : BufferPermission → Nat
  | .read => 1
  | .write => 2
  | .readWrite => 3

/-- The permission with a number, if there is one. -/
def ofNumber? : Nat → Option BufferPermission
  | 1 => some .read
  | 2 => some .write
  | 3 => some .readWrite
  | _ => none

/-- The name of a permission. -/
def text : BufferPermission → String
  | .read => "Read"
  | .write => "Write"
  | .readWrite => "ReadWrite"

theorem ofNumber?_number (permission : BufferPermission) :
    ofNumber? permission.number = some permission := by
  cases permission <;> rfl

end BufferPermission

/-- A descriptor of the transfer region. -/
inductive Descriptor
  /-- The receiver gets a handle of its own for each of `count` handles. -/
  | copyHandle (count : Nat)
  /-- The receiver gets a handle for each of `count` handles, and the sender loses its own. -/
  | moveHandle (count : Nat)
  /-- The payload word becomes the sender's process id. -/
  | callingPid
  /-- A buffer of the sender, meant for the receiver's static buffer `bufferId`. -/
  | staticBuffer (bufferId size : Nat)
  /-- A buffer of the sender that the receiver may use with `permission`. -/
  | mappedBuffer (size : Nat) (permission : BufferPermission)
  deriving DecidableEq, Repr

/-- A word that is no known descriptor. -/
structure UnsupportedDescriptor where
  word : UInt32
  deriving DecidableEq, Repr

namespace UnsupportedDescriptor

/-- The complaint about the word. -/
def message (error : UnsupportedDescriptor) : String :=
  "Unsupported descriptor " ++ Text.hexWord error.word.toNat

/-- The code that the guest sees. -/
def code (_ : UnsupportedDescriptor) : ResultCode := ResultCode.invalidBufferDescriptor

end UnsupportedDescriptor

namespace Descriptor

/-- The most handles that one descriptor can announce. -/
def maxHandles : Nat := 64

/-- Bits 0 to 3: the class of a descriptor. Zero is the class of handles. -/
def classField : BitField := ⟨0, 4⟩

/-- Bits 4 and 5 of a handle descriptor: copy, move or calling process. -/
def handleTypeField : BitField := ⟨4, 2⟩

/-- Bits 26 to 31 of a handle descriptor: one less than the number of handles. -/
def handleCountField : BitField := ⟨26, 6⟩

/-- Bits 10 to 13 of a static buffer descriptor: the receiver's buffer slot. -/
def bufferIdField : BitField := ⟨10, 4⟩

/-- Bits 14 to 31 of a static buffer descriptor: the size in bytes. -/
def staticSizeField : BitField := ⟨14, 18⟩

/-- Bits 1 and 2 of a mapped buffer descriptor: the permission. -/
def permissionField : BitField := ⟨1, 2⟩

/-- Bit 3, set in a mapped buffer descriptor. -/
def mappedField : BitField := ⟨3, 1⟩

/-- Bits 4 to 31 of a mapped buffer descriptor: the size in bytes. -/
def mappedSizeField : BitField := ⟨4, 28⟩

/-- The class number of static buffers. -/
def staticClass : Nat := 2

/-- The number of copied handles in the type field. -/
def copyType : Nat := 0

/-- The number of moved handles in the type field. -/
def moveType : Nat := 1

/-- The number of the calling process in the type field. -/
def callingPidType : Nat := 2

/-- A word of the handle class, by its type. -/
def decodeHandle (word : UInt32) : Except UnsupportedDescriptor Descriptor :=
  let count := handleCountField.read word + 1
  match handleTypeField.read word with
  | 0 => .ok (.copyHandle count)
  | 1 => .ok (.moveHandle count)
  | 2 => .ok .callingPid
  | _ => .error ⟨word⟩

/-- A word with the mapped bit, which needs a permission. -/
def decodeMapped (word : UInt32) : Except UnsupportedDescriptor Descriptor :=
  match BufferPermission.ofNumber? (permissionField.read word) with
  | some permission => .ok (.mappedBuffer (mappedSizeField.read word) permission)
  | none => .error ⟨word⟩

/-- The descriptor that a word holds. The handle class is tried first, then the mapped bit,
and last the static buffer; all other words are refused. -/
def decode (word : UInt32) : Except UnsupportedDescriptor Descriptor :=
  if classField.read word = 0 then decodeHandle word
  else if mappedField.read word = 1 then decodeMapped word
  else if classField.read word = staticClass then
    .ok (.staticBuffer (bufferIdField.read word) (staticSizeField.read word))
  else .error ⟨word⟩

/-- How many payload words follow the descriptor. -/
def payloadWords : Descriptor → Nat
  | .copyHandle count => count
  | .moveHandle count => count
  | .callingPid => 1
  | .staticBuffer _ _ => 1
  | .mappedBuffer _ _ => 1

/-- Whether the payload words are handles. -/
def isHandle : Descriptor → Bool
  | .copyHandle _ => true
  | .moveHandle _ => true
  | _ => false

/-- The descriptor as a record. -/
def text : Descriptor → String
  | .copyHandle count => Text.record "CopyHandle" [("count", toString count)]
  | .moveHandle count => Text.record "MoveHandle" [("count", toString count)]
  | .callingPid => "CallingPid"
  | .staticBuffer bufferId size =>
    Text.record "StaticBuffer" [("buffer_id", toString bufferId), ("size", toString size)]
  | .mappedBuffer size permission =>
    Text.record "MappedBuffer" [("size", toString size), ("permission", permission.text)]

end Descriptor

/-- A static buffer as taken from a command. -/
structure StaticBuffer where
  address : UInt32
  size : Nat
  bufferId : Nat
  deriving DecidableEq, Repr

/-- A mapped buffer as taken from a command. -/
structure MappedBuffer where
  address : UInt32
  size : Nat
  permission : BufferPermission
  deriving DecidableEq, Repr

/-- The mapped buffer as a record. -/
def MappedBuffer.text (buffer : MappedBuffer) : String :=
  Text.record "MappedBuffer"
    [("address", toString buffer.address.toNat), ("size", toString buffer.size),
     ("permission", buffer.permission.text)]

end MicrokernelIpc
