import MicrokernelIpc.Fault

/-!
# Writing headers and descriptors

Every header and descriptor word can be read, but not every value can be written: sizes,
counts and buffer slots have to fit their fields. Fields are checked one after the other,
and the first that does not fit is the one that is blamed.
-/

namespace MicrokernelIpc

/-- The header of a command with the given sizes. The normal size is checked first. -/
def Header.make (command : UInt16) (normal transfer : Nat) : Except Fault Header :=
  if hn : normal < 64 then
    if ht : transfer < 64 then .ok ⟨command, ⟨normal, hn⟩, ⟨transfer, ht⟩⟩
    else .error (.fieldOutOfBounds .headerTransfer)
  else .error (.fieldOutOfBounds .headerNormal)

namespace Descriptor

/-- A handle descriptor announces between one and 64 handles. -/
def checkCount (count : Nat) : Except Fault Unit :=
  if 1 ≤ count ∧ count ≤ maxHandles then .ok () else .error (.handleCount count)

/-- A value that has to fit its field. -/
def checkField (field : BitField) (name : PackedField) (value : Nat) : Except Fault Unit :=
  if field.fits value then .ok () else .error (.fieldOutOfBounds name)

/-- The descriptor of `count` copied handles. -/
def copyHandles (count : Nat) : Except Fault Descriptor := do
  checkCount count
  return .copyHandle count

/-- The descriptor of `count` moved handles. -/
def moveHandles (count : Nat) : Except Fault Descriptor := do
  checkCount count
  return .moveHandle count

/-- The word of a handle descriptor. -/
def handleWord (type count : Nat) : UInt32 :=
  UInt32.ofNat (handleTypeField.place type + handleCountField.place (count - 1))

/-- The word of a static buffer descriptor. -/
def staticWord (bufferId size : Nat) : UInt32 :=
  UInt32.ofNat (classField.place staticClass + bufferIdField.place bufferId
    + staticSizeField.place size)

/-- The word of a mapped buffer descriptor. -/
def mappedWord (size : Nat) (permission : BufferPermission) : UInt32 :=
  UInt32.ofNat (permissionField.place permission.number + mappedField.place 1
    + mappedSizeField.place size)

/-- The word that holds a descriptor, if every part fits its field. -/
def encode : Descriptor → Except Fault UInt32
  | .copyHandle count => do
    checkCount count
    return handleWord copyType count
  | .moveHandle count => do
    checkCount count
    return handleWord moveType count
  | .callingPid => return handleWord callingPidType 1
  | .staticBuffer bufferId size => do
    checkField bufferIdField .staticBufferId bufferId
    checkField staticSizeField .staticSize size
    return staticWord bufferId size
  | .mappedBuffer size permission => do
    checkField mappedSizeField .mappedSize size
    return mappedWord size permission

end Descriptor

end MicrokernelIpc
