import MicrokernelIpc.BitField
import MicrokernelIpc.Text.Number
import MicrokernelIpc.Text.Record

/-!
# Result codes

Every call reports its outcome to the guest as one word: what happened (description), who
says so (module), the broad kind of outcome (summary) and how bad it is (level). Zero is
success, every other word is an error.
-/

namespace MicrokernelIpc

/-- A result word as the guest sees it. -/
structure ResultCode where
  raw : UInt32
  deriving DecidableEq, Repr

/-- Who reported an outcome. -/
inductive ErrorModule
  | common | kernel | util | fileServer | loaderServer | os | fs | hid | srv | soc
  | applet | cec | ir | application | invalidResult
  deriving DecidableEq, Repr

/-- The broad kind of an outcome. -/
inductive ErrorSummary
  | success | nothingHappened | wouldBlock | outOfResource | notFound | invalidState
  | notSupported | invalidArgument | wrongArgument | canceled | statusChanged
  | internal | invalidResultValue
  deriving DecidableEq, Repr

/-- How bad an outcome is. -/
inductive ErrorLevel
  | success | info | status | temporary | permanent | usage | reinit | reset | fatal
  deriving DecidableEq, Repr

/-- The number of a module in a result word. -/
def ErrorModule.number : ErrorModule → Nat
  | .common => 0
  | .kernel => 1
  | .util => 2
  | .fileServer => 3
  | .loaderServer => 4
  | .os => 6
  | .fs => 17
  | .hid => 19
  | .srv => 25
  | .soc => 28
  | .applet => 51
  | .cec => 66
  | .ir => 67
  | .application => 254
  | .invalidResult => 255

/-- The number of a summary in a result word. -/
def ErrorSummary.number : ErrorSummary → Nat
  | .success => 0
  | .nothingHappened => 1
  | .wouldBlock => 2
  | .outOfResource => 3
  | .notFound => 4
  | .invalidState => 5
  | .notSupported => 6
  | .invalidArgument => 7
  | .wrongArgument => 8
  | .canceled => 9
  | .statusChanged => 10
  | .internal => 11
  | .invalidResultValue => 63

/-- The number of a level in a result word. -/
def ErrorLevel.number : ErrorLevel → Nat
  | .success => 0
  | .info => 1
  | .status => 25
  | .temporary => 26
  | .permanent => 27
  | .usage => 28
  | .reinit => 29
  | .reset => 30
  | .fatal => 31

namespace ResultCode

/-- Bits 0 to 9: what happened. -/
def descriptionField : BitField := ⟨0, 10⟩

/-- Bits 10 to 17: who reported it. -/
def moduleField : BitField := ⟨10, 8⟩

/-- Bits 21 to 26: the broad kind of outcome. -/
def summaryField : BitField := ⟨21, 6⟩

/-- Bits 27 to 31: how bad it is. -/
def levelField : BitField := ⟨27, 5⟩

/-- The word of the given parts. Of the description only the bits of its field count. -/
def ofParts (description : Nat) (origin : ErrorModule) (summary : ErrorSummary)
    (level : ErrorLevel) : ResultCode :=
  ⟨UInt32.ofNat (descriptionField.place (description % descriptionField.capacity)
    + moduleField.place origin.number + summaryField.place summary.number
    + levelField.place level.number)⟩

/-- What happened. -/
def description (code : ResultCode) : Nat := descriptionField.read code.raw

/-- The number of the module that reported it. -/
def moduleNumber (code : ResultCode) : Nat := moduleField.read code.raw

/-- The number of the broad kind of outcome. -/
def summaryNumber (code : ResultCode) : Nat := summaryField.read code.raw

/-- The number of the level. -/
def levelNumber (code : ResultCode) : Nat := levelField.read code.raw

/-- The code of a call that succeeded. -/
def success : ResultCode := ⟨0⟩

/-- Only the zero word is success. -/
def isSuccess (code : ResultCode) : Bool := code == success

/-- Every word but zero is an error. -/
def isError (code : ResultCode) : Bool := !code.isSuccess

/-- Nothing on success, the code itself on an error. -/
def check (code : ResultCode) : Except ResultCode Unit :=
  if code.isSuccess then .ok () else .error code

/-- The code with its parts, as a record. -/
def text (code : ResultCode) : String :=
  Text.record "ResultCode"
    [("raw", Text.hexWord code.raw.toNat),
     ("description", toString code.description),
     ("module", toString code.moduleNumber),
     ("summary", toString code.summaryNumber),
     ("level", toString code.levelNumber)]

/-- The short text of a code that is reported as an error. -/
def errorMessage (code : ResultCode) : String :=
  Text.hexWord code.raw.toNat ++ " (module " ++ toString code.moduleNumber
    ++ ", description " ++ toString code.description ++ ")"

/-- The record text of a code that is reported as an error. -/
def errorText (code : ResultCode) : String := Text.wrapped "Error" code.text

end ResultCode

/-! ## Descriptions -/

namespace Description

/-! The descriptions that every module uses. -/

def invalidSection : Nat := 1000
def tooLarge : Nat := 1001
def notAuthorized : Nat := 1002
def alreadyDone : Nat := 1003
def invalidSize : Nat := 1004
def invalidEnumValue : Nat := 1005
def invalidCombination : Nat := 1006
def noData : Nat := 1007
def busy : Nat := 1008
def misalignedAddress : Nat := 1009
def misalignedSize : Nat := 1010
def outOfMemory : Nat := 1011
def notImplemented : Nat := 1012
def invalidAddress : Nat := 1013
def invalidPointer : Nat := 1014
def invalidHandle : Nat := 1015
def notInitialized : Nat := 1016
def alreadyInitialized : Nat := 1017
def notFound : Nat := 1018
def cancelRequested : Nat := 1019
def alreadyExists : Nat := 1020
def outOfRange : Nat := 1021
def timeout : Nat := 1022
def invalidResultValue : Nat := 1023

/-! The descriptions that only the kernel uses. -/

def outOfHandles : Nat := 19
def sessionClosedByRemote : Nat := 26
def portNameTooLong : Nat := 30
def wrongPermission : Nat := 46
def invalidBufferDescriptor : Nat := 48
def maxConnectionsReached : Nat := 52
def commandTooLarge : Nat := 54

end Description

/-! ## The codes this kernel reports -/

namespace ResultCode

/-- A command declares more words than a command buffer has, or a descriptor more payload
than the command carries. -/
def commandTooLarge : ResultCode := ofParts Description.commandTooLarge .os .invalidState .status

/-- The receiving handle table has no free slot. -/
def outOfHandles : ResultCode :=
  ofParts Description.outOfHandles .kernel .outOfResource .permanent

/-- A handle names no live entry of its table. -/
def invalidHandle : ResultCode :=
  ofParts Description.invalidHandle .kernel .invalidArgument .permanent

/-- A word of the transfer region is no known descriptor. -/
def invalidBufferDescriptor : ResultCode :=
  ofParts Description.invalidBufferDescriptor .os .invalidArgument .permanent

/-- An address is not mapped. -/
def invalidAddress : ResultCode := ofParts Description.invalidAddress .os .invalidArgument .usage

/-- A semaphore would pass its maximum. -/
def outOfRange : ResultCode := ofParts Description.outOfRange .kernel .invalidArgument .permanent

end ResultCode

end MicrokernelIpc
