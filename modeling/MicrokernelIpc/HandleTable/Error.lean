import MicrokernelIpc.Handle
import MicrokernelIpc.ResultCode

/-!
# Handle table errors

A handle table refuses handles that name nothing, and new handles once every slot is taken.
-/

namespace MicrokernelIpc

/-- Why a handle table refused an operation. -/
inductive HandleTableError
  /-- The handle names no live entry. -/
  | notFound (handle : Handle)
  /-- Every slot is taken. -/
  | outOfHandles
  deriving DecidableEq, Repr

namespace HandleTableError

/-- The complaint of the table. -/
def message : HandleTableError → String
  | .notFound handle => "Handle " ++ handle.display ++ " not found"
  | .outOfHandles => "Out of handles"

/-- The code that the guest sees. -/
def code : HandleTableError → ResultCode
  | .notFound _ => ResultCode.invalidHandle
  | .outOfHandles => ResultCode.outOfHandles

end HandleTableError

end MicrokernelIpc
