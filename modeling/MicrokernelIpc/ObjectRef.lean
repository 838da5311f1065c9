import MicrokernelIpc.Arena
import MicrokernelIpc.Roster

/-!
# References

A reference names an object and the arena it lives in. Whoever holds one is counted there.
-/

namespace MicrokernelIpc

/-- A counted reference to an object of an arena. -/
structure ObjectRef where
  arena : Key Arena
  id : ObjectId
  deriving DecidableEq

/-- The reference as a wrapped identifier. -/
def ObjectRef.text (ref : ObjectRef) : String := Text.wrapped "ObjectRef" ref.id.text

end MicrokernelIpc
