import MicrokernelIpc.ResultCode

/-!
# Memory errors

An access to guest memory is refused when part of its range is not mapped, an access to a
block of fixed size when its range passes the end of the block.
-/

namespace MicrokernelIpc

/-- Why an access to memory was refused. -/
inductive MemoryError
  /-- No page is mapped at the address. -/
  | unmapped (address : Nat)
  /-- The range passes the end of a block. -/
  | outOfRange (offset length : Nat)
  deriving DecidableEq, Repr

namespace MemoryError

/-- The complaint about an access. -/
def message : MemoryError → String
  | .unmapped address => "Unmapped guest address " ++ Text.hexWord address
  | .outOfRange offset length =>
    "Access at offset " ++ Text.hex 1 offset ++ " of " ++ Text.hex 1 length
      ++ " bytes is out of range"

/-- The code that the guest sees. -/
def code (_ : MemoryError) : ResultCode := ResultCode.invalidAddress

end MemoryError

end MicrokernelIpc
