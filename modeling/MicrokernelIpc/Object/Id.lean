import MicrokernelIpc.Text.Record

/-!
# Object identifiers

An object is named by the number it got when it entered its arena. Numbers are never given
twice, so one whose object is gone names nothing.
-/

namespace MicrokernelIpc

/-- The number of an object in its arena. -/
structure ObjectId where
  raw : UInt64
  deriving DecidableEq, Repr

/-- The identifier as a wrapped number. -/
def ObjectId.text (id : ObjectId) : String := Text.wrapped "ObjectId" (toString id.raw.toNat)

end MicrokernelIpc
