import MicrokernelIpc.Memory.Error

/-!
# Shared memory

A block of shared memory owns its bytes and says what its owner and what others may do with
it. An access has to lie inside the block.
-/

namespace MicrokernelIpc

/-- What may be done with a block of memory, as a set of bits. -/
structure MemoryPermission where
  bits : UInt32
  deriving DecidableEq, Repr

namespace MemoryPermission

/-- The block may be read. -/
def read : MemoryPermission := ⟨1⟩

/-- The block may be written. -/
def write : MemoryPermission := ⟨2⟩

/-- The block may be executed. -/
def execute : MemoryPermission := ⟨4⟩

/-- The side that maps the block chooses. -/
def dontCare : MemoryPermission := ⟨0x10000000⟩

/-- Everything that one of two permissions allows. -/
def union (a b : MemoryPermission) : MemoryPermission := ⟨a.bits ||| b.bits⟩

/-- The block may be read and written. -/
def readWrite : MemoryPermission := union read write

/-- Everything that one of several permissions allows. -/
def ofList (permissions : List MemoryPermission) : MemoryPermission :=
  permissions.foldl union ⟨0⟩

end MemoryPermission

/-- A named block of bytes that several processes may use. -/
structure SharedMemory where
  name : String
  owner : MemoryPermission
  other : MemoryPermission
  bytes : Array UInt8
  deriving DecidableEq

namespace SharedMemory

/-- A new block of zeros. -/
def new (name : String) (size : Nat) (owner other : MemoryPermission) : SharedMemory :=
  ⟨name, owner, other, Array.replicate size 0⟩

/-- The bytes of a range. -/
def load (block : SharedMemory) (offset length : Nat) : Except MemoryError (List UInt8) :=
  if offset + length ≤ block.bytes.size then
    .ok (block.bytes.extract offset (offset + length)).toList
  else .error (.outOfRange offset length)

/-- Replace the bytes of a range. -/
def store (block : SharedMemory) (offset : Nat) (data : List UInt8) :
    Except MemoryError SharedMemory :=
  if offset + data.length ≤ block.bytes.size then
    let before := block.bytes.extract 0 offset
    let after := block.bytes.extract (offset + data.length) block.bytes.size
    .ok { block with bytes := before ++ data.toArray ++ after }
  else .error (.outOfRange offset data.length)

end SharedMemory

end MicrokernelIpc
