import MicrokernelIpc.Text.Number
import MicrokernelIpc.Text.Record

/-!
# Handles

A handle is a process's own name for a kernel object; it means something only in the table
that issued it. Zero names nothing. Two values never come from a table: the pseudo-handles,
which stand for whoever made the call.
-/

namespace MicrokernelIpc

/-- A handle as it stands in a command word. -/
structure Handle where
  raw : UInt32
  deriving DecidableEq, Repr

/-- A handle that stands for the caller. -/
inductive PseudoHandle
  /-- The thread that makes the call. -/
  | currentThread
  /-- The process of that thread. -/
  | currentProcess
  deriving DecidableEq, Repr

namespace Handle

/-- The handle that names nothing. -/
def invalid : Handle := ⟨0⟩

/-- The value that stands for the calling thread. -/
def currentThread : Handle := ⟨0xFFFF8000⟩

/-- The value that stands for the calling process. -/
def currentProcess : Handle := ⟨0xFFFF8001⟩

/-- Whether the handle is not zero. -/
def isValid (handle : Handle) : Bool := handle != invalid

/-- The pseudo-handle with this value, if it is one. -/
def pseudo? (handle : Handle) : Option PseudoHandle :=
  if handle = currentThread then some .currentThread
  else if handle = currentProcess then some .currentProcess
  else none

/-- Whether the handle stands for the caller. -/
def isPseudo (handle : Handle) : Bool := handle.pseudo?.isSome

/-- The handle in hexadecimal. -/
def display (handle : Handle) : String := Text.hexWord handle.raw.toNat

/-- The handle as a wrapped decimal number. -/
def text (handle : Handle) : String := Text.wrapped "Handle" (toString handle.raw.toNat)

end Handle

/-- The reserved value of a pseudo-handle. -/
def PseudoHandle.handle : PseudoHandle → Handle
  | .currentThread => Handle.currentThread
  | .currentProcess => Handle.currentProcess

theorem Handle.pseudo?_eq_some_iff {handle : Handle} {pseudo : PseudoHandle} :
    handle.pseudo? = some pseudo ↔ handle = pseudo.handle := by
  unfold Handle.pseudo?
  cases pseudo <;> simp only [PseudoHandle.handle] <;> split
  · simp_all
  · simp_all
  · rename_i h
    subst h
    decide
  · simp_all

theorem Handle.pseudo?_handle (pseudo : PseudoHandle) : pseudo.handle.pseudo? = some pseudo :=
  Handle.pseudo?_eq_some_iff.2 rfl

end MicrokernelIpc
