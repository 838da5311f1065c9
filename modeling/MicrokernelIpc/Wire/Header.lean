import MicrokernelIpc.BitField
import MicrokernelIpc.Text.Record

/-!
# Command headers

The first word of a command names the command and says how long its two regions are: the
normal region of plain parameters, and the transfer region of descriptors, whose words the
kernel looks at when the command crosses from one process into another.
-/

namespace MicrokernelIpc

/-- The header of a command: its identifier and the sizes of its regions in words. -/
structure Header where
  command : UInt16
  normal : Fin 64
  transfer : Fin 64
  deriving DecidableEq, Repr

namespace Header

/-- Bits 0 to 5: the size of the transfer region. -/
def transferField : BitField := ⟨0, 6⟩

/-- Bits 6 to 11: the size of the normal region. -/
def normalField : BitField := ⟨6, 6⟩

/-- Bits 16 to 31: the command's identifier. Bits 12 to 15 carry nothing. -/
def commandField : BitField := ⟨16, 16⟩

/-- The header that a word holds. -/
def ofWord (word : UInt32) : Header where
  command := UInt16.ofNat (commandField.read word)
  normal := ⟨normalField.read word, normalField.read_lt word⟩
  transfer := ⟨transferField.read word, transferField.read_lt word⟩

/-- The word that holds a header. -/
def toWord (header : Header) : UInt32 :=
  UInt32.ofNat (transferField.place header.transfer + normalField.place header.normal
    + commandField.place header.command.toNat)

/-- The words copied as they are: the header itself and the normal region. -/
def plainSize (header : Header) : Nat := 1 + header.normal

/-- All words of the command, the header included. -/
def totalSize (header : Header) : Nat := header.plainSize + header.transfer

theorem plainSize_le_totalSize (header : Header) : header.plainSize ≤ header.totalSize :=
  Nat.le_add_right _ _

/-- The header as a record. -/
def text (header : Header) : String :=
  Text.record "Header"
    [("translate_params_size", toString header.transfer.val),
     ("normal_params_size", toString header.normal.val),
     ("command_id", toString header.command.toNat)]

end Header

end MicrokernelIpc
