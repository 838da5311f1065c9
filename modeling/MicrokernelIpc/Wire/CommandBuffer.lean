import MicrokernelIpc.Wire.Encoding

/-!
# Command buffers

A command travels in a buffer of 64 words, the header first. Words are reached by index or
by range, and an index or range outside the buffer is a fault: of a range the start is
looked at first.
-/

namespace MicrokernelIpc

/-- The 64 words of a command. -/
structure CommandBuffer where
  words : Vector UInt32 64
  deriving DecidableEq

namespace CommandBuffer

/-- How many words a command buffer has. -/
def size : Nat := 64

/-- The buffer of zeros. -/
def zero : CommandBuffer := ⟨Vector.replicate 64 0⟩

/-- All words of the buffer. -/
def toList (buffer : CommandBuffer) : List UInt32 := buffer.words.toList

/-- The word at an index. -/
def word (buffer : CommandBuffer) (index : Nat) : Except Fault UInt32 :=
  if h : index < 64 then .ok buffer.words[index]
  else .error (.indexOutOfBounds size index)

/-- A range of words has to lie inside the buffer. -/
def checkRange (start stop : Nat) : Except Fault Unit :=
  if size < start then .error (.rangeStart start size)
  else if size < stop then .error (.rangeEnd stop size)
  else .ok ()

/-- The words of a range. -/
def slice (buffer : CommandBuffer) (start stop : Nat) : Except Fault (List UInt32) := do
  checkRange start stop
  return (buffer.toList.drop start).take (stop - start)

/-- The buffer with the words from an index on replaced, no range checked. -/
def splice (buffer : CommandBuffer) (start : Nat) (words : List UInt32) : CommandBuffer :=
  ⟨Vector.ofFn fun i : Fin 64 =>
    if i.val < start then buffer.words[i] else words[i.val - start]?.getD buffer.words[i]⟩

/-- Replace the words from an index on. -/
def overwrite (buffer : CommandBuffer) (start : Nat) (words : List UInt32) :
    Except Fault CommandBuffer := do
  checkRange start (start + words.length)
  return buffer.splice start words

/-- Replace one word. -/
def setWord (buffer : CommandBuffer) (index : Nat) (word : UInt32) :
    Except Fault CommandBuffer :=
  if index < 64 then .ok (buffer.splice index [word])
  else .error (.indexOutOfBounds size index)

/-- The buffer that begins with the given words and is zero after them. -/
def ofList (words : List UInt32) : CommandBuffer := zero.splice 0 words

/-- The header of the command. -/
def header (buffer : CommandBuffer) : Header := Header.ofWord buffer.words[0]

/-- The command as a record: its header and the words it declares, as far as there are. -/
def text (buffer : CommandBuffer) : String :=
  let declared := buffer.toList.take buffer.header.totalSize
  Text.record "CommandBuffer"
    [("header", buffer.header.text),
     ("words", Text.sequence (declared.map fun word => toString word.toNat))]

/-- A splice replaces the words from its start on as far as it has words, and no other. -/
theorem getElem_splice (buffer : CommandBuffer) (start : Nat) (words : List UInt32) (index : Nat)
    (h : index < 64) :
    (buffer.splice start words).words[index]
      = if index < start then buffer.words[index]
        else words[index - start]?.getD buffer.words[index] := by
  simp [splice]

end CommandBuffer

end MicrokernelIpc
