import MicrokernelIpc.Script.Variables

/-!
# Working on a command buffer

The steps on a command buffer have one buffer before them, and at most one reader or writer
at work on it. Opening another one, or looking at the buffer as a whole, ends the work of
the one before.
-/

namespace MicrokernelIpc.Script

/-- A command buffer and who is at work on it. -/
inductive Desk
  | idle (buffer : CommandBuffer)
  | reading (reader : RequestReader)
  | writing (writer : RequestWriter)

namespace Desk

/-- The buffer as it stands. -/
def buffer : Desk → CommandBuffer
  | .idle buffer => buffer
  | .reading reader => reader.buffer
  | .writing writer => writer.buffer

/-- Have the reader at work do something. -/
def read (desk : Desk) (reading : Reading Popped) : Run (Answer × Desk) := do
  match desk with
  | .reading reader =>
    let (value, reader) ← reading.runFrom reader
    return (.popped value reader.index, .reading reader)
  | _ => misuse "no reader is at work"

/-- Have the writer at work do something. -/
def write (desk : Desk) (writing : Writing Unit) : Run (Answer × Desk) := do
  match desk with
  | .writing writer =>
    let ((), writer) ← writing.runFrom writer
    return (.pushed writer.index, .writing writer)
  | _ => misuse "no writer is at work"

/-- A desk at which a command was just begun. -/
def begun (writer : RequestWriter) : Answer × Desk :=
  (.opened writer.header.toWord writer.index, .writing writer)

/-- Do one step. -/
def run (desk : Desk) : BufferStep → Run (Answer × Desk)
  | .parse command normal transfer => do
    let reader ← RequestReader.start desk.buffer command normal transfer
    return (.opened reader.header.toWord reader.index, .reading reader)
  | .build command normal transfer =>
    return begun (← RequestWriter.start desk.buffer command normal transfer)
  | .reply normal transfer => do
    match desk with
    | .reading reader => return begun (← reader.reply normal transfer)
    | _ => misuse "no reader is at work"
  | .words => return (.words desk.buffer.toList, .idle desk.buffer)
  | .header => return (.header desk.buffer.header, .idle desk.buffer)
  | .describe => return (.text desk.buffer.text, .idle desk.buffer)
  | .setWords start words => do
    let buffer ← desk.buffer.overwrite start (← words.mapM WordArg.value)
    return (.done, .idle buffer)
  | .pop kind => desk.read do return .param (← RequestReader.pop kind)
  | .popPid => desk.read do return .word (← RequestReader.popPid)
  | .popHandles names => do
    let (answer, desk) ← desk.read do return .handles (← RequestReader.popHandles)
    match answer with
    | .popped (.handles handles) _ =>
      (names.zip handles).forM fun (name, handle) => bindName name (.handle handle)
    | _ => pure ()
    return (answer, desk)
  | .popHandle name => do
    let (answer, desk) ← desk.read do return .handles [← RequestReader.popHandle]
    match answer, name with
    | .popped (.handles [handle]) index, some name =>
      bindName name (.handle handle)
      return (.popped (.word handle.raw) index, desk)
    | .popped (.handles [handle]) index, none =>
      return (.popped (.word handle.raw) index, desk)
    | answer, _ => return (answer, desk)
  | .popStaticBuffer => desk.read do return .staticBuffer (← RequestReader.popStaticBuffer)
  | .popMappedBuffer => desk.read do return .mappedBuffer (← RequestReader.popMappedBuffer)
  | .expectMappedBuffer size permission =>
    desk.read do return .word (← RequestReader.expectMappedBuffer size permission)
  | .skip count clear => desk.read do
    RequestReader.skip count clear
    return .nothing
  | .push param => desk.write (RequestWriter.push param)
  | .pushWord word => do
    desk.write (RequestWriter.pushWord (← word.value))
  | .pushCopyHandles handles => do
    desk.write (RequestWriter.pushCopyHandles (← handles.mapM WordArg.handle))
  | .pushMoveHandles handles => do
    desk.write (RequestWriter.pushMoveHandles (← handles.mapM WordArg.handle))
  | .pushCallingPid => desk.write RequestWriter.pushCallingPid
  | .pushStaticBuffer buffer => desk.write (RequestWriter.pushStaticBuffer buffer)
  | .pushMappedBuffer buffer => desk.write (RequestWriter.pushMappedBuffer buffer)

end Desk

end MicrokernelIpc.Script
