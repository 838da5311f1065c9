import MicrokernelIpc.Delivery.Ledger
import MicrokernelIpc.Kernel.Memory

/-!
# Delivering commands

A command is delivered from the memory of one thread's process into that of another's. The
plain words arrive as they are; the transfer region is carried over descriptor by
descriptor. Delivery is all or nothing: the whole region is cut before any handle table is
touched, handles that were issued are closed again when a later step fails, and moved
handles are closed at the sender only once the command has arrived.
-/

namespace MicrokernelIpc

/-- Access the memory of a process in the course of a delivery. -/
def accessForDelivery {α : Type} (key : Key Process) (access : MemoryAccess α) :
    Attempt DeliveryError α :=
  (accessMemory key access).adapt DeliveryError.memory

/-- A command as it stands in the sender's memory, with its header. -/
def fetchCommand (sender : Thread) (address : UInt32) :
    Attempt DeliveryError (Header × CommandBuffer) := do
  let header := Header.ofWord (← accessForDelivery sender.owner (MemoryAccess.readWord address))
  if CommandBuffer.size < header.totalSize then
    note (.commandTooLong header.command sender.threadId header.totalSize)
    throw .commandTooLarge
  let words ←
    accessForDelivery sender.owner (MemoryAccess.readWords address header.totalSize)
  let buffer ← (CommandBuffer.zero.overwrite 0 words : Action CommandBuffer)
  return (header, buffer)

/-- The descriptors of a command's transfer region. -/
def cutRegion (header : Header) (buffer : CommandBuffer) :
    Attempt DeliveryError (List RegionItem) := do
  let region : Except RegionError (List RegionItem) ←
    ((RegionItem.ofRegion buffer header.plainSize header.totalSize).run : Action _)
  match region with
  | .ok items => return items
  | .error error =>
    note error.notice
    throw error.deliveryError

/-- A command on its way: whom it goes between, the handles issued for it so far, and the
words for the receiver, unless the receiver's table had no room for them. -/
structure Carriage where
  route : Route
  ledger : Ledger
  words : Option (List UInt32)

/-- Take a command up from an address of one thread's process for another thread. Handles
are issued to the receiver, none is closed yet. -/
def pickUp (source target : Key Thread) (sourceAddress : UInt32) :
    Attempt DeliveryError Carriage := do
  let route : Route := ⟨← threadAt source, ← threadAt target⟩
  let (header, buffer) ← fetchCommand route.sender sourceAddress
  let items ← cutRegion header buffer
  match ← ((route.carryAll buffer Ledger.empty items).run : Action _) with
  | .ok (buffer, ledger) =>
    let words ← (buffer.slice 0 header.totalSize : Action (List UInt32))
    return ⟨route, ledger, some words⟩
  | .error ledger => return ⟨route, ledger, none⟩

/-- Bring a carriage to its end: write its words for the receiver and close what the sender
is to lose, or close again what was issued to the receiver. -/
def Carriage.settle (carriage : Carriage) (targetAddress : UInt32) :
    Attempt DeliveryError Unit := do
  let route := carriage.route
  match carriage.words with
  | none =>
    carriage.ledger.rollback route.receiverTable
    throw .outOfHandles
  | some words =>
    match ← (accessMemory route.receiver.owner (.writeWords targetAddress words)).run with
    | .ok () => carriage.ledger.commit route.senderTable
    | .error error =>
      carriage.ledger.rollback route.receiverTable
      throw (.memory error)

/-- Deliver the command at an address of one thread's process to an address of another's. -/
def deliver (source target : Key Thread) (sourceAddress targetAddress : UInt32) :
    Attempt DeliveryError Unit := do
  (← pickUp source target sourceAddress).settle targetAddress

/-- Deliver the command in one thread's command buffer to another's. -/
def deliverBetween (source target : Key Thread) : Attempt DeliveryError Unit := do
  let sourceAddress := (← threadAt source).commandBufferAddress
  let targetAddress := (← threadAt target).commandBufferAddress
  deliver source target sourceAddress targetAddress

end MicrokernelIpc
