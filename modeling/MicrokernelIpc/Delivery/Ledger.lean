import MicrokernelIpc.Delivery.Region
import MicrokernelIpc.Kernel.Handles

/-!
# Handing handles over

A handle in a payload is looked up at the sender and issued anew at the receiver. A handle
that names nothing becomes zero. A moved handle stays open at the sender until the whole
command has arrived: what was issued and what is to be closed is kept in a ledger, which is
committed in the end or rolled back when something fails on the way.
-/

namespace MicrokernelIpc

/-- The handles issued to the receiver so far, and those the sender is to lose. -/
structure Ledger where
  created : List Handle
  moved : List Handle
  deriving DecidableEq

namespace Ledger

/-- The ledger of a delivery that has just begun. -/
def empty : Ledger := ⟨[], []⟩

/-- Enter a handle that was issued, and what it was issued for if the sender loses that.
Pseudo-handles are never lost. -/
def enter (ledger : Ledger) (issued handle : Handle) (moving : Bool) : Ledger where
  created := ledger.created ++ [issued]
  moved := if moving && !handle.isPseudo then ledger.moved ++ [handle] else ledger.moved

/-- Close everything that was issued to the receiver. -/
def rollback (ledger : Ledger) (receiver : TableKey) : Action Unit :=
  ledger.created.forM fun handle => do
    let _ ← (closeHandle receiver handle).run

/-- Close everything that the sender is to lose. -/
def commit (ledger : Ledger) (sender : TableKey) : Action Unit :=
  ledger.moved.forM fun handle => do
    match ← (closeHandle sender handle).run with
    | .ok () => return ()
    | .error _ => note (.movedHandleGone handle)

end Ledger

/-- The two sides of a delivery. -/
structure Route where
  sender : Thread
  receiver : Thread

namespace Route

/-- The handle table that handles are looked up in. -/
def senderTable (route : Route) : TableKey := .process route.sender.owner

/-- The handle table that handles are issued in. -/
def receiverTable (route : Route) : TableKey := .process route.receiver.owner

/-- A new reference to what a handle of the sender names. Pseudo-handles name the sending
thread and its process. -/
def resolve (route : Route) (handle : Handle) : Action (Option ObjectRef) := do
  match handle.pseudo? with
  | some .currentThread =>
    retain route.sender.object
    return some route.sender.object
  | some .currentProcess =>
    let process ← processAt route.sender.owner
    retain process.object
    return some process.object
  | none => if handle.isValid then acquireHandle route.senderTable handle else return none

/-- A new reference to what is handed over for a handle. A handle moved earlier in the same
command is gone already. -/
def lookUp (route : Route) (ledger : Ledger) (handle : Handle) : Action (Option ObjectRef) :=
  if ledger.moved.contains handle then return none else route.resolve handle

/-- Hand one handle over. Gives the word for the receiver. If the receiver's table is full,
the attempt ends with the ledger that has to be rolled back. -/
def handOver (route : Route) (moving : Bool) (ledger : Ledger) (handle : Handle) :
    Attempt Ledger (UInt32 × Ledger) := do
  match ← route.lookUp ledger handle with
  | none =>
    note (.handleUnresolved handle)
    return (Handle.invalid.raw, ledger)
  | some object =>
    match ← (createHandle route.receiverTable object).run with
    | .ok issued => return (issued.raw, ledger.enter issued handle moving)
    | .error _ =>
      note (.receiverFull handle)
      throw ledger

/-- Hand the handles of a payload over, one after the other. -/
def handOverAll (route : Route) (moving : Bool) (ledger : Ledger) :
    List UInt32 → Attempt Ledger (List UInt32 × Ledger)
  | [] => return ([], ledger)
  | word :: rest => do
    let (word, ledger) ← route.handOver moving ledger ⟨word⟩
    let (rest, ledger) ← route.handOverAll moving ledger rest
    return (word :: rest, ledger)

/-- Hand over the handles of the payload of an item. -/
def handOverPayload (route : Route) (moving : Bool) (buffer : CommandBuffer) (ledger : Ledger)
    (item : RegionItem) : Attempt Ledger (CommandBuffer × Ledger) := do
  let start := item.index + 1
  let payload ← (buffer.slice start item.stop : Action (List UInt32))
  let (words, ledger) ← route.handOverAll moving ledger payload
  let buffer ← (buffer.overwrite start words : Action CommandBuffer)
  return (buffer, ledger)

/-- Do what a descriptor says with its payload. -/
def carry (route : Route) (buffer : CommandBuffer) (ledger : Ledger) (item : RegionItem) :
    Attempt Ledger (CommandBuffer × Ledger) := do
  note (.descriptorMet item.descriptor item.index route.sender.threadId route.receiver.threadId)
  match item.descriptor with
  | .copyHandle _ => route.handOverPayload false buffer ledger item
  | .moveHandle _ => route.handOverPayload true buffer ledger item
  | .callingPid =>
    let process ← processAt route.sender.owner
    let buffer ← (buffer.setWord (item.index + 1) process.processId : Action CommandBuffer)
    return (buffer, ledger)
  | .staticBuffer .. => return (buffer, ledger)
  | .mappedBuffer .. => return (buffer, ledger)

/-- Do what every descriptor of a region says, in order. -/
def carryAll (route : Route) (buffer : CommandBuffer) (ledger : Ledger) :
    List RegionItem → Attempt Ledger (CommandBuffer × Ledger)
  | [] => return (buffer, ledger)
  | item :: rest => do
    let (buffer, ledger) ← route.carry buffer ledger item
    route.carryAll buffer ledger rest

end Route

end MicrokernelIpc
