import MicrokernelIpc.Kernel.References

/-!
# Issuing and closing handles

Each entry of a handle table holds one reference. Creating a handle hands a reference over
to the table, duplicating one takes another reference, closing one lets the entry's
reference go and leaves every other holder alone.
-/

namespace MicrokernelIpc

/-- Issue a handle for a reference, which goes over to the table. If the table is full the
reference is let go. -/
def createHandle (key : TableKey) (object : ObjectRef) : Attempt HandleTableError Handle := do
  match (← tableAt key).allocate object with
  | some (handle, table) =>
    setTable key table
    note (.handleCreated handle object.id)
    return handle
  | none =>
    release object
    note (.tableFull object.id)
    throw .outOfHandles

/-- Issue a second handle for the object that a handle names. -/
def duplicateHandle (key : TableKey) (handle : Handle) : Attempt HandleTableError Handle := do
  match (← tableAt key).resolve handle with
  | none => throw (.notFound handle)
  | some object =>
    retain object
    match (← tableAt key).allocate object with
    | some (copy, table) =>
      setTable key table
      return copy
    | none =>
      release object
      throw .outOfHandles

/-- Take the reference that a handle names out of the table. -/
def takeHandle (key : TableKey) (handle : Handle) : Action (Option ObjectRef) := do
  match (← tableAt key).take handle with
  | some (object, table) =>
    setTable key table
    return some object
  | none => return none

/-- Close a handle and let its reference go. -/
def closeHandle (key : TableKey) (handle : Handle) : Attempt HandleTableError Unit := do
  match ← takeHandle key handle with
  | some object =>
    note (.handleClosed handle object.id)
    release object
  | none =>
    note (.unknownHandleClosed handle)
    throw (.notFound handle)

/-- A new reference to the object that a handle names. -/
def acquireHandle (key : TableKey) (handle : Handle) : Action (Option ObjectRef) := do
  match (← tableAt key).resolve handle with
  | some object =>
    retain object
    return some object
  | none => return none

/-- Close every handle of a table, in the order of the slots. -/
def clearTable (key : TableKey) : Action Unit := do
  let (objects, table) := (← tableAt key).clear
  setTable key table
  note (.tableCleared objects.length)
  releaseAll objects

/-- Make a handle table that belongs to no process. -/
def newTable : Action (Key HandleTable) := do
  let (key, tables) := (← get).world.tables.add HandleTable.empty
  modifyWorld fun world => { world with tables }
  return key

/-- Discard a handle table that belongs to no process, with the references it holds. -/
def discardTable (key : Key HandleTable) : Action Unit := do
  let table ← tableAt (.standalone key)
  modifyWorld fun world => { world with tables := world.tables.remove key }
  releaseAll table.objects

end MicrokernelIpc
