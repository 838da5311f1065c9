import MicrokernelIpc.Kernel.Machine

/-!
# Counted references

Every holder of a reference is counted in the arena. Taking one more reference to an object
that is gone is a fault; letting the last one go destroys the object.
-/

namespace MicrokernelIpc

/-- Let an object into an arena. Gives the first reference to it. -/
def insertObject (key : Key Arena) (object : KernelObject) : Action ObjectRef := do
  let (id, arena) := (← arenaAt key).insert object
  note (.objectCreated object.kind id object.name)
  setArena key arena
  return ⟨key, id⟩

/-- Take one more reference. -/
def retain (ref : ObjectRef) : Action Unit := do
  match (← arenaAt ref.arena).retain ref.id with
  | some arena => setArena ref.arena arena
  | none => throw (.retainDestroyed ref.id)

/-- Let a reference go. With the last one the object is destroyed. -/
def release (ref : ObjectRef) : Action Unit := do
  let (destroyed, arena) := (← arenaAt ref.arena).release ref.id
  setArena ref.arena arena
  match destroyed with
  | some object => note (.objectDestroyed object.kind ref.id object.name)
  | none => return ()

/-- Let several references go, one after the other. -/
def releaseAll (refs : List ObjectRef) : Action Unit := refs.forM release

/-- The object that a reference or identifier names, if it is there. -/
def objectAt (ref : ObjectRef) : Action (Option KernelObject) := do
  return (← arenaAt ref.arena).object? ref.id

/-- Replace an object. -/
def setObject (ref : ObjectRef) (object : KernelObject) : Action Unit := do
  setArena ref.arena ((← arenaAt ref.arena).update ref.id fun _ => object)

end MicrokernelIpc
