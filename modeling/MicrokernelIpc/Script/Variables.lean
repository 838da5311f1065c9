import MicrokernelIpc.Script.Answer

/-!
# Names in scripts

A name is bound to something that the script holds: a process, a thread, a reference, a
handle table or an arena, or just the number of a handle. Binding a name again stores the
new value first and lets the old one go after that. What a step made and nothing is bound
to is let go after the step's answer. A step that works on a thread's command and binds
names meanwhile holds the thread to its end, so the thread outlives its own name.
-/

namespace MicrokernelIpc.Script

/-- What a name is bound to. -/
inductive Value
  | process (key : Key Process)
  | thread (key : Key Thread)
  | reference (ref : ObjectRef)
  | table (key : Key HandleTable)
  | arena (key : Key Arena)
  | handle (handle : Handle)

/-- The kernel's state and the names of a script. -/
structure ScriptState where
  machine : Machine
  names : Std.ExtTreeMap String Value

/-- The state in which a script begins. -/
def ScriptState.new : ScriptState := ⟨Machine.new, ∅⟩

/-- A part of a script being run. -/
abbrev Run := EStateM Stop ScriptState

instance : MonadLift Action Run where
  monadLift action := fun state =>
    match action state.machine with
    | .ok value machine => .ok value { state with machine }
    | .error fault machine => .error (.fault fault) { state with machine }

instance : MonadLift (Except Fault) Run where
  monadLift
    | .ok value => pure value
    | .error fault => throw (.fault fault)

/-- End the script because a step makes no sense where it stands. -/
def misuse {α : Type} (complaint : String) : Run α := throw (.misuse complaint)

/-- Let go of what a name was bound to. -/
def Value.discard : Value → Action Unit
  | .process key => releaseProcess key
  | .thread key => releaseThread key
  | .reference ref => release ref
  | .table key => discardTable key
  | .arena _ => return ()
  | .handle _ => return ()

/-- What a name is bound to. -/
def lookup (name : String) : Run Value := do
  match (← get).names[name]? with
  | some value => return value
  | none => misuse ("no variable " ++ name)

/-- Bind a name, then let its old value go. -/
def bindName (name : String) (value : Value) : Run Unit := do
  let old := (← get).names[name]?
  modify fun state => { state with names := state.names.insert name value }
  match old with
  | some old => old.discard
  | none => return ()

/-- Bind what a step made if it is given a name, else let it go. -/
def bindOrDiscard (name : Option String) (value : Value) : Run Unit :=
  match name with
  | some name => bindName name value
  | none => value.discard

/-- Take a name back. Gives its value, which is not let go. -/
def unbind (name : String) : Run Value := do
  let value ← lookup name
  modify fun state => { state with names := state.names.erase name }
  return value

/-- The process that a name is bound to. -/
def processNamed (name : String) : Run (Key Process) := do
  match ← lookup name with
  | .process key => return key
  | _ => misuse (name ++ " is no process")

/-- The thread that a name is bound to. -/
def threadNamed (name : String) : Run (Key Thread) := do
  match ← lookup name with
  | .thread key => return key
  | _ => misuse (name ++ " is no thread")

/-- The reference that a name is bound to; for a process or thread, that to its record. -/
def refNamed (name : String) : Run ObjectRef := do
  match ← lookup name with
  | .reference ref => return ref
  | .process key => return (← processAt key).object
  | .thread key => return (← threadAt key).object
  | _ => misuse (name ++ " is no reference")

/-- The handle table that a name is bound to; for a process, its own. -/
def tableNamed (name : String) : Run TableKey := do
  match ← lookup name with
  | .table key => return .standalone key
  | .process key => return .process key
  | _ => misuse (name ++ " is no handle table")

/-- The arena that a name is bound to; for a reference, that of its object. -/
def arenaNamed (name : String) : Run (Key Arena) := do
  match ← lookup name with
  | .arena key => return key
  | _ => return (← refNamed name).arena

/-- The arena of a name, or that of the current kernel. -/
def arenaOrCurrent : Option String → Run (Key Arena)
  | some name => arenaNamed name
  | none => return (← get).machine.world.kernel.arena

/-- Do something while a thread is held. The thread is let go also when the work stops. -/
def holdingThread {α : Type} (key : Key Thread) (work : Run α) : Run α := do
  holdThread key
  try work finally releaseThread key

/-- The number that a word of a script stands for. -/
def WordArg.value : WordArg → Run UInt32
  | .literal word => return word
  | .named name => do
    match ← lookup name with
    | .handle handle => return handle.raw
    | _ => misuse (name ++ " is no handle")

/-- The handle that a word of a script stands for. -/
def WordArg.handle (arg : WordArg) : Run Handle := do
  return ⟨← arg.value⟩

/-- The object that a step works on. -/
def ObjectArg.ref : ObjectArg → Run ObjectRef
  | .named name => refNamed name
  | .identified id => return ⟨← arenaOrCurrent none, id⟩

end MicrokernelIpc.Script
