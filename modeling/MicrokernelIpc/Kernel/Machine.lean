import MicrokernelIpc.Journal
import MicrokernelIpc.Process

/-!
# The state of the kernel

The world holds everything the kernel works on: the arenas, the processes and threads, and
handle tables that belong to no process. One kernel is current: it has an arena and counts
the identifiers it gives out. Beside the world stands the journal, which nothing depends on.
-/

namespace MicrokernelIpc

/-- A kernel: its arena and the next identifiers it gives out. -/
structure Kernel where
  arena : Key Arena
  nextProcessId : UInt32
  nextThreadId : UInt32
  nextSessionId : UInt32

/-- A kernel that gave out no identifier yet. -/
def Kernel.new (arena : Key Arena) : Kernel := ⟨arena, 0, 1, 1⟩

/-- A handle table: that of a process, or one of its own. -/
inductive TableKey
  | process (key : Key Process)
  | standalone (key : Key HandleTable)
  deriving DecidableEq

/-- Everything that the kernel works on. -/
structure World where
  arenas : Roster Arena
  kernel : Kernel
  processes : Roster Process
  threads : Roster Thread
  tables : Roster HandleTable

namespace World

/-- The world of a kernel with nothing in it. -/
def new : World :=
  let (arena, arenas) := Roster.empty.add Arena.empty
  ⟨arenas, Kernel.new arena, .empty, .empty, .empty⟩

/-- A handle table, if its process or itself is still there. -/
def table? (world : World) : TableKey → Option HandleTable
  | .process key => (world.processes.get? key).map Process.handles
  | .standalone key => world.tables.get? key

/-- Replace a handle table. -/
def setTable (world : World) (table : HandleTable) : TableKey → World
  | .process key =>
    { world with processes := world.processes.modify key fun p => { p with handles := table } }
  | .standalone key => { world with tables := world.tables.modify key fun _ => table }

/-- Replace an arena. -/
def setArena (world : World) (key : Key Arena) (arena : Arena) : World :=
  { world with arenas := world.arenas.modify key fun _ => arena }

/-- Replace a process. -/
def setProcess (world : World) (key : Key Process) (process : Process) : World :=
  { world with processes := world.processes.modify key fun _ => process }

/-- Replace a thread. -/
def setThread (world : World) (key : Key Thread) (thread : Thread) : World :=
  { world with threads := world.threads.modify key fun _ => thread }

end World

/-- The world and the journal of what happened. -/
structure Machine where
  world : World
  journal : Array Notice

/-- The machine of a new world. -/
def Machine.new : Machine := ⟨World.new, #[]⟩

/-- Something that the kernel does. -/
abbrev Action := Effect Machine

/-- Something that the kernel may refuse to do. -/
abbrev Attempt (ε : Type) := Refusable ε Machine

/-- Note something in the journal. -/
def note (notice : Notice) : Action Unit :=
  modify fun machine => { machine with journal := machine.journal.push notice }

/-- Change the world. -/
def modifyWorld (f : World → World) : Action Unit :=
  modify fun machine => { machine with world := f machine.world }

/-- A value that has to be there. -/
def present {α : Type} : Option α → Action α
  | some value => return value
  | none => throw .discarded

/-- An arena. -/
def arenaAt (key : Key Arena) : Action Arena := do
  present ((← get).world.arenas.get? key)

/-- A process that is still held. -/
def processAt (key : Key Process) : Action Process := do
  present ((← get).world.processes.get? key)

/-- A thread that is still held. -/
def threadAt (key : Key Thread) : Action Thread := do
  present ((← get).world.threads.get? key)

/-- A handle table that is still there. -/
def tableAt (key : TableKey) : Action HandleTable := do
  present ((← get).world.table? key)

/-- Replace an arena. -/
def setArena (key : Key Arena) (arena : Arena) : Action Unit :=
  modifyWorld fun world => world.setArena key arena

/-- Replace a process. -/
def setProcess (key : Key Process) (process : Process) : Action Unit :=
  modifyWorld fun world => world.setProcess key process

/-- Replace a thread. -/
def setThread (key : Key Thread) (thread : Thread) : Action Unit :=
  modifyWorld fun world => world.setThread key thread

/-- Replace a handle table. -/
def setTable (key : TableKey) (table : HandleTable) : Action Unit :=
  modifyWorld fun world => world.setTable table key

end MicrokernelIpc
