import MicrokernelIpc.Proofs.Kernel.Calls

/-!
# Changes in different places

A call changes the arenas, one handle table or the memory of one process. Changes in different
places do not get in each other's way, and of two changes in one place the later one counts.
-/

namespace MicrokernelIpc

namespace Roster

variable {α : Type} {roster : Roster α} {key other : Key α} {value : α}

theorem modify_of_fixed {f : α → α}
    (fixed : ∀ value, roster.get? key = some value → f value = value) :
    roster.modify key f = roster := by
  refine ext_get? rfl fun place => ?_
  rw [get?_modify]
  split
  · next e =>
    subst e
    cases there : roster.get? key with
    | none => rfl
    | some value => simp [fixed value there]
  · rfl

theorem modify_eq_self {f : α → α} (h : roster.get? key = some value) (same : f value = value) :
    roster.modify key f = roster :=
  modify_of_fixed (by simp [h, same])

theorem modify_of_none {f : α → α} (h : roster.get? key = none) : roster.modify key f = roster :=
  modify_of_fixed (by simp [h])

theorem modify_modify (f g : α → α) :
    (roster.modify key f).modify key g = roster.modify key (g ∘ f) := by
  refine ext_get? rfl fun place => ?_
  simp only [get?_modify]
  split <;> simp

theorem modify_comm (h : key ≠ other) (f g : α → α) :
    (roster.modify key f).modify other g = (roster.modify other g).modify key f := by
  refine ext_get? rfl fun place => ?_
  simp only [get?_modify]
  by_cases first : key = place
  · have second : other ≠ place := by rintro rfl; exact h first
    simp [first, second]
  · simp [first]

end Roster

namespace World

variable {w w' : World} {key other : TableKey} {object : ObjectRef} {arenas : Roster Arena}
variable {table next : HandleTable} {place : Key Process} {process : Process}

/-! ## Arenas -/

/-- Replace all arenas. -/
def withArenas (w : World) (arenas : Roster Arena) : World := { w with arenas }

@[simp] theorem arenas_withArenas : (w.withArenas arenas).arenas = arenas := rfl

@[simp] theorem withArenas_withArenas (arenas' : Roster Arena) :
    (w.withArenas arenas).withArenas arenas' = w.withArenas arenas' := rfl

@[simp] theorem withArenas_self : w.withArenas w.arenas = w := rfl

@[simp] theorem table?_withArenas : (w.withArenas arenas).table? key = w.table? key := by
  cases key <;> rfl

@[simp] theorem setTable_withArenas :
    (w.withArenas arenas).setTable table key = (w.setTable table key).withArenas arenas := by
  cases key <;> rfl

theorem of_retain? (h : w.retain? object = some w') : w' = w.withArenas w'.arenas := by
  obtain ⟨_, _, _, _, rfl⟩ := exists_of_retain? h
  rfl

theorem of_release? (h : w.release? object = some w') : w' = w.withArenas w'.arenas := by
  obtain ⟨_, _, rfl⟩ := exists_of_release? h
  rfl

/-! ## Handle tables -/

@[simp] theorem setTable_setTable :
    (w.setTable table key).setTable next key = w.setTable next key := by
  cases key <;> simp only [setTable, Roster.modify_modify] <;> rfl

theorem setTable_comm (h : key ≠ other) :
    (w.setTable table key).setTable next other = (w.setTable next other).setTable table key := by
  cases key with
  | process key =>
    cases other with
    | process other =>
      have h : key ≠ other := by rintro rfl; exact h rfl
      simp only [setTable, Roster.modify_comm h]
    | standalone other => rfl
  | standalone key =>
    cases other with
    | process other => rfl
    | standalone other =>
      have h : key ≠ other := by rintro rfl; exact h rfl
      simp only [setTable, Roster.modify_comm h]

theorem setTable_self (found : w.table? key = some table) : w.setTable table key = w := by
  cases key with
  | process key =>
    obtain ⟨process, there, rfl⟩ := Option.map_eq_some_iff.1 found
    rw [setTable, Roster.modify_eq_self there rfl]
  | standalone key => rw [setTable, Roster.modify_eq_self found rfl]

theorem get?_processes_setTable (place : Key Process) :
    (w.setTable table key).processes.get? place
      = (w.processes.get? place).map fun process =>
          if key = .process place then { process with handles := table } else process := by
  cases key with
  | process key =>
    simp only [setTable, Roster.get?_modify, TableKey.process.injEq]
    split <;> simp
  | standalone key => simp [setTable]

/-! ## Threads -/

theorem threads_setTable : (w.setTable table key).threads = w.threads := by
  cases key <;> rfl

theorem threads_of_retain? (h : w.retain? object = some w') : w'.threads = w.threads := by
  rw [of_retain? h]
  rfl

theorem threads_of_release? (h : w.release? object = some w') : w'.threads = w.threads := by
  rw [of_release? h]
  rfl

/-! ## Processes -/

/-- The memory of a process. -/
def memory? (w : World) (place : Key Process) : Option AddressSpace :=
  (w.processes.get? place).map Process.memory

theorem memory?_of_process {process : Process} (found : w.processes.get? place = some process) :
    w.memory? place = some process.memory :=
  congrArg (Option.map Process.memory) found

@[simp] theorem memory?_setTable : (w.setTable table key).memory? place = w.memory? place := by
  rw [memory?, get?_processes_setTable, Option.map_map, memory?]
  congr 1
  funext process
  rw [Function.comp_apply]
  split <;> rfl

theorem memory?_of_retain? (h : w.retain? object = some w') :
    w'.memory? place = w.memory? place := by
  rw [of_retain? h]
  rfl

theorem memory?_of_release? (h : w.release? object = some w') :
    w'.memory? place = w.memory? place := by
  rw [of_release? h]
  rfl

theorem setProcess_self (found : w.processes.get? place = some process) :
    w.setProcess place process = w := by
  rw [setProcess, Roster.modify_eq_self found rfl]

theorem setProcess_setTable (h : key ≠ .process place) :
    (w.setProcess place process).setTable table key
      = (w.setTable table key).setProcess place process := by
  cases key with
  | process key =>
    have h : place ≠ key := by rintro rfl; exact h rfl
    simp only [setProcess, setTable, Roster.modify_comm h]
  | standalone key => rfl

theorem arenas_setProcess (place : Key Process) (process : Process) :
    (w.setProcess place process).arenas = w.arenas := rfl

theorem table?_setProcess (h : key ≠ .process place) :
    (w.setProcess place process).table? key = w.table? key := by
  cases key with
  | process key =>
    have h : place ≠ key := by rintro rfl; exact h rfl
    simp [table?, setProcess, Roster.get?_modify, h]
  | standalone key => rfl

/-- A process that keeps its handle table changes no table. -/
theorem table?_setProcess_of_handles {old : Process} (found : w.processes.get? place = some old)
    (same : process.handles = old.handles) : (w.setProcess place process).table? key = w.table? key := by
  by_cases apart : key = .process place
  · subst apart
    simp [table?, setProcess, Roster.get?_modify, found, same]
  · exact table?_setProcess apart

end World

end MicrokernelIpc
