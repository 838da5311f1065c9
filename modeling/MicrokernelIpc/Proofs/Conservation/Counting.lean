import Mathlib.Algebra.Order.BigOperators.Group.Finset
import MicrokernelIpc.Proofs.Kernel.Calls

/-!
# Counting the references to an object

References stand in three places of a world: in processes and threads, each with its record,
and in handle tables. Counted together with those that the callers hold, they are what an
arena's count has to agree with. Each change of the world is shown here to move references
from one place to another, to make one or to lose one.
-/

namespace MicrokernelIpc

namespace Roster

variable {α : Type} {roster other : Roster α} {key : Key α} {value : α}

/-- A number summed over the values of a roster. -/
def total (roster : Roster α) (f : α → Nat) : Nat :=
  ∑ index ∈ Finset.range roster.next, ((roster.get? ⟨index⟩).map f).getD 0

theorem index_lt_next (h : roster.get? key = some value) : key.index < roster.next := by
  by_contra hn
  simp [roster.get?_fresh (not_lt.1 hn)] at h

@[simp] theorem total_empty (f : α → Nat) : (empty : Roster α).total f = 0 :=
  rfl

theorem total_add (value : α) (f : α → Nat) :
    (roster.add value).2.total f = roster.total f + f value := by
  show ∑ index ∈ Finset.range (roster.next + 1), _ = _
  rw [Finset.sum_range_succ]
  congr 1
  · apply Finset.sum_congr rfl
    intro index h
    have : roster.next ≠ index := (Finset.mem_range.1 h).ne'
    rw [get?_add]
    simp [add, this]
  · rw [get?_add]
    simp [add]

/-- A change under one key changes the sum by what that key adds to it. -/
theorem total_of_agree (next : other.next = roster.next) (h : key.index < roster.next)
    (agree : ∀ k, k ≠ key → other.get? k = roster.get? k) (f : α → Nat) :
    other.total f + ((roster.get? key).map f).getD 0
      = roster.total f + ((other.get? key).map f).getD 0 := by
  obtain ⟨place⟩ := key
  replace h : place < roster.next := h
  unfold total
  rw [next, ← Finset.add_sum_erase _ _ (Finset.mem_range.2 h),
    ← Finset.add_sum_erase (Finset.range roster.next) _ (Finset.mem_range.2 h)]
  have rest : ∀ index ∈ (Finset.range roster.next).erase place,
      ((other.get? ⟨index⟩).map f).getD 0 = ((roster.get? ⟨index⟩).map f).getD 0 := by
    intro index hi
    rw [agree]
    rintro ⟨rfl⟩
    simp at hi
  simp only [Finset.sum_congr rfl rest]
  omega

theorem total_modify (h : roster.get? key = some value) (g : α → α) (f : α → Nat) :
    (roster.modify key g).total f + f value = roster.total f + f (g value) := by
  have agree : ∀ k, k ≠ key → (roster.modify key g).get? k = roster.get? k := by
    intro k hk
    simp [get?_modify, Ne.symm hk]
  have next : (roster.modify key g).next = roster.next := rfl
  have := total_of_agree next (index_lt_next h) agree f
  simpa [get?_modify, h] using this

theorem total_le_total {f g : α → Nat} (le : ∀ value, f value ≤ g value) (roster : Roster α) :
    roster.total f ≤ roster.total g := by
  apply Finset.sum_le_sum
  intro index _
  cases roster.get? ⟨index⟩ with
  | none => exact le_rfl
  | some value => exact le value

theorem total_remove (h : roster.get? key = some value) (f : α → Nat) :
    (roster.remove key).total f + f value = roster.total f := by
  have agree : ∀ k, k ≠ key → (roster.remove key).get? k = roster.get? k := by
    intro k hk
    simp [get?_remove, Ne.symm hk]
  have next : (roster.remove key).next = roster.next := rfl
  have := total_of_agree next (index_lt_next h) agree f
  simpa [get?_remove, h] using this

end Roster

/-- The references that a process holds: to its record, and those in its handle table. -/
def Process.references (process : Process) : List ObjectRef :=
  process.object :: process.handles.objects

namespace World

variable {w : World} {held : Multiset ObjectRef} {ref object : ObjectRef} {key : TableKey}
variable {table next : HandleTable} {handle : Handle}

/-- The number of references to an object that stand in the world. -/
def count (w : World) (ref : ObjectRef) : Nat :=
  w.processes.total (fun process => process.references.count ref)
    + w.threads.total (fun thread => [thread.object].count ref)
    + w.tables.total (fun table => table.objects.count ref)

/-- The number of references to an object, with those that are held outside of the world. -/
def references (w : World) (held : Multiset ObjectRef) (ref : ObjectRef) : Nat :=
  held.count ref + w.count ref

/-- The number of references that stand in the world, whatever they are to. -/
def size (w : World) : Nat :=
  w.processes.total (fun process => process.references.length)
    + w.threads.total (fun _ => 1)
    + w.tables.total (fun table => table.objects.length)

theorem count_le_size (w : World) (ref : ObjectRef) : w.count ref ≤ w.size := by
  have processes := w.processes.total_le_total fun process : Process =>
    process.references.count_le_length (a := ref)
  have threads := w.threads.total_le_total fun thread : Thread =>
    [thread.object].count_le_length (a := ref)
  have tables := w.tables.total_le_total fun table : HandleTable =>
    table.objects.count_le_length (a := ref)
  simp only [List.length_singleton] at threads
  unfold count size
  omega

@[simp] theorem count_setArena {a : Key Arena} {arena : Arena} :
    (w.setArena a arena).count ref = w.count ref :=
  rfl

theorem count_of_retain? {w' : World} (h : w.retain? object = some w') :
    w'.count ref = w.count ref := by
  obtain ⟨_, _, _, _, rfl⟩ := exists_of_retain? h
  simp

theorem count_of_release? {w' : World} (h : w.release? object = some w') :
    w'.count ref = w.count ref := by
  obtain ⟨_, _, rfl⟩ := exists_of_release? h
  simp

/-! ## Tables -/

/-- What stands in a table is counted in its place. -/
theorem count_setTable (found : w.table? key = some table) (next : HandleTable) (ref : ObjectRef) :
    (w.setTable next key).count ref + table.objects.count ref
      = w.count ref + next.objects.count ref := by
  cases key with
  | process key =>
    obtain ⟨process, h, rfl⟩ := Option.map_eq_some_iff.1 found
    have := Roster.total_modify h (fun p => { p with handles := next })
      fun process => process.references.count ref
    simp only [setTable, count, Process.references, List.count_cons] at *
    omega
  | standalone key =>
    have := Roster.total_modify found (fun _ => next) fun table : HandleTable =>
      table.objects.count ref
    simp only [setTable, count] at *
    omega

/-- A reference that a table takes over moves there. -/
theorem references_of_allocate (found : w.table? key = some table) (wf : table.WellFormed)
    (h : table.allocate object = some (handle, next)) (ref : ObjectRef) :
    (w.setTable next key).references held ref = w.references (object ::ₘ held) ref := by
  obtain ⟨index, -, -, fills⟩ := wf.fills_of_allocate h
  have moved := count_setTable found next ref
  have count := fills.count_objects ref
  simp only [references, Multiset.count_cons, eq_comm (a := ref)]
  omega

/-- A reference that is taken out of a table moves to whoever took it. -/
theorem references_of_take (found : w.table? key = some table)
    (h : table.take handle = some (object, next)) (ref : ObjectRef) :
    (w.setTable next key).references (object ::ₘ held) ref = w.references held ref := by
  obtain ⟨-, generation, empties⟩ := HandleTable.empties_of_take h
  have moved := count_setTable found next ref
  have count := empties.count_objects ref
  simp only [references, Multiset.count_cons, eq_comm (a := ref)]
  omega

theorem references_of_clear (found : w.table? key = some table) (wf : table.WellFormed)
    (ref : ObjectRef) :
    (w.setTable table.clear.2 key).references (table.clear.1 + held) ref
      = w.references held ref := by
  have moved := count_setTable found table.clear.2 ref
  have taken := (HandleTable.vacateAll_spec wf (List.range table.slots.size)).2.2 ref
  simp only [references, Multiset.count_add, Multiset.coe_count, HandleTable.clear] at *
  omega

/-! ## Processes, threads and tables of their own -/

theorem references_addProcess (process : Process) (ref : ObjectRef) :
    { w with processes := (w.processes.add process).2 }.references held ref
      = w.references (process.references + held) ref := by
  simp only [references, count, Roster.total_add, Multiset.count_add, Multiset.coe_count]
  omega

theorem references_removeProcess {a : Key Process} {process : Process}
    (h : w.processes.get? a = some process) (ref : ObjectRef) :
    { w with processes := w.processes.remove a }.references (process.references + held) ref
      = w.references held ref := by
  have := Roster.total_remove h fun process => process.references.count ref
  simp only [references, count, Multiset.count_add, Multiset.coe_count]
  omega

theorem references_setProcess {a : Key Process} {process next : Process}
    (h : w.processes.get? a = some process) (same : next.references = process.references)
    (ref : ObjectRef) : (w.setProcess a next).references held ref = w.references held ref := by
  have := Roster.total_modify h (fun _ => next) fun process => process.references.count ref
  simp only [references, count, setProcess, same] at *
  omega

theorem references_addThread (thread : Thread) (ref : ObjectRef) :
    { w with threads := (w.threads.add thread).2 }.references held ref
      = w.references (thread.object ::ₘ held) ref := by
  simp only [references, count, Roster.total_add, Multiset.count_cons, List.count_singleton,
    beq_iff_eq, eq_comm (a := ref)]
  omega

theorem references_removeThread {a : Key Thread} {thread : Thread}
    (h : w.threads.get? a = some thread) (ref : ObjectRef) :
    { w with threads := w.threads.remove a }.references (thread.object ::ₘ held) ref
      = w.references held ref := by
  have := Roster.total_remove h fun thread => [thread.object].count ref
  simp only [references, count, Multiset.count_cons, List.count_singleton, beq_iff_eq,
    eq_comm (a := ref)] at *
  omega

theorem references_setThread {a : Key Thread} {thread next : Thread}
    (h : w.threads.get? a = some thread) (same : next.object = thread.object) (ref : ObjectRef) :
    (w.setThread a next).references held ref = w.references held ref := by
  have := Roster.total_modify h (fun _ => next) fun thread => [thread.object].count ref
  simp only [references, count, setThread, same] at *
  omega

theorem references_addTable (ref : ObjectRef) :
    { w with tables := (w.tables.add HandleTable.empty).2 }.references held ref
      = w.references held ref := by
  simp [references, count, Roster.total_add, HandleTable.objects, HandleTable.empty]

theorem references_removeTable {a : Key HandleTable} {table : HandleTable}
    (h : w.tables.get? a = some table) (ref : ObjectRef) :
    { w with tables := w.tables.remove a }.references (table.objects + held) ref
      = w.references held ref := by
  have := Roster.total_remove h fun table => table.objects.count ref
  simp only [references, count, Multiset.count_add, Multiset.coe_count]
  omega

end World

end MicrokernelIpc
