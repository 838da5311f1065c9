import MicrokernelIpc.Proofs.HandleTable.Generations
import MicrokernelIpc.Proofs.Kernel.Calls

/-!
# What a handle table goes through

A handle table changes by the calls on it alone. Whatever calls it went through since it was new, in
whatever order and with whatever outcome, its representation is in order, and its numbering moved on
by the handles that it issued. Between the calls the rest of the world may do what it likes.
-/

namespace MicrokernelIpc

/-- One step of the world as a handle table sees it, with the handle that the table issued. -/
inductive TableStep (key : TableKey) (machine : Machine) : Option Handle → Machine → Prop
  | elsewhere {next : Machine} (same : next.world.table? key = machine.world.table? key) :
      TableStep key machine none next
  | create {next : Machine} {object : ObjectRef} {outcome : Except HandleTableError Handle}
      (call : (createHandle key object).run machine = .ok outcome next) :
      TableStep key machine outcome.toOption next
  | duplicate {next : Machine} {handle : Handle} {outcome : Except HandleTableError Handle}
      (call : (duplicateHandle key handle).run machine = .ok outcome next) :
      TableStep key machine outcome.toOption next
  | close {next : Machine} {handle : Handle} {outcome : Except HandleTableError Unit}
      (call : (closeHandle key handle).run machine = .ok outcome next) :
      TableStep key machine none next
  | take {next : Machine} {handle : Handle} {outcome : Option ObjectRef}
      (call : takeHandle key handle machine = .ok outcome next) : TableStep key machine none next
  | acquire {next : Machine} {handle : Handle} {outcome : Option ObjectRef}
      (call : acquireHandle key handle machine = .ok outcome next) :
      TableStep key machine none next
  | clear {next : Machine} (call : clearTable key machine = .ok () next) :
      TableStep key machine none next

/-- Steps one after the other, with the handles that the table issued, in order. -/
inductive TableCourse (key : TableKey) (start : Machine) : List Handle → Machine → Prop
  | refl : TableCourse key start [] start
  | step {machine next : Machine} {issued : List Handle} {handle : Option Handle}
      (course : TableCourse key start issued machine) (step : TableStep key machine handle next) :
      TableCourse key start (issued ++ handle.toList) next

/-- A machine in which the table went through calls only, since it was new. -/
def TableRun (key : TableKey) (machine : Machine) : Prop :=
  ∃ start issued, start.world.table? key = some .empty ∧ TableCourse key start issued machine

variable {w w' : World} {key : TableKey} {start machine next : Machine} {table : HandleTable}
variable {handle : Handle} {object : ObjectRef} {issued more : List Handle}

/-! ## One call -/

theorem World.table?_of_releaseAll? {refs : List ObjectRef} (h : w.releaseAll? refs = some w') :
    w'.table? key = w.table? key := by
  induction refs generalizing w with
  | nil => simp_all [releaseAll?]
  | cons ref rest ih =>
    obtain ⟨next, released, rest⟩ := Option.bind_eq_some_iff.1 h
    rw [ih rest, table?_of_release? released]

theorem World.Creates.advances {outcome : Except HandleTableError Handle}
    (creates : w.Creates key object outcome w') (found : w.table? key = some table)
    (wf : table.WellFormed) : ∃ next, w'.table? key = some next ∧ next.WellFormed ∧
      table.Advances outcome.toOption.toList next := by
  cases creates with
  | issued there allocated =>
    obtain rfl := Option.some.inj (found.symm.trans there)
    exact ⟨_, table?_setTable_self found _, wf.of_allocate allocated,
      wf.advances_of_allocate allocated⟩
  | full there refused released =>
    exact ⟨_, (table?_of_release? released).trans found, wf, .refl table⟩

theorem World.Duplicates.advances {outcome : Except HandleTableError Handle}
    (duplicates : w.Duplicates key handle outcome w') (found : w.table? key = some table)
    (wf : table.WellFormed) : ∃ next, w'.table? key = some next ∧ next.WellFormed ∧
      table.Advances outcome.toOption.toList next := by
  cases duplicates with
  | unknown => exact ⟨_, found, wf, .refl table⟩
  | copied there resolved retained allocated =>
    obtain rfl := Option.some.inj (found.symm.trans there)
    have same := (table?_of_retain? retained).trans found
    exact ⟨_, table?_setTable_self same _, wf.of_allocate allocated,
      wf.advances_of_allocate allocated⟩
  | full there resolved retained refused released =>
    have same := (table?_of_retain? retained).trans found
    exact ⟨_, (table?_of_release? released).trans same, wf, .refl table⟩

theorem World.Takes.advances {outcome : Option ObjectRef}
    (takes : w.Takes key handle outcome w') (found : w.table? key = some table)
    (wf : table.WellFormed) : ∃ next, w'.table? key = some next ∧ next.WellFormed ∧
      table.Advances [] next := by
  cases takes with
  | unknown => exact ⟨_, found, wf, .refl table⟩
  | taken there taken =>
    obtain rfl := Option.some.inj (found.symm.trans there)
    exact ⟨_, table?_setTable_self found _, wf.of_take taken, HandleTable.advances_of_take taken⟩

theorem World.Closes.advances {outcome : Except HandleTableError Unit}
    (closes : w.Closes key handle outcome w') (found : w.table? key = some table)
    (wf : table.WellFormed) : ∃ next, w'.table? key = some next ∧ next.WellFormed ∧
      table.Advances [] next := by
  cases closes with
  | unknown => exact ⟨_, found, wf, .refl table⟩
  | closed there taken released =>
    obtain rfl := Option.some.inj (found.symm.trans there)
    have same := (table?_of_release? released).trans (table?_setTable_self found _)
    exact ⟨_, same, wf.of_take taken, HandleTable.advances_of_take taken⟩

theorem World.Acquires.table? {outcome : Option ObjectRef}
    (acquires : w.Acquires key handle outcome w') : w'.table? key = w.table? key := by
  cases acquires with
  | unknown => rfl
  | acquired there resolved retained => exact table?_of_retain? retained

theorem World.Clears.advances (clears : w.Clears key w') (found : w.table? key = some table)
    (wf : table.WellFormed) : ∃ next, w'.table? key = some next ∧ next.WellFormed ∧
      table.Advances [] next := by
  cases clears with
  | cleared there released =>
    obtain rfl := Option.some.inj (found.symm.trans there)
    have same := (table?_of_releaseAll? released).trans (table?_setTable_self found _)
    exact ⟨_, same, wf.clear, wf.advances_of_clear⟩

theorem TableStep.advances {handle : Option Handle} (step : TableStep key machine handle next)
    (found : machine.world.table? key = some table) (wf : table.WellFormed) :
    ∃ later, next.world.table? key = some later ∧ later.WellFormed ∧
      table.Advances handle.toList later := by
  cases step with
  | elsewhere same => exact ⟨table, same.trans found, wf, .refl table⟩
  | create call => exact (creates_of_ok call).advances found wf
  | duplicate call => exact (duplicates_of_ok call).advances found wf
  | close call => exact (closes_of_ok call).advances found wf
  | take call => exact (takes_of_ok call).advances found wf
  | acquire call => exact ⟨table, (acquires_of_ok call).table?.trans found, wf, .refl table⟩
  | clear call => exact (clears_of_ok call).advances found wf

/-! ## All of them -/

theorem TableCourse.advances (course : TableCourse key start issued machine)
    (found : start.world.table? key = some table) (wf : table.WellFormed) :
    ∃ later, machine.world.table? key = some later ∧ later.WellFormed ∧
      table.Advances issued later := by
  induction course with
  | refl => exact ⟨table, found, wf, .refl table⟩
  | step course step ih =>
    obtain ⟨between, there, wf, before⟩ := ih
    obtain ⟨later, there, wf, after⟩ := step.advances there wf
    exact ⟨later, there, wf, before.trans after⟩

theorem TableCourse.trans (first : TableCourse key start issued machine)
    (second : TableCourse key machine more next) :
    TableCourse key start (issued ++ more) next := by
  induction second with
  | refl => simpa using first
  | step course step ih =>
    rw [← List.append_assoc]
    exact ih.step step

theorem TableStep.course {handle : Option Handle} (step : TableStep key machine handle next) :
    TableCourse key machine handle.toList next :=
  TableCourse.refl.step step

/-- A table that was just made went through no call yet. -/
theorem TableRun.new (found : machine.world.table? key = some .empty) : TableRun key machine :=
  ⟨machine, [], found, .refl⟩

theorem TableRun.append (run : TableRun key machine)
    (course : TableCourse key machine issued next) : TableRun key next := by
  obtain ⟨start, before, new, earlier⟩ := run
  exact ⟨start, before ++ issued, new, earlier.trans course⟩

/-- Every call keeps the representation in order. -/
theorem TableRun.wellFormed (run : TableRun key machine) :
    ∃ table, machine.world.table? key = some table ∧ table.WellFormed := by
  obtain ⟨start, issued, new, course⟩ := run
  obtain ⟨table, found, wf, -⟩ := course.advances new HandleTable.wellFormed_empty
  exact ⟨table, found, wf⟩

end MicrokernelIpc
