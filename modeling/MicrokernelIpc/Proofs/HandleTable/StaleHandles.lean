import MicrokernelIpc.Proofs.HandleTable.FiniteMap

/-!
# Handles that were closed

A handle that was closed names nothing until the table issues the same value again. The table
numbers its allocations, and the numbers come round after 32767 of them: up to then a closed
handle stays dead, whatever slots are filled and emptied, and then it may come back to life.
-/

namespace MicrokernelIpc

/-- The ways in which a handle that names an object ceases to. -/
inductive Retires (key : TableKey) (handle : Handle) (machine next : Machine) : Prop
  | close (call : (closeHandle key handle).run machine = .ok (.ok ()) next)
  | take {object : ObjectRef} (call : takeHandle key handle machine = .ok (some object) next)
  | clear (call : clearTable key machine = .ok () next)

variable {key : TableKey} {start machine next : Machine} {table : HandleTable} {handle : Handle}
variable {issued more : List Handle} {object : ObjectRef}

/-! ## What a course does to the table -/

theorem Retires.step (retires : Retires key handle machine next) :
    TableStep key machine none next := by
  cases retires with
  | close call => exact .close call
  | take call => exact .take call
  | clear call => exact .clear call

/-- A handle that was taken out of its table names nothing. -/
theorem Retires.resolve {later : HandleTable} (retires : Retires key handle machine next)
    (found : machine.world.table? key = some table) (wf : table.WellFormed)
    (there : next.world.table? key = some later) : later.resolve handle = none := by
  cases retires with
  | close call =>
    cases closes_of_ok call with
    | closed found' taken released =>
      obtain rfl := Option.some.inj (found.symm.trans found')
      rw [World.table?_of_release? released, World.table?_setTable_self found] at there
      obtain rfl := Option.some.inj there
      simp [(HandleTable.drops_of_take taken).resolve]
  | take call =>
    have takes := takes_of_ok call
    generalize next.world = w' at takes there
    cases takes with
    | taken found' taken =>
      obtain rfl := Option.some.inj (found.symm.trans found')
      rw [World.table?_setTable_self found] at there
      obtain rfl := Option.some.inj there
      simp [(HandleTable.drops_of_take taken).resolve]
  | clear call =>
    obtain ⟨last, found', -, unresolved⟩ := (clears_of_ok call).empties found wf
    obtain rfl := Option.some.inj (found'.symm.trans there)
    exact unresolved handle

/-- **A closed handle stays dead for a whole round of generations.** Once it was closed, taken or
cleared away, a handle names nothing and is not issued again, whatever slots are filled, as long
as its table issued fewer than 32767 others since it issued this one. -/
theorem get?_of_retired {opened closed last : Machine} {first second : List Handle}
    (run : TableRun key start) (issue : TableStep key start (some handle) opened)
    (before : TableCourse key opened first machine) (retires : Retires key handle machine closed)
    (after : TableCourse key closed second last)
    (few : first.length + second.length < HandleTable.maxGeneration) :
    handle ∉ second ∧ ∃ table, last.world.table? key = some table ∧ table.get? handle = none := by
  obtain ⟨base, found, wf⟩ := run.wellFormed
  obtain ⟨table₀, found₀, wf₀, issues⟩ := issue.advances found wf
  obtain ⟨table₁, found₁, wf₁, before⟩ := before.advances found₀ wf₀
  obtain ⟨table₂, found₂, wf₂, closing⟩ := retires.step.advances found₁ wf₁
  obtain ⟨table, there, -, after⟩ := after.advances found₂ wf₂
  have dead := retires.resolve found₁ wf₁ found₂
  have fresh : handle ∉ second :=
    HandleTable.Advances.notMem_of_few wf issues (before.trans closing) after (by simpa using few)
  refine ⟨fresh, table, there, ?_⟩
  cases resolved : table.resolve handle with
  | none => simp [HandleTable.get?, resolved]
  | some object =>
    rcases after.names handle (by simp [HandleTable.isLive, resolved]) with alive | again
    · simp [HandleTable.isLive, dead] at alive
    · exact (fresh again).elim

/-- The handle is copied and then closed, and what fills its slot again has another value. -/
theorem get?_of_closed_reused : ∃ opened copied closed last table,
    (createHandle (.standalone ⟨0⟩) ⟨⟨0⟩, ⟨1⟩⟩).run Situation.naming.machine
        = .ok (.ok ⟨1⟩) opened ∧
      (duplicateHandle (.standalone ⟨0⟩) ⟨1⟩).run opened = .ok (.ok ⟨0x8002⟩) copied ∧
      (closeHandle (.standalone ⟨0⟩) ⟨1⟩).run copied = .ok (.ok ()) closed ∧
      (createHandle (.standalone ⟨0⟩) ⟨⟨0⟩, ⟨1⟩⟩).run closed = .ok (.ok ⟨3⟩) last ∧
      Handle.slotIndex ⟨3⟩ = Handle.slotIndex ⟨1⟩ ∧ (⟨3⟩ : Handle) ≠ ⟨1⟩ ∧
      last.world.table? (.standalone ⟨0⟩) = some table ∧
      table.get? ⟨3⟩ = some ⟨1⟩ ∧ table.get? ⟨1⟩ = none := by
  obtain ⟨opened, copied, closed, last, table, created, duplicated, closes, refilled, found, -, -, -,
    named⟩ := Situation.reuses_slot
  have before : TableCourse (.standalone ⟨0⟩) opened [⟨0x8002⟩] copied :=
    (TableStep.duplicate duplicated).course
  have after : TableCourse (.standalone ⟨0⟩) closed [⟨3⟩] last := (TableStep.create refilled).course
  obtain ⟨fresh, later, there, dead⟩ := get?_of_retired (.new Situation.table?_naming)
    (.create created) before (.close closes) after (by decide)
  obtain rfl := Option.some.inj (found.symm.trans there)
  refine ⟨opened, copied, closed, last, table, created, duplicated, closes, refilled, rfl,
    fun same => fresh ?_, found, ?_, dead⟩
  · rw [same]
    exact List.mem_singleton_self _
  · rw [HandleTable.get?, named]
    rfl

/-! ## The numbers come round -/

/-- The table has the handle for the object, and closing it does not destroy the object. -/
structure Shares (key : TableKey) (handle : Handle) (object : ObjectRef) (table : HandleTable)
    (w : World) : Prop where
  found : w.table? key = some table
  wellFormed : table.WellFormed
  resolved : table.resolve handle = some object
  shared : ∃ refs, w.refs? object = some refs ∧ refs ≠ 1

/-- The table's next handle goes into the slot, and the object that it is for is there. -/
structure Awaits (key : TableKey) (index : Nat) (object : ObjectRef) (table : HandleTable)
    (w : World) : Prop where
  found : w.table? key = some table
  wellFormed : table.WellFormed
  free : ∃ rest, table.free = index :: rest
  held : ∃ refs, w.refs? object = some refs ∧ refs ≠ 0

/-- The handle is closed: its slot is the one that was freed last. -/
theorem World.Closes.awaits {w w' : World} {outcome : Except HandleTableError Unit}
    (closes : w.Closes key handle outcome w') (shares : Shares key handle object table w) :
    outcome = .ok () ∧ ∃ later, Awaits key handle.slotIndex object later w' ∧
      later.nextGeneration = table.nextGeneration := by
  obtain ⟨found, wf, resolved, refs, counted, shared⟩ := shares
  cases closes with
  | unknown found' unresolved =>
    obtain rfl := Option.some.inj (found.symm.trans found')
    simp [HandleTable.take_eq_none_iff.1 unresolved] at resolved
  | @closed _ later _ _ found' taken released =>
    obtain rfl := Option.some.inj (found.symm.trans found')
    obtain ⟨named, generation, empties⟩ := HandleTable.empties_of_take taken
    obtain rfl := Option.some.inj (resolved.symm.trans named)
    refine ⟨rfl, later, ⟨?_, wf.of_take taken, ⟨_, empties.free⟩, refs - 1, ?_, ?_⟩,
      empties.nextGeneration⟩
    · rw [table?_of_release? released, table?_setTable_self found]
    · simp [refs?_of_release? released, counted, shared]
    · intro last
      exact shared (by rw [← UInt32.sub_add_cancel refs 1, last]; rfl)

/-- A handle that was created has the generation before the table's next one. -/
theorem World.Creates.shares {w w' : World} (creates : w.Creates key object (.ok handle) w')
    (found : w.table? key = some table) (wf : table.WellFormed)
    (shared : ∃ refs, w.refs? object = some refs ∧ refs ≠ 1) :
    ∃ later, Shares key handle object later w' ∧
      later.nextGeneration = HandleTable.followingGeneration handle.generation := by
  cases creates with
  | @issued _ later _ found' allocated =>
    obtain rfl := Option.some.inj (found.symm.trans found')
    have advances := wf.advances_of_allocate allocated
    refine ⟨later, ⟨table?_setTable_self found _, wf.of_allocate allocated, ?_, ?_⟩, ?_⟩
    · simp [(wf.adds_of_allocate allocated).resolve]
    · simpa using shared
    · have generation : handle.generation = table.nextGeneration :=
        advances.generations 0 (by simp)
      rw [advances.nextGeneration, generation]
      rfl

/-- The slot that was freed last is filled first. -/
theorem World.Creates.refills {w w' : World} {index : Nat} {rest : List Nat}
    {outcome : Except HandleTableError Handle} (creates : w.Creates key object outcome w')
    (found : w.table? key = some table) (free : table.free = index :: rest) :
    outcome = .ok (Handle.ofSlot index table.nextGeneration) := by
  cases creates with
  | issued found' allocated =>
    obtain rfl := Option.some.inj (found.symm.trans found')
    simp only [HandleTable.allocate, free, Option.some.injEq] at allocated
    exact congrArg Except.ok (congrArg Prod.fst allocated).symm
  | full found' refused =>
    obtain rfl := Option.some.inj (found.symm.trans found')
    simp [HandleTable.allocate, free] at refused

theorem Shares.close (shares : Shares key handle object table machine.world) :
    ∃ closed later, (closeHandle key handle).run machine = .ok (.ok ()) closed ∧
      Awaits key handle.slotIndex object later closed.world ∧
      later.nextGeneration = table.nextGeneration := by
  obtain ⟨refs, counted, -⟩ := shares.shared
  obtain ⟨outcome, closed, returned, closes⟩ := closeHandle_returns shares.found handle (by
    intro other named
    obtain rfl := Option.some.inj (shares.resolved.symm.trans named)
    simp [counted])
  obtain ⟨rfl, later, awaits, same⟩ := closes.awaits shares
  exact ⟨closed, later, returned, awaits, same⟩

/-- A reference is taken and a handle created for it. -/
theorem Awaits.issue {index : Nat} (awaits : Awaits key index object table machine.world) :
    ∃ opened later, TableCourse key machine [Handle.ofSlot index table.nextGeneration] opened ∧
      Shares key (Handle.ofSlot index table.nextGeneration) object later opened.world := by
  obtain ⟨found, wf, ⟨rest, free⟩, refs, counted, some⟩ := awaits
  have retains : Leads machine.world (retain object) _ fun _ => False :=
    leads_retain fun none => by simp [counted] at none
  obtain ⟨_, held, -, retained⟩ := retains.returns
  have same : held.world.table? key = machine.world.table? key := World.table?_of_retain? retained
  have count : held.world.refs? object = .some (refs + 1) := by
    simp [World.refs?_of_retain? retained, counted]
  obtain ⟨outcome, opened, returned, creates⟩ := createHandle_returns (same.trans found) object
    (by simp [count])
  obtain rfl := creates.refills (same.trans found) free
  obtain ⟨later, shares, -⟩ := creates.shares (same.trans found) wf ⟨refs + 1, count, by
    intro one
    exact some (by rw [← UInt32.add_sub_cancel refs 1, one]; rfl)⟩
  exact ⟨opened, later, (TableStep.elsewhere same).course.trans (TableStep.create returned).course,
    shares⟩

theorem Awaits.index_lt {index : Nat} {w : World} (awaits : Awaits key index object table w) :
    index < 4096 := by
  obtain ⟨rest, free⟩ := awaits.free
  have vacant := (awaits.wellFormed.mem_free index).1 (by simp [free])
  exact (HandleTable.mem_vacant.1 vacant).1.trans_le awaits.wellFormed.size_le

/-- Any number of handles is created and closed, one after the other. -/
theorem Awaits.churn {index : Nat} (awaits : Awaits key index object table machine.world)
    (count : Nat) : ∃ issued churned later, TableCourse key machine issued churned ∧
      issued.length = count ∧ Awaits key index object later churned.world := by
  induction count with
  | zero => exact ⟨[], machine, table, .refl, rfl, awaits⟩
  | succ count ih =>
    obtain ⟨issued, churned, later, course, length, awaits⟩ := ih
    obtain ⟨opened, holding, one, shares⟩ := awaits.issue
    -- what was filled last is freed again, so the slot is the next to be filled as before
    obtain ⟨closed, last, returned, again, -⟩ := shares.close
    rw [Handle.slotIndex_ofSlot awaits.index_lt awaits.wellFormed.nextGeneration_lt] at again
    exact ⟨_, closed, last, (course.trans one).step (.close returned), by simp [length], again⟩

/-- **A closed handle comes back to life.** Close the handle that a table issued last, create and
close 32766 others, and the next handle that is created is the same again. -/
theorem exists_reissue {opened : Machine} (run : TableRun key start)
    (issue : (createHandle key object).run start = .ok (.ok handle) opened)
    (shared : ∃ refs, start.world.refs? object = some refs ∧ refs ≠ 1) :
    ∃ closed second last later, (closeHandle key handle).run opened = .ok (.ok ()) closed ∧
      TableCourse key closed second last ∧ second.length = HandleTable.maxGeneration ∧
      last.world.table? key = some later ∧ later.resolve handle = some object := by
  obtain ⟨base, found, wf⟩ := run.wellFormed
  obtain ⟨table, shares, next⟩ := (creates_of_ok issue).shares found wf shared
  obtain ⟨closed, freed, returned, awaits, same⟩ := shares.close
  obtain ⟨issued, churned, ready, course, length, awaits'⟩ :=
    awaits.churn (HandleTable.maxGeneration - 1)
  obtain ⟨later, there, -, advances⟩ := course.advances awaits.found awaits.wellFormed
  obtain rfl := Option.some.inj (awaits'.found.symm.trans there)
  obtain ⟨last, final, one, shares'⟩ := awaits'.issue
  have generation := shares.wellFormed.generation _ _ _
    (HandleTable.resolve_eq_some_iff.1 shares.resolved)
  -- with its own issue the handle's generation was left behind by a whole round
  have around : ready.nextGeneration = handle.generation := by
    rw [advances.nextGeneration, same, next, length, ← Function.iterate_succ_apply,
      HandleTable.iterate_followingGeneration_eq_self_iff generation.1 generation.2]
    decide
  rw [around, Handle.ofSlot_slotIndex_generation] at one shares'
  refine ⟨closed, _, last, final, returned, course.trans one, ?_, shares'.found, shares'.resolved⟩
  rw [List.length_append, length]
  rfl

theorem Situation.refs?_naming : naming.machine.world.refs? ⟨⟨0⟩, ⟨1⟩⟩ = some 2 := by
  decide +kernel

/-- Without a bound on what is issued a closed handle need not stay dead. -/
theorem exists_resolving_stale_handle : ¬ ∀ (key : TableKey)
    (start opened machine closed last : Machine) (handle : Handle) (first second : List Handle),
    TableRun key start → TableStep key start (some handle) opened →
      TableCourse key opened first machine → Retires key handle machine closed →
        TableCourse key closed second last →
          ∃ table, last.world.table? key = some table ∧ table.get? handle = none := by
  intro claim
  obtain ⟨opened, -, -, -, -, issue, -⟩ := Situation.reuses_slot
  have run : TableRun (.standalone ⟨0⟩) Situation.naming.machine := .new Situation.table?_naming
  obtain ⟨closed, second, last, later, returned, course, -, there, resolved⟩ :=
    exists_reissue run issue ⟨2, Situation.refs?_naming, by decide⟩
  obtain ⟨table, found, dead⟩ := claim _ _ _ _ _ _ ⟨1⟩ [] second run (.create issue) .refl
    (.close returned) course
  obtain rfl := Option.some.inj (there.symm.trans found)
  simp [HandleTable.get?, resolved] at dead

end MicrokernelIpc
