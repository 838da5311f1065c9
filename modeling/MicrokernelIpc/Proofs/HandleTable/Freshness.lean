import MicrokernelIpc.Proofs.HandleTable.StaleHandles

/-!
# Handles say when they were issued

A table numbers what it issues from 1 to 32767 and then from 1 again, and nothing but an allocation
moves the numbering on: no call that failed, no closing, no clearing, whichever slots are filled
anew. So the generation of a handle says how many handles its table issued before it, up to whole
rounds, a value is issued again after whole rounds only, and a closed handle has to be issued again
before it names anything.
-/

namespace MicrokernelIpc

variable {w w' : World} {key : TableKey} {start machine next closed last : Machine}
variable {table : HandleTable} {handle : Handle} {object : ObjectRef} {issued later : List Handle}

/-! ## Slots -/

theorem HandleTable.WellFormed.slotIndex_of_allocate {grown : HandleTable}
    (wf : table.WellFormed) (h : table.allocate object = some (handle, grown)) :
    handle.slotIndex < HandleTable.maxCount := by
  obtain ⟨index, -, rfl, fills⟩ := wf.fills_of_allocate h
  rw [Handle.slotIndex_ofSlot fills.index_lt wf.nextGeneration_lt]
  exact fills.index_lt

theorem World.Creates.slotIndex {outcome : Except HandleTableError Handle}
    (creates : w.Creates key object outcome w') (found : w.table? key = some table)
    (wf : table.WellFormed) :
    ∀ issued ∈ outcome.toOption, issued.slotIndex < HandleTable.maxCount := by
  cases creates with
  | issued there allocated =>
    obtain rfl := Option.some.inj (found.symm.trans there)
    rintro _ ⟨⟩
    exact wf.slotIndex_of_allocate allocated
  | full =>
    rintro _ ⟨⟩

theorem World.Duplicates.slotIndex {outcome : Except HandleTableError Handle}
    (duplicates : w.Duplicates key handle outcome w') (found : w.table? key = some table)
    (wf : table.WellFormed) :
    ∀ issued ∈ outcome.toOption, issued.slotIndex < HandleTable.maxCount := by
  cases duplicates with
  | unknown =>
    rintro _ ⟨⟩
  | copied there resolved retained allocated =>
    obtain rfl := Option.some.inj (found.symm.trans there)
    rintro _ ⟨⟩
    exact wf.slotIndex_of_allocate allocated
  | full =>
    rintro _ ⟨⟩

theorem TableStep.slotIndex {outcome : Option Handle}
    (step : TableStep key machine outcome next) (found : machine.world.table? key = some table)
    (wf : table.WellFormed) :
    ∀ issued ∈ outcome, issued.slotIndex < HandleTable.maxCount := by
  cases step with
  | create call => exact (creates_of_ok call).slotIndex found wf
  | duplicate call => exact (duplicates_of_ok call).slotIndex found wf
  | elsewhere => rintro _ ⟨⟩
  | close => rintro _ ⟨⟩
  | take => rintro _ ⟨⟩
  | acquire => rintro _ ⟨⟩
  | clear => rintro _ ⟨⟩

/-- Every handle that was issued names one of 4096 slots. -/
theorem TableCourse.slotIndex (course : TableCourse key start issued machine)
    (found : start.world.table? key = some table) (wf : table.WellFormed) :
    ∀ handle ∈ issued, handle.slotIndex < HandleTable.maxCount := by
  induction course with
  | refl => simp
  | step course step ih =>
    obtain ⟨between, there, wf, -⟩ := course.advances found wf
    intro handle mem
    rcases List.mem_append.1 mem with before | now
    · exact ih handle before
    · exact step.slotIndex there wf handle (Option.mem_toList.1 now)

/-! ## Numbers -/

theorem HandleTable.isLive_iff : table.isLive handle ↔ table.get? handle ≠ none := by
  simp [isLive, get?, Option.isSome_iff_ne_none]

section

variable (new : start.world.table? key = some .empty)
include new

/-- The generation of a handle is the number of those issued before it, counted round. -/
theorem TableCourse.generation (course : TableCourse key start issued machine) {k : Nat}
    (h : k < issued.length) : issued[k].generation = k % 32767 + 1 := by
  obtain ⟨table, -, -, advances⟩ := course.advances new HandleTable.wellFormed_empty
  have first : HandleTable.empty.nextGeneration = 1 := rfl
  rw [advances.generations k h, first,
    HandleTable.iterate_followingGeneration (Nat.le_refl 1) (by decide), Nat.sub_self, Nat.zero_add]
  rfl

/-- A value that was issued twice was issued whole rounds apart. -/
theorem TableCourse.rounds (course : TableCourse key start issued machine) {i j : Nat}
    (early : i < j) (h : j < issued.length) (same : issued[i] = issued[j]) :
    ∃ rounds, 0 < rounds ∧ j = i + 32767 * rounds := by
  have number := course.generation new h
  rw [← same, course.generation new (early.trans h)] at number
  refine ⟨(j - i) / 32767, ?_, ?_⟩ <;> omega

/-- A closed handle that names an object was issued again since, whole rounds later. -/
theorem TableCourse.reissued (course : TableCourse key start issued machine) {k : Nat}
    (h : k < issued.length) (retires : Retires key issued[k] machine closed)
    (after : TableCourse key closed later last) (found : last.world.table? key = some table)
    (live : table.get? issued[k] ≠ none) :
    ∃ (i : Nat) (_ : i < later.length), later[i] = issued[k] ∧
      ∃ rounds, 0 < rounds ∧ issued.length + i = k + 32767 * rounds := by
  obtain ⟨opened, there, wf, -⟩ := course.advances new HandleTable.wellFormed_empty
  obtain ⟨emptied, there', wf', -⟩ := retires.step.advances there wf
  obtain ⟨table', found', -, advances⟩ := after.advances there' wf'
  obtain rfl := Option.some.inj (found.symm.trans found')
  have again : issued[k] ∈ later := by
    refine (advances.names _ (HandleTable.isLive_iff.2 live)).resolve_left ?_
    simp [HandleTable.isLive, retires.resolve there wf there']
  obtain ⟨i, inside, same⟩ := List.mem_iff_getElem.1 again
  refine ⟨i, inside, same, ?_⟩
  have whole := (course.step retires.step).trans after
  rw [Option.toList_none, List.append_nil] at whole
  refine whole.rounds new (by omega) (by simpa using inside) ?_
  rw [List.getElem_append_left h, List.getElem_append_right (Nat.le_add_right _ _)]
  simp only [Nat.add_sub_cancel_left, same]

end

/-- **Every handle says when its table issued it.** The handles of a new table are numbered by
their generations, from 1 to 32767 and round, each in one of 4096 slots. So the table issues a
value again after whole rounds of allocations only, and a handle that was closed names an object
only once it was issued again so. -/
theorem TableCourse.allocations_numbered (new : start.world.table? key = some .empty)
    (course : TableCourse key start issued machine) :
    (∀ (k : Nat) (h : k < issued.length),
      issued[k].generation = k % 32767 + 1 ∧ issued[k].slotIndex < 4096) ∧
    (∀ (i j : Nat) (early : i < j) (h : j < issued.length), issued[i] = issued[j] →
      ∃ rounds, 0 < rounds ∧ j = i + 32767 * rounds) ∧
    ∀ (k : Nat) (h : k < issued.length) (closed last : Machine) (later : List Handle)
      (table : HandleTable), Retires key issued[k] machine closed →
        TableCourse key closed later last → last.world.table? key = some table →
          table.get? issued[k] ≠ none →
            ∃ (i : Nat) (_ : i < later.length), later[i] = issued[k] ∧
              ∃ rounds, 0 < rounds ∧ issued.length + i = k + 32767 * rounds := by
  refine ⟨fun k h => ⟨course.generation new h, ?_⟩, fun i j early h same => ?_,
    fun k h closed last later table retires after found live => ?_⟩
  · exact course.slotIndex new HandleTable.wellFormed_empty _ (List.getElem_mem h)
  · exact course.rounds new early h same
  · exact course.reissued new h retires after found live

/-- The first handle of a new table is closed, and names its object again after one round. -/
theorem numbered_round : ∃ handle opened closed later last table,
    (createHandle (.standalone ⟨0⟩) ⟨⟨0⟩, ⟨1⟩⟩).run Situation.naming.machine
        = .ok (.ok handle) opened ∧
      (closeHandle (.standalone ⟨0⟩) handle).run opened = .ok (.ok ()) closed ∧
      TableCourse (.standalone ⟨0⟩) closed later last ∧
      last.world.table? (.standalone ⟨0⟩) = some table ∧ table.get? handle ≠ none ∧
      handle.generation = 1 ∧ ∃ (i : Nat) (_ : i < later.length), later[i] = handle ∧
        ∃ rounds, 0 < rounds ∧ 1 + i = 32767 * rounds := by
  obtain ⟨opened, -, -, -, -, issue, -⟩ := Situation.reuses_slot
  obtain ⟨closed, later, last, table, returned, after, -, found, resolved⟩ :=
    exists_reissue (.new Situation.table?_naming) issue ⟨2, Situation.refs?_naming, by decide⟩
  have course : TableCourse (.standalone ⟨0⟩) Situation.naming.machine [⟨1⟩] opened :=
    (TableStep.create issue).course
  have live : table.get? ⟨1⟩ ≠ none := by simp [HandleTable.get?, resolved]
  obtain ⟨number, -, again⟩ := TableCourse.allocations_numbered Situation.table?_naming course
  obtain ⟨i, inside, same, rounds, some, apart⟩ :=
    again 0 Nat.zero_lt_one closed last later table (.close returned) after found live
  exact ⟨⟨1⟩, opened, closed, later, last, table, issue, returned, after, found, live,
    (number 0 Nat.zero_lt_one).1, i, inside, same, rounds, some, by simpa using apart⟩

end MicrokernelIpc
