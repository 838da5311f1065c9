import MicrokernelIpc.Proofs.Conservation.Runs
import MicrokernelIpc.Proofs.HandleTable.Courses

/-!
# A handle table is a bounded finite map

Each call on a handle table whose representation is in order acts on it as on a finite map from
handles to references that holds 4096 entries at most. Calls that take or let go of references rely
on the objects that the table names being there. In every run that keeps to the limits they are,
since a reference that stands in a table is counted.
-/

namespace MicrokernelIpc

/-- Every object that the table names is there. -/
def World.Backs (w : World) (table : HandleTable) : Prop :=
  ∀ ref ∈ table.objects, (w.refs? ref).isSome

/-- References are put into the table and taken out of it as with a finite map that has room for 4096
entries, and no call finds a handle that the table does not resolve. -/
structure HoldsAsMap (key : TableKey) (machine : Machine) (table : HandleTable) : Prop where
  create_room : ∀ object, table.live < HandleTable.maxCount →
    ∃ handle after next, (createHandle key object).run machine = .ok (.ok handle) after ∧
      after.world.table? key = some next ∧ table.Adds handle object next
  create_full : ∀ object, ¬ table.live < HandleTable.maxCount →
    (machine.world.refs? object).isSome →
      ∃ after, (createHandle key object).run machine = .ok (.error .outOfHandles) after ∧
        after.world.table? key = some table
  duplicate_unknown : ∀ handle, table.resolve handle = none →
    ∃ after, (duplicateHandle key handle).run machine = .ok (.error (.notFound handle)) after ∧
      after.world = machine.world
  close_unknown : ∀ handle, table.resolve handle = none →
    ∃ after, (closeHandle key handle).run machine = .ok (.error (.notFound handle)) after ∧
      after.world = machine.world
  take_unknown : ∀ handle, table.resolve handle = none →
    ∃ after, takeHandle key handle machine = .ok none after ∧ after.world = machine.world
  take_known : ∀ handle object, table.resolve handle = some object →
    ∃ after next, takeHandle key handle machine = .ok (some object) after ∧
      after.world.table? key = some next ∧ table.Drops handle object next

/-- Each call does to the table what it would do to a finite map with room for 4096 entries. -/
structure ActsAsMap (key : TableKey) (machine : Machine) (table : HandleTable) : Prop
    extends HoldsAsMap key machine table where
  duplicate_room : ∀ handle object, table.resolve handle = some object →
    table.live < HandleTable.maxCount →
      ∃ copy after next, (duplicateHandle key handle).run machine = .ok (.ok copy) after ∧
        after.world.table? key = some next ∧ table.Adds copy object next
  duplicate_full : ∀ handle object, table.resolve handle = some object →
    ¬ table.live < HandleTable.maxCount →
      ∃ after, (duplicateHandle key handle).run machine = .ok (.error .outOfHandles) after ∧
        after.world.table? key = some table
  close_known : ∀ handle object, table.resolve handle = some object →
    ∃ after next, (closeHandle key handle).run machine = .ok (.ok ()) after ∧
      after.world.table? key = some next ∧ table.Drops handle object next
  acquire : ∀ handle,
    ∃ after, acquireHandle key handle machine = .ok (table.resolve handle) after ∧
      after.world.table? key = some table
  clear : ∃ after next, clearTable key machine = .ok () after ∧
    after.world.table? key = some next ∧ next.live = 0 ∧ ∀ handle, next.resolve handle = none

variable {w w' : World} {key : TableKey} {table : HandleTable} {object : ObjectRef}
variable {handle : Handle} {machine : Machine}

/-! ## What a call does to the table -/

theorem HandleTable.WellFormed.allocate_eq_none (wf : table.WellFormed)
    (full : ¬ table.live < HandleTable.maxCount) (object : ObjectRef) :
    table.allocate object = none :=
  wf.allocate_eq_none_iff.2 (le_antisymm wf.live_le (not_lt.1 full))

section

variable (found : w.table? key = some table)
include found

theorem World.Creates.adds {outcome : Except HandleTableError Handle}
    (creates : w.Creates key object outcome w') (wf : table.WellFormed)
    (room : table.live < HandleTable.maxCount) :
    ∃ handle next, outcome = .ok handle ∧ w'.table? key = some next ∧
      table.Adds handle object next := by
  cases creates with
  | issued there allocated =>
    obtain rfl := Option.some.inj (found.symm.trans there)
    exact ⟨_, _, rfl, table?_setTable_self found _, wf.adds_of_allocate allocated⟩
  | full there refused =>
    obtain rfl := Option.some.inj (found.symm.trans there)
    exact absurd (wf.allocate_eq_none_iff.1 refused) room.ne

theorem World.Creates.refused {outcome : Except HandleTableError Handle}
    (creates : w.Creates key object outcome w') (wf : table.WellFormed)
    (full : ¬ table.live < HandleTable.maxCount) :
    outcome = .error .outOfHandles ∧ w'.table? key = some table := by
  cases creates with
  | issued there allocated =>
    obtain rfl := Option.some.inj (found.symm.trans there)
    simp [wf.allocate_eq_none full] at allocated
  | full there refused released =>
    exact ⟨rfl, (table?_of_release? released).trans found⟩

theorem World.Duplicates.unresolved {outcome : Except HandleTableError Handle}
    (duplicates : w.Duplicates key handle outcome w') (none : table.resolve handle = none) :
    outcome = .error (.notFound handle) ∧ w' = w := by
  cases duplicates with
  | unknown => exact ⟨rfl, rfl⟩
  | copied there resolved =>
    obtain rfl := Option.some.inj (found.symm.trans there)
    simp [none] at resolved
  | full there resolved =>
    obtain rfl := Option.some.inj (found.symm.trans there)
    simp [none] at resolved

theorem World.Duplicates.adds {outcome : Except HandleTableError Handle}
    (duplicates : w.Duplicates key handle outcome w') (wf : table.WellFormed)
    (resolved : table.resolve handle = some object) (room : table.live < HandleTable.maxCount) :
    ∃ copy next, outcome = .ok copy ∧ w'.table? key = some next ∧
      table.Adds copy object next := by
  cases duplicates with
  | unknown there unresolved =>
    obtain rfl := Option.some.inj (found.symm.trans there)
    simp [resolved] at unresolved
  | copied there named retained allocated =>
    obtain rfl := Option.some.inj (found.symm.trans there)
    obtain rfl := Option.some.inj (resolved.symm.trans named)
    have same := (table?_of_retain? retained).trans found
    exact ⟨_, _, rfl, table?_setTable_self same _, wf.adds_of_allocate allocated⟩
  | full there named retained refused =>
    obtain rfl := Option.some.inj (found.symm.trans there)
    exact absurd (wf.allocate_eq_none_iff.1 refused) room.ne

theorem World.Duplicates.refused {outcome : Except HandleTableError Handle}
    (duplicates : w.Duplicates key handle outcome w') (wf : table.WellFormed)
    (resolved : table.resolve handle = some object)
    (full : ¬ table.live < HandleTable.maxCount) :
    outcome = .error .outOfHandles ∧ w'.table? key = some table := by
  cases duplicates with
  | unknown there unresolved =>
    obtain rfl := Option.some.inj (found.symm.trans there)
    simp [resolved] at unresolved
  | copied there named retained allocated =>
    obtain rfl := Option.some.inj (found.symm.trans there)
    simp [wf.allocate_eq_none full] at allocated
  | full there named retained refused released =>
    have same := (table?_of_retain? retained).trans found
    exact ⟨rfl, (table?_of_release? released).trans same⟩

theorem World.Takes.unresolved {outcome : Option ObjectRef}
    (takes : w.Takes key handle outcome w') (none : table.resolve handle = none) :
    outcome = .none ∧ w' = w := by
  cases takes with
  | unknown => exact ⟨rfl, rfl⟩
  | taken there taken =>
    obtain rfl := Option.some.inj (found.symm.trans there)
    simp [HandleTable.take_eq_none_iff.2 none] at taken

theorem World.Takes.drops {outcome : Option ObjectRef} (takes : w.Takes key handle outcome w')
    (resolved : table.resolve handle = some object) :
    ∃ next, outcome = some object ∧ w'.table? key = some next ∧
      table.Drops handle object next := by
  cases takes with
  | unknown there unresolved =>
    obtain rfl := Option.some.inj (found.symm.trans there)
    simp [HandleTable.take_eq_none_iff.1 unresolved] at resolved
  | taken there taken =>
    obtain rfl := Option.some.inj (found.symm.trans there)
    have drops := HandleTable.drops_of_take taken
    obtain rfl := Option.some.inj (resolved.symm.trans drops.named)
    exact ⟨_, rfl, table?_setTable_self found _, drops⟩

theorem World.Closes.unresolved {outcome : Except HandleTableError Unit}
    (closes : w.Closes key handle outcome w') (none : table.resolve handle = none) :
    outcome = .error (.notFound handle) ∧ w' = w := by
  cases closes with
  | unknown => exact ⟨rfl, rfl⟩
  | closed there taken =>
    obtain rfl := Option.some.inj (found.symm.trans there)
    simp [HandleTable.take_eq_none_iff.2 none] at taken

theorem World.Closes.drops {outcome : Except HandleTableError Unit}
    (closes : w.Closes key handle outcome w') (resolved : table.resolve handle = some object) :
    ∃ next, outcome = .ok () ∧ w'.table? key = some next ∧ table.Drops handle object next := by
  cases closes with
  | unknown there unresolved =>
    obtain rfl := Option.some.inj (found.symm.trans there)
    simp [HandleTable.take_eq_none_iff.1 unresolved] at resolved
  | closed there taken released =>
    obtain rfl := Option.some.inj (found.symm.trans there)
    have drops := HandleTable.drops_of_take taken
    obtain rfl := Option.some.inj (resolved.symm.trans drops.named)
    have same := (table?_of_release? released).trans (table?_setTable_self found _)
    exact ⟨_, rfl, same, drops⟩

theorem World.Acquires.resolves {outcome : Option ObjectRef}
    (acquires : w.Acquires key handle outcome w') : outcome = table.resolve handle := by
  cases acquires with
  | unknown there unresolved =>
    obtain rfl := Option.some.inj (found.symm.trans there)
    exact unresolved.symm
  | acquired there resolved =>
    obtain rfl := Option.some.inj (found.symm.trans there)
    exact resolved.symm

theorem World.Clears.empties (clears : w.Clears key w') (wf : table.WellFormed) :
    ∃ next, w'.table? key = some next ∧ next.live = 0 ∧
      ∀ handle, next.resolve handle = none := by
  cases clears with
  | cleared there released =>
    obtain rfl := Option.some.inj (found.symm.trans there)
    have same := (table?_of_releaseAll? released).trans (table?_setTable_self found _)
    exact ⟨_, same, wf.live_clear, wf.resolve_clear⟩

end

/-! ## Every call returns -/

theorem World.Backs.refs? (backs : w.Backs table) (resolved : table.resolve handle = some object) :
    w.refs? object ≠ none := by
  have := backs object (HandleTable.mem_objects_of_resolve resolved)
  intro none
  simp [none] at this

theorem World.isSome_arena (h : (w.refs? object).isSome) : w.arenas.get? object.arena ≠ none := by
  intro none
  simp [refs?, none] at h

section

variable (found : machine.world.table? key = some table)
include found

theorem createHandle_returns (object : ObjectRef)
    (there : table.allocate object = none → (machine.world.refs? object).isSome) :
    ∃ outcome after, (createHandle key object).run machine = .ok outcome after ∧
      machine.world.Creates key object outcome after.world := by
  refine (leads_createHandle (fun none => ?_) fun other there' refused none => ?_).returns
  · simp [found] at none
  · obtain rfl := Option.some.inj (found.symm.trans there')
    exact World.isSome_arena (there refused) none

theorem duplicateHandle_returns (handle : Handle)
    (there : ∀ object, table.resolve handle = some object → machine.world.refs? object ≠ none) :
    ∃ outcome after, (duplicateHandle key handle).run machine = .ok outcome after ∧
      machine.world.Duplicates key handle outcome after.world := by
  refine (leads_duplicateHandle (fun none => ?_) fun other object there' resolved none => ?_).returns
  · simp [found] at none
  · obtain rfl := Option.some.inj (found.symm.trans there')
    exact (there object resolved none).elim

theorem takeHandle_returns (handle : Handle) :
    ∃ outcome after, takeHandle key handle machine = .ok outcome after ∧
      machine.world.Takes key handle outcome after.world :=
  (leads_takeHandle fun none => by simp [found] at none).returns

theorem closeHandle_returns (handle : Handle)
    (there : ∀ object, table.resolve handle = some object → machine.world.refs? object ≠ none) :
    ∃ outcome after, (closeHandle key handle).run machine = .ok outcome after ∧
      machine.world.Closes key handle outcome after.world := by
  refine (leads_closeHandle (fun none => ?_) fun other object there' resolved none => ?_).returns
  · simp [found] at none
  · obtain rfl := Option.some.inj (found.symm.trans there')
    exact there object resolved (by simp [World.refs?, none])

theorem acquireHandle_returns (handle : Handle)
    (there : ∀ object, table.resolve handle = some object → machine.world.refs? object ≠ none) :
    ∃ outcome after, acquireHandle key handle machine = .ok outcome after ∧
      machine.world.Acquires key handle outcome after.world := by
  refine (leads_acquireHandle (fun none => ?_) fun other object there' resolved none => ?_).returns
  · simp [found] at none
  · obtain rfl := Option.some.inj (found.symm.trans there')
    exact (there object resolved none).elim

theorem clearTable_returns (there : ∀ ref ∈ table.clear.1, machine.world.refs? ref ≠ none) :
    ∃ after, clearTable key machine = .ok () after ∧ machine.world.Clears key after.world := by
  have leads : Leads machine.world (clearTable key) _ fun _ => False :=
    leads_clearTable (fun none => by simp [found] at none) fun other there' ref h none => by
      obtain rfl := Option.some.inj (found.symm.trans there')
      exact there ref h (by simp [World.refs?, none])
  obtain ⟨_, after, returned, clears⟩ := leads.returns
  exact ⟨after, returned, clears⟩

/-- Every call acts on a table in order as on a finite map, as far as it needs no object that the
table names. -/
theorem HandleTable.WellFormed.holdsAsMap (wf : table.WellFormed) : HoldsAsMap key machine table where
  create_room object room := by
    obtain ⟨outcome, after, returned, creates⟩ :=
      createHandle_returns found object fun full => (room.ne (wf.allocate_eq_none_iff.1 full)).elim
    obtain ⟨handle, next, rfl, there, adds⟩ := creates.adds found wf room
    exact ⟨handle, after, next, returned, there, adds⟩
  create_full object full alive := by
    obtain ⟨outcome, after, returned, creates⟩ :=
      createHandle_returns found object fun _ => alive
    obtain ⟨rfl, same⟩ := creates.refused found wf full
    exact ⟨after, returned, same⟩
  duplicate_unknown handle unresolved := by
    obtain ⟨outcome, after, returned, duplicates⟩ :=
      duplicateHandle_returns found handle (by simp [unresolved])
    obtain ⟨rfl, same⟩ := duplicates.unresolved found unresolved
    exact ⟨after, returned, same⟩
  close_unknown handle unresolved := by
    obtain ⟨outcome, after, returned, closes⟩ :=
      closeHandle_returns found handle (by simp [unresolved])
    obtain ⟨rfl, same⟩ := closes.unresolved found unresolved
    exact ⟨after, returned, same⟩
  take_unknown handle unresolved := by
    obtain ⟨outcome, after, returned, takes⟩ := takeHandle_returns found handle
    obtain ⟨rfl, same⟩ := takes.unresolved found unresolved
    exact ⟨after, returned, same⟩
  take_known handle object resolved := by
    obtain ⟨outcome, after, returned, takes⟩ := takeHandle_returns found handle
    obtain ⟨next, rfl, there, drops⟩ := takes.drops found resolved
    exact ⟨after, next, returned, there, drops⟩

/-- Every call acts on a table in order as on a finite map. -/
theorem HandleTable.WellFormed.actsAsMap (wf : table.WellFormed) (backs : machine.world.Backs table) :
    ActsAsMap key machine table where
  toHoldsAsMap := wf.holdsAsMap found
  duplicate_room handle object resolved room := by
    obtain ⟨outcome, after, returned, duplicates⟩ :=
      duplicateHandle_returns found handle fun _ h => backs.refs? h
    obtain ⟨copy, next, rfl, there, adds⟩ := duplicates.adds found wf resolved room
    exact ⟨copy, after, next, returned, there, adds⟩
  duplicate_full handle object resolved full := by
    obtain ⟨outcome, after, returned, duplicates⟩ :=
      duplicateHandle_returns found handle fun _ h => backs.refs? h
    obtain ⟨rfl, same⟩ := duplicates.refused found wf resolved full
    exact ⟨after, returned, same⟩
  close_known handle object resolved := by
    obtain ⟨outcome, after, returned, closes⟩ :=
      closeHandle_returns found handle fun _ h => backs.refs? h
    obtain ⟨next, rfl, there, drops⟩ := closes.drops found resolved
    exact ⟨after, next, returned, there, drops⟩
  acquire handle := by
    obtain ⟨outcome, after, returned, acquires⟩ :=
      acquireHandle_returns found handle fun _ h => backs.refs? h
    obtain rfl := acquires.resolves found
    exact ⟨after, returned, acquires.table?.trans found⟩
  clear := by
    obtain ⟨after, returned, clears⟩ := clearTable_returns found fun ref h none => by
      have := backs ref (wf.mem_clear.1 h)
      simp [none] at this
    obtain ⟨next, there, empty, unresolved⟩ := clears.empties found wf
    exact ⟨after, next, returned, there, empty, unresolved⟩

end

/-! ## Runs -/

/-- What a handle table names is there, as every call on the table relies on. -/
theorem Run.backs {s : Situation} (run : Run Situation.WithinLimits .new s)
    (found : s.machine.world.table? key = some table) : s.machine.world.Backs table := by
  obtain ⟨sound, -⟩ := run.sound_of_new
  intro ref mem
  have counted := World.count_pos_of_mem found mem
  rw [Option.isSome_iff_ne_none]
  exact sound.refs?_ne_none trivial (by rw [World.references]; omega)

/-- **In every run handle tables act as finite maps.** Wherever a run within the limits leads, every
handle table that is there is in order and each call acts on it as on a map. -/
theorem Run.actsAsMap {s : Situation} (run : Run Situation.WithinLimits .new s)
    (found : s.machine.world.table? key = some table) :
    table.WellFormed ∧ ActsAsMap key s.machine table := by
  obtain ⟨sound, -⟩ := run.sound_of_new
  have wf := sound.tables _ _ found
  exact ⟨wf, wf.actsAsMap found (run.backs found)⟩

/-- There is room for a copy of a handle where the table has room and no object too many references.
Besides the table and the counts of the objects nothing changes. -/
theorem Run.exists_copy {s : Situation} (run : Run Situation.WithinLimits .new s)
    (found : s.machine.world.table? key = some table) (resolved : table.resolve handle = some object)
    (room : table.live < HandleTable.maxCount) (few : ∀ ref, s.references ref + 1 < 2 ^ 32) :
    ∃ t next, Run Situation.WithinLimits .new t ∧ next.live = table.live + 1 ∧
      next.resolve handle = some object ∧
      (∃ arenas, t.machine.world = (s.machine.world.setTable next key).withArenas arenas) ∧
      ∀ ref, t.references ref ≤ s.references ref + 1 := by
  obtain ⟨sound, within⟩ := run.sound_of_new
  have wf := sound.tables _ _ found
  obtain ⟨outcome, machine, returned, duplicates⟩ :=
    duplicateHandle_returns found handle fun _ => (run.backs found).refs?
  generalize left : machine.world = w' at duplicates
  cases duplicates with
  | unknown found' unresolved =>
    obtain rfl := Option.some.inj (found.symm.trans found')
    cases resolved.symm.trans unresolved
  | full found' named retained refused =>
    obtain rfl := Option.some.inj (found.symm.trans found')
    exact absurd (wf.allocate_eq_none_iff.1 refused) room.ne
  | @copied _ next _ copy held found' named retained allocated =>
    obtain rfl := Option.some.inj (found.symm.trans found')
    obtain rfl := Option.some.inj (resolved.symm.trans named)
    have same := (World.table?_of_retain? retained).trans found
    obtain ⟨index, -, -, fills⟩ := wf.fills_of_allocate allocated
    have adds := wf.adds_of_allocate allocated
    let op : Operation := .duplicate key handle
    have references : ∀ ref, (s.after op 0 machine).references ref ≤ s.references ref + 1 := by
      intro ref
      have moved : (held.setTable next key).references s.held ref = _ :=
        World.references_of_allocate same wf allocated ref
      have kept : held.count ref = s.machine.world.count ref := World.count_of_retain? retained
      simp only [World.references, Multiset.count_cons] at moved
      simp only [Situation.references, World.references, Situation.after, left, op, Operation.gives,
        zero_add, tsub_zero]
      split at moved <;> omega
    refine ⟨s.after op 0 machine, next, ?_, fills.live, ?_, ?_, references⟩
    · refine .step run (Multiset.zero_le _) (bind_eq_ok_iff.2 ⟨_, _, returned, rfl⟩)
        (fun _ passes => (Operation.not_passes rfl passes).elim) ?_
      exact ⟨fun ref => (references ref).trans_lt (few ref), within.2⟩
    · have other : handle ≠ copy := by
        rintro rfl
        cases resolved.symm.trans adds.fresh
      rw [adds.resolve, if_neg other, resolved]
    · exact ⟨_, by rw [Situation.after, left, World.of_retain? retained, World.setTable_withArenas]⟩

/-- A handle can be copied until its table is full. -/
theorem Run.exists_filled {s : Situation} (run : Run Situation.WithinLimits .new s)
    (found : s.machine.world.table? key = some table) (resolved : table.resolve handle = some object)
    {count : Nat} (room : table.live + count ≤ HandleTable.maxCount)
    (few : ∀ ref, s.references ref + count < 2 ^ 32) :
    ∃ t next, Run Situation.WithinLimits .new t ∧ next.live = table.live + count ∧
      next.resolve handle = some object ∧
      (∃ arenas, t.machine.world = (s.machine.world.setTable next key).withArenas arenas) ∧
      ∀ ref, t.references ref ≤ s.references ref + count := by
  induction count with
  | zero =>
    refine ⟨s, table, run, rfl, resolved, ⟨s.machine.world.arenas, ?_⟩, fun ref => le_rfl⟩
    rw [World.setTable_self found, World.withArenas_self]
  | succ count ih =>
    obtain ⟨between, filled, run, live, named, ⟨arenas, left⟩, references⟩ :=
      ih (by omega) fun ref => by have := few ref; omega
    have found' : between.machine.world.table? key = some filled := by
      rw [left, World.table?_withArenas, World.table?_setTable_self found]
    obtain ⟨t, next, run, more, named, ⟨last, ended⟩, most⟩ :=
      run.exists_copy found' named (by omega) fun ref => by
        have := references ref
        have := few ref
        omega
    refine ⟨t, next, run, by omega, named, ⟨last, ?_⟩, fun ref => ?_⟩
    · rw [ended, left, World.setTable_withArenas, World.setTable_setTable, World.withArenas_withArenas]
    · have := most ref
      have := references ref
      omega

/-- **A handle table refines a bounded finite map.** After every run its representation is in
order, each occupied slot has its one handle, as many as the table counts and none of them
reserved, and every further call acts on it as on a map, those that take or let go of references as
long as the objects that the table names are there. -/
theorem TableRun.refines_map (run : TableRun key machine) :
    ∃ table, machine.world.table? key = some table ∧ table.WellFormed ∧
      Set.BijOn Handle.slotIndex {handle | table.isLive handle} table.occupied ∧
      {handle | table.isLive handle}.ncard = table.live ∧
      (∀ handle, table.isLive handle → handle ≠ Handle.invalid ∧ handle.isPseudo = false) ∧
      HoldsAsMap key machine table ∧
      (machine.world.Backs table → ActsAsMap key machine table) := by
  obtain ⟨table, found, wf⟩ := run.wellFormed
  exact ⟨table, found, wf, wf.bijOn_slotIndex, wf.ncard_isLive, fun _ => wf.of_isLive,
    wf.holdsAsMap found, wf.actsAsMap found⟩

/-- A new table, and an event that is held twice. -/
def Situation.naming : Situation :=
  performAll [.newTable, .createEvent "event" .oneShot, .share ⟨⟨0⟩, ⟨1⟩⟩]

theorem Situation.table?_naming :
    naming.machine.world.table? (.standalone ⟨0⟩) = some .empty := by
  decide +kernel

/-- A handle for the event is created, copied and closed, and one more is created, in the slot that
was freed. -/
theorem Situation.reuses_slot : ∃ opened copied closed last table,
    (createHandle (.standalone ⟨0⟩) ⟨⟨0⟩, ⟨1⟩⟩).run naming.machine = .ok (.ok ⟨1⟩) opened ∧
    (duplicateHandle (.standalone ⟨0⟩) ⟨1⟩).run opened = .ok (.ok ⟨0x8002⟩) copied ∧
    (closeHandle (.standalone ⟨0⟩) ⟨1⟩).run copied = .ok (.ok ()) closed ∧
    (createHandle (.standalone ⟨0⟩) ⟨⟨0⟩, ⟨1⟩⟩).run closed = .ok (.ok ⟨3⟩) last ∧
    last.world.table? (.standalone ⟨0⟩) = some table ∧ last.world.Backs table ∧ table.live = 2 ∧
    table.resolve ⟨1⟩ = none ∧ table.resolve ⟨3⟩ = some ⟨⟨0⟩, ⟨1⟩⟩ := by
  let calls : Action _ := do
    let first ← (createHandle (.standalone ⟨0⟩) ⟨⟨0⟩, ⟨1⟩⟩).run
    let copy ← (duplicateHandle (.standalone ⟨0⟩) ⟨1⟩).run
    let gone ← (closeHandle (.standalone ⟨0⟩) ⟨1⟩).run
    let again ← (createHandle (.standalone ⟨0⟩) ⟨⟨0⟩, ⟨1⟩⟩).run
    return (gone, [first, copy, again])
  have left : (Effect.runFrom calls naming.machine).map (fun (outcomes, last) =>
      (outcomes, (last.world.table? (.standalone ⟨0⟩)).map fun table =>
        decide ((∀ ref ∈ table.objects, (last.world.refs? ref).isSome) ∧ table.live = 2 ∧
          table.resolve ⟨1⟩ = none ∧ table.resolve ⟨3⟩ = some ⟨⟨0⟩, ⟨1⟩⟩)))
      = .ok ((.ok (), [.ok ⟨1⟩, .ok ⟨0x8002⟩, .ok ⟨3⟩]), some true) := by decide +kernel
  obtain ⟨_, last, returned, read⟩ := exists_of_runFrom left
  simp only [Prod.mk.injEq, Option.map_eq_some_iff, decide_eq_true_eq] at read
  obtain ⟨rfl, table, found, backs, live, gone, named⟩ := read
  simp only [calls, bind_eq_ok_iff] at returned
  obtain ⟨_, opened, created, _, copied, duplicated, _, closed, closes, _, _, refilled, ended⟩ :=
    returned
  cases ended
  exact ⟨opened, copied, closed, last, table, created, duplicated, closes, refilled, found, backs,
    live, gone, named⟩

/-- After handles for an event were created, copied and closed and the freed slot was filled again,
the table has its two handles, and closing one, asking for the one that is gone, and clearing the
table do what they would do to a map. The run goes on with the table that was cleared. -/
theorem refines_map_reusing_slot : ∃ machine table, TableRun (.standalone ⟨0⟩) machine ∧
    machine.world.table? (.standalone ⟨0⟩) = some table ∧ machine.world.Backs table ∧
    {handle | table.isLive handle}.ncard = 2 ∧
    (∃ after, (duplicateHandle (.standalone ⟨0⟩) ⟨1⟩).run machine
      = .ok (.error (.notFound ⟨1⟩)) after) ∧
    (∃ copy after next, (duplicateHandle (.standalone ⟨0⟩) ⟨3⟩).run machine = .ok (.ok copy) after ∧
      after.world.table? (.standalone ⟨0⟩) = some next ∧ table.Adds copy ⟨⟨0⟩, ⟨1⟩⟩ next) ∧
    (∃ after next, (closeHandle (.standalone ⟨0⟩) ⟨3⟩).run machine = .ok (.ok ()) after ∧
      after.world.table? (.standalone ⟨0⟩) = some next ∧ table.Drops ⟨3⟩ ⟨⟨0⟩, ⟨1⟩⟩ next) ∧
    ∃ after next, clearTable (.standalone ⟨0⟩) machine = .ok () after ∧
      TableRun (.standalone ⟨0⟩) after ∧ after.world.table? (.standalone ⟨0⟩) = some next ∧
      {handle | next.isLive handle}.ncard = 0 ∧ ∀ handle, next.resolve handle = none := by
  obtain ⟨opened, copied, closed, last, table, created, duplicated, closes, refilled, found, backs, live,
    gone, named⟩ := Situation.reuses_slot
  have course := (((TableCourse.refl.step (.create created)).step (.duplicate duplicated)).step
    (.close closes)).step (.create refilled)
  have run : TableRun (.standalone ⟨0⟩) last := (TableRun.new Situation.table?_naming).append course
  obtain ⟨_, found', -, -, count, -, holds, acts⟩ := TableRun.refines_map run
  obtain rfl := Option.some.inj (found.symm.trans found')
  have acts := acts backs
  obtain ⟨after, unknown, -⟩ := holds.duplicate_unknown _ gone
  have room : table.live < HandleTable.maxCount := by
    rw [live]
    decide
  obtain ⟨cleared, next, clears, there, none, empty⟩ := acts.clear
  have ended : TableRun (.standalone ⟨0⟩) cleared := run.append (TableStep.clear clears).course
  obtain ⟨_, there', -, -, left, -⟩ := TableRun.refines_map ended
  obtain rfl := Option.some.inj (there.symm.trans there')
  exact ⟨last, table, run, found, backs, count.trans live, ⟨after, unknown⟩,
    acts.duplicate_room _ _ named room, acts.close_known _ _ named, cleared, next, clears, ended, there,
    left.trans none, empty⟩

end MicrokernelIpc
