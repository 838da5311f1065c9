import MicrokernelIpc.Kernel.Lifetime
import MicrokernelIpc.Proofs.HandleTable.Operations
import MicrokernelIpc.Proofs.Kernel.Leads

/-!
# What the calls do to the world

Each call on references and handles is described once: the ways it can end, as a relation
between the world before, the outcome and the world after, and the judgement that the call
ends in one of them. Everything else that is said of a call is said of its relation.

A judgement takes the reasons for which the call may fault, each as the condition under
which that fault is met.
-/

namespace MicrokernelIpc

variable {w w' : World} {stop : Fault → Prop} {key : TableKey} {ref object : ObjectRef}
variable {handle : Handle}

namespace World

/-- The entry of an object, if it is there. -/
def stored? (w : World) (ref : ObjectRef) : Option ArenaEntry :=
  (w.arenas.get? ref.arena).bind fun arena => arena.find? ref.id

/-- The number of references that are counted for an object, if it is there. -/
def refs? (w : World) (ref : ObjectRef) : Option UInt32 :=
  (w.arenas.get? ref.arena).bind fun arena => (arena.find? ref.id).map ArenaEntry.refs

/-- The world with one more reference counted, if the object is there. -/
def retain? (w : World) (ref : ObjectRef) : Option World :=
  (w.arenas.get? ref.arena).bind fun arena => (arena.retain ref.id).map (w.setArena ref.arena)

/-- The world with one reference less, if the arena is there. -/
def release? (w : World) (ref : ObjectRef) : Option World :=
  (w.arenas.get? ref.arena).map fun arena => w.setArena ref.arena (arena.release ref.id).2

/-- The world without several references, let go one after the other. -/
def releaseAll? (w : World) (refs : List ObjectRef) : Option World :=
  refs.foldlM release? w

theorem refs?_eq_map : w.refs? ref = (w.stored? ref).map ArenaEntry.refs := by
  unfold refs? stored?
  cases w.arenas.get? ref.arena <;> rfl

/-! ## Reading a changed world -/

@[simp] theorem arenas_setTable (table : HandleTable) :
    (w.setTable table key).arenas = w.arenas := by
  cases key <;> rfl

@[simp] theorem refs?_setTable (table : HandleTable) :
    (w.setTable table key).refs? ref = w.refs? ref := by
  simp [refs?]

@[simp] theorem table?_setArena {a : Key Arena} {arena : Arena} :
    (w.setArena a arena).table? key = w.table? key := by
  cases key <;> rfl

theorem table?_of_process {place : Key Process} {process : Process}
    (found : w.processes.get? place = some process) :
    w.table? (.process place) = some process.handles :=
  congrArg (Option.map Process.handles) found

theorem table?_setTable (table : HandleTable) (other : TableKey) :
    (w.setTable table key).table? other
      = if key = other then (w.table? other).map fun _ => table else w.table? other := by
  cases key <;> cases other <;>
    simp only [table?, setTable, Roster.get?_modify, reduceCtorEq, if_false,
      TableKey.process.injEq, TableKey.standalone.injEq]
  split <;> simp [Function.comp_def]

theorem table?_setTable_self {table : HandleTable} (h : w.table? key = some table)
    (next : HandleTable) : (w.setTable next key).table? key = some next := by
  simp [table?_setTable, h]

theorem retain?_eq_none_iff : w.retain? ref = none ↔ w.refs? ref = none := by
  unfold retain? refs?
  cases w.arenas.get? ref.arena with
  | none => simp
  | some arena => simp [Arena.retain_eq_none_iff]

theorem exists_of_retain? (h : w.retain? ref = some w') :
    ∃ arena next, w.arenas.get? ref.arena = some arena ∧ arena.retain ref.id = some next ∧
      w' = w.setArena ref.arena next := by
  unfold retain? at h
  obtain ⟨arena, harena, h⟩ := Option.bind_eq_some_iff.1 h
  obtain ⟨next, hnext, rfl⟩ := Option.map_eq_some_iff.1 h
  exact ⟨arena, next, harena, hnext, rfl⟩

theorem exists_of_release? (h : w.release? ref = some w') :
    ∃ arena, w.arenas.get? ref.arena = some arena ∧
      w' = w.setArena ref.arena (arena.release ref.id).2 := by
  unfold release? at h
  obtain ⟨arena, harena, rfl⟩ := Option.map_eq_some_iff.1 h
  exact ⟨arena, harena, rfl⟩

theorem stored?_setArena {a : Key Arena} {arena next : Arena} (h : w.arenas.get? a = some arena) :
    (w.setArena a next).stored? ref
      = if a = ref.arena then next.find? ref.id else w.stored? ref := by
  simp only [stored?, setArena, Roster.get?_modify]
  split
  · next e =>
    subst e
    simp [h]
  · rfl

theorem refs?_setArena {a : Key Arena} {arena next : Arena} (h : w.arenas.get? a = some arena) :
    (w.setArena a next).refs? ref
      = if a = ref.arena then (next.find? ref.id).map ArenaEntry.refs else w.refs? ref := by
  simp only [refs?_eq_map, stored?_setArena h]
  split <;> rfl

/-- Where only one object of an arena changes, only that object changes in the world. -/
theorem stored?_setArena_of_find? {arena next : Arena}
    (change : Option ArenaEntry → Option ArenaEntry)
    (there : w.arenas.get? object.arena = some arena)
    (find : ∀ id, next.find? id
      = if object.id = id then change (arena.find? object.id) else arena.find? id)
    (ref : ObjectRef) : (w.setArena object.arena next).stored? ref
      = if ref = object then change (w.stored? object) else w.stored? ref := by
  rw [stored?_setArena there, find]
  by_cases same : object.arena = ref.arena
  · by_cases ids : object.id = ref.id
    · obtain rfl : ref = object := by cases ref; cases object; simp_all
      simp [stored?, there]
    · have : ref ≠ object := by rintro rfl; exact ids rfl
      simp [stored?, this, ← same, ids, there]
  · have : ref ≠ object := by rintro rfl; exact same rfl
    simp [same, this]

/-- One reference more is counted for the object, and nothing else changes. -/
theorem stored?_of_retain? (h : w.retain? object = some w') (ref : ObjectRef) :
    w'.stored? ref
      = if ref = object then (w.stored? object).map fun entry => { entry with refs := entry.refs + 1 }
        else w.stored? ref := by
  obtain ⟨arena, next, there, retained, rfl⟩ := exists_of_retain? h
  exact stored?_setArena_of_find? (Option.map _) there (Arena.find?_retain retained) ref

/-- One reference less is counted for the object, and nothing else changes; the last one takes
the object with it. -/
theorem stored?_of_release? (h : w.release? object = some w') (ref : ObjectRef) :
    w'.stored? ref
      = if ref = object then (w.stored? object).bind fun entry =>
          if entry.refs = 1 then none else some { entry with refs := entry.refs - 1 }
        else w.stored? ref := by
  obtain ⟨arena, there, rfl⟩ := exists_of_release? h
  exact stored?_setArena_of_find? (fun entry => entry.bind _) there
    (arena.find?_release object.id) ref

theorem refs?_of_retain? (h : w.retain? object = some w') (ref : ObjectRef) :
    w'.refs? ref
      = if ref = object then (w.refs? object).map fun refs => refs + 1 else w.refs? ref := by
  simp only [refs?_eq_map, stored?_of_retain? h]
  split <;> simp [Function.comp_def]

theorem refs?_of_release? (h : w.release? object = some w') (ref : ObjectRef) :
    w'.refs? ref
      = if ref = object then
          (w.refs? object).bind fun refs => if refs = 1 then none else some (refs - 1)
        else w.refs? ref := by
  simp only [refs?_eq_map, stored?_of_release? h]
  split
  · cases w.stored? object with
    | none => rfl
    | some entry =>
      simp only [Option.bind_some, Option.map_some]
      split <;> rfl
  · rfl

theorem isSome_refs?_of_retain? (h : w.retain? object = some w') :
    ∃ refs, w.refs? object = some refs := by
  apply Option.ne_none_iff_exists'.1
  intro none
  rw [retain?_eq_none_iff.2 none] at h
  cases h

/-- The arena of a reference that was counted is there. -/
theorem arena_of_retain? (h : w.retain? object = some w') :
    w'.arenas.get? object.arena ≠ none := by
  obtain ⟨_, _, there, _, rfl⟩ := exists_of_retain? h
  simp [setArena, Roster.get?_modify, there]

theorem table?_of_retain? (h : w.retain? ref = some w') : w'.table? key = w.table? key := by
  obtain ⟨_, _, _, _, rfl⟩ := exists_of_retain? h
  simp

theorem table?_of_release? (h : w.release? ref = some w') : w'.table? key = w.table? key := by
  obtain ⟨_, _, rfl⟩ := exists_of_release? h
  simp

/-- Letting a reference go takes no arena away. -/
theorem isSome_arena_of_release? (h : w.release? ref = some w') (a : Key Arena) :
    (w'.arenas.get? a).isSome = (w.arenas.get? a).isSome := by
  obtain ⟨_, _, rfl⟩ := exists_of_release? h
  simp only [setArena, Roster.get?_modify]
  split <;> simp

/-! ## The ways a call can end -/

/-- How the creation of a handle ends. -/
inductive Creates (w : World) (key : TableKey) (object : ObjectRef) :
    Except HandleTableError Handle → World → Prop
  | issued {table next : HandleTable} {handle : Handle} (found : w.table? key = some table)
      (allocated : table.allocate object = some (handle, next)) :
      Creates w key object (.ok handle) (w.setTable next key)
  | full {table : HandleTable} {w' : World} (found : w.table? key = some table)
      (refused : table.allocate object = none) (released : w.release? object = some w') :
      Creates w key object (.error .outOfHandles) w'

/-- How the duplication of a handle ends. -/
inductive Duplicates (w : World) (key : TableKey) (handle : Handle) :
    Except HandleTableError Handle → World → Prop
  | unknown {table : HandleTable} (found : w.table? key = some table)
      (unresolved : table.resolve handle = none) :
      Duplicates w key handle (.error (.notFound handle)) w
  | copied {table next : HandleTable} {object : ObjectRef} {copy : Handle} {held : World}
      (found : w.table? key = some table) (resolved : table.resolve handle = some object)
      (retained : w.retain? object = some held)
      (allocated : table.allocate object = some (copy, next)) :
      Duplicates w key handle (.ok copy) (held.setTable next key)
  | full {table : HandleTable} {object : ObjectRef} {held w' : World}
      (found : w.table? key = some table) (resolved : table.resolve handle = some object)
      (retained : w.retain? object = some held) (refused : table.allocate object = none)
      (released : held.release? object = some w') :
      Duplicates w key handle (.error .outOfHandles) w'

/-- How the taking of a handle's reference ends. -/
inductive Takes (w : World) (key : TableKey) (handle : Handle) : Option ObjectRef → World → Prop
  | unknown {table : HandleTable} (found : w.table? key = some table)
      (unresolved : table.take handle = none) : Takes w key handle none w
  | taken {table next : HandleTable} {object : ObjectRef} (found : w.table? key = some table)
      (taken : table.take handle = some (object, next)) :
      Takes w key handle (some object) (w.setTable next key)

/-- How the closing of a handle ends. -/
inductive Closes (w : World) (key : TableKey) (handle : Handle) :
    Except HandleTableError Unit → World → Prop
  | unknown {table : HandleTable} (found : w.table? key = some table)
      (unresolved : table.take handle = none) : Closes w key handle (.error (.notFound handle)) w
  | closed {table next : HandleTable} {object : ObjectRef} {w' : World}
      (found : w.table? key = some table) (taken : table.take handle = some (object, next))
      (released : (w.setTable next key).release? object = some w') :
      Closes w key handle (.ok ()) w'

/-- How the acquisition of a handle's object ends. -/
inductive Acquires (w : World) (key : TableKey) (handle : Handle) :
    Option ObjectRef → World → Prop
  | unknown {table : HandleTable} (found : w.table? key = some table)
      (unresolved : table.resolve handle = none) : Acquires w key handle none w
  | acquired {table : HandleTable} {object : ObjectRef} {w' : World}
      (found : w.table? key = some table) (resolved : table.resolve handle = some object)
      (retained : w.retain? object = some w') : Acquires w key handle (some object) w'

/-- How the clearing of a table ends. -/
inductive Clears (w : World) (key : TableKey) : World → Prop
  | cleared {table : HandleTable} {w' : World} (found : w.table? key = some table)
      (released : (w.setTable table.clear.2 key).releaseAll? table.clear.1 = some w') :
      Clears w key w'

end World

/-! ## The judgements -/

section

variable {α : Type} {post : α → World → Prop}

theorem leads_arenaAt_bind {a : Key Arena} {rest : Arena → Action α}
    (some : ∀ arena, w.arenas.get? a = some arena → Leads w (rest arena) post stop)
    (none : w.arenas.get? a = none → stop .discarded) :
    Leads w (arenaAt a >>= rest) post stop :=
  leads_read_bind (fun w => w.arenas.get? a) some none

theorem leads_processAt_bind {a : Key Process} {rest : Process → Action α}
    (some : ∀ process, w.processes.get? a = some process → Leads w (rest process) post stop)
    (none : w.processes.get? a = none → stop .discarded) :
    Leads w (processAt a >>= rest) post stop :=
  leads_read_bind (fun w => w.processes.get? a) some none

theorem leads_threadAt_bind {a : Key Thread} {rest : Thread → Action α}
    (some : ∀ thread, w.threads.get? a = some thread → Leads w (rest thread) post stop)
    (none : w.threads.get? a = none → stop .discarded) :
    Leads w (threadAt a >>= rest) post stop :=
  leads_read_bind (fun w => w.threads.get? a) some none

theorem leads_tableAt_bind {rest : HandleTable → Action α}
    (some : ∀ table, w.table? key = some table → Leads w (rest table) post stop)
    (none : w.table? key = none → stop .discarded) :
    Leads w (tableAt key >>= rest) post stop :=
  leads_read_bind (fun w => w.table? key) some none

end

theorem leads_retain (gone : w.refs? ref = none → stop .discarded ∧ stop (.retainDestroyed ref.id)) :
    Leads w (retain ref) (fun _ next => w.retain? ref = some next) stop := by
  refine leads_arenaAt_bind (fun arena h => ?_) fun h => (gone (by simp [World.refs?, h])).1
  cases hr : arena.retain ref.id with
  | none => exact leads_throw (gone (by simp [World.refs?, h, Arena.retain_eq_none_iff.1 hr])).2
  | some next => exact leads_modifyWorld (by simp [World.retain?, h, hr])

theorem leads_release (gone : w.arenas.get? ref.arena = none → stop .discarded) :
    Leads w (release ref) (fun _ next => w.release? ref = some next) stop := by
  refine leads_arenaAt_bind (fun arena h => ?_) gone
  cases hr : arena.release ref.id with
  | mk destroyed next =>
    have released : w.release? ref = some (w.setArena ref.arena next) := by
      simp [World.release?, h, hr]
    apply leads_modifyWorld_bind
    cases destroyed with
    | none => exact leads_pure released
    | some object => exact leads_note released

theorem leads_releaseAll {refs : List ObjectRef}
    (gone : ∀ ref ∈ refs, w.arenas.get? ref.arena = none → stop .discarded) :
    Leads w (releaseAll refs) (fun _ next => w.releaseAll? refs = some next) stop := by
  induction refs generalizing w with
  | nil => exact leads_pure rfl
  | cons ref rest ih =>
    show Leads w (release ref >>= fun _ => releaseAll rest) _ stop
    apply (leads_release (gone ref (by simp))).bind
    intro _ next released
    refine (ih fun other h none => gone other (by simp [h]) ?_).mono ?_ fun _ h => h
    · have := World.isSome_arena_of_release? released other.arena
      simpa [none] using this
    · intro _ last h
      simpa [World.releaseAll?, released] using h

theorem leads_createHandle (lost : w.table? key = none → stop .discarded)
    (gone : ∀ table, w.table? key = some table → table.allocate object = none →
      w.arenas.get? object.arena = none → stop .discarded) :
    Leads w (createHandle key object).run (w.Creates key object) stop := by
  unfold createHandle
  rw [run_lift_bind]
  refine leads_tableAt_bind (fun table found => ?_) lost
  cases ha : table.allocate object with
  | some issued =>
    obtain ⟨handle, next⟩ := issued
    simp only [run_lift_bind]
    exact leads_modifyWorld_bind (leads_note_bind (leads_run_pure (.issued found ha)))
  | none =>
    simp only [run_lift_bind]
    apply (leads_release (gone table found ha)).bind
    intro _ next released
    exact leads_note_bind (leads_run_throw (.full found ha released))

theorem leads_duplicateHandle (lost : w.table? key = none → stop .discarded)
    (gone : ∀ table object, w.table? key = some table → table.resolve handle = some object →
      w.refs? object = none → stop .discarded ∧ stop (.retainDestroyed object.id)) :
    Leads w (duplicateHandle key handle).run (w.Duplicates key handle) stop := by
  unfold duplicateHandle
  rw [run_lift_bind]
  refine leads_tableAt_bind (fun table found => ?_) lost
  cases hr : table.resolve handle with
  | none => exact leads_run_throw (.unknown found hr)
  | some object =>
    simp only [run_lift_bind]
    apply (leads_retain (gone table object found hr)).bind
    intro _ held retained
    have same : held.table? key = some table := by rw [World.table?_of_retain? retained, found]
    refine leads_tableAt_bind (fun table' found' => ?_) (by simp [same])
    obtain rfl : table = table' := by simpa [same] using found'
    cases ha : table.allocate object with
    | some issued =>
      obtain ⟨copy, next⟩ := issued
      simp only [run_lift_bind]
      exact leads_modifyWorld_bind (leads_run_pure (.copied found hr retained ha))
    | none =>
      simp only [run_lift_bind]
      exact (leads_release fun none => (World.arena_of_retain? retained none).elim).bind
        fun _ next released => leads_run_throw (.full found hr retained ha released)

theorem leads_takeHandle (lost : w.table? key = none → stop .discarded) :
    Leads w (takeHandle key handle) (w.Takes key handle) stop := by
  refine leads_tableAt_bind (fun table found => ?_) lost
  cases ht : table.take handle with
  | none => exact leads_pure (.unknown found ht)
  | some taken =>
    obtain ⟨object, next⟩ := taken
    exact leads_modifyWorld_bind (leads_pure (.taken found ht))

theorem leads_closeHandle (lost : w.table? key = none → stop .discarded)
    (gone : ∀ table object, w.table? key = some table → table.resolve handle = some object →
      w.arenas.get? object.arena = none → stop .discarded) :
    Leads w (closeHandle key handle).run (w.Closes key handle) stop := by
  unfold closeHandle
  rw [run_lift_bind]
  apply (leads_takeHandle lost).bind
  intro taken next takes
  cases takes with
  | unknown found unresolved =>
    simp only [run_lift_bind]
    exact leads_note_bind (leads_run_throw (.unknown found unresolved))
  | taken found taken =>
    simp only [run_lift_bind, run_lift]
    refine leads_note_bind ((leads_release fun none => ?_).bind fun _ next released =>
      leads_run_pure (.closed found taken released))
    exact gone _ _ found (HandleTable.empties_of_take taken).1 (by simpa using none)

theorem leads_acquireHandle (lost : w.table? key = none → stop .discarded)
    (gone : ∀ table object, w.table? key = some table → table.resolve handle = some object →
      w.refs? object = none → stop .discarded ∧ stop (.retainDestroyed object.id)) :
    Leads w (acquireHandle key handle) (w.Acquires key handle) stop := by
  refine leads_tableAt_bind (fun table found => ?_) lost
  cases hr : table.resolve handle with
  | none => exact leads_pure (.unknown found hr)
  | some object =>
    exact (leads_retain (gone table object found hr)).bind fun _ next retained =>
      leads_pure (.acquired found hr retained)

theorem leads_clearTable (lost : w.table? key = none → stop .discarded)
    (gone : ∀ table, w.table? key = some table → ∀ ref ∈ table.clear.1,
      w.arenas.get? ref.arena = none → stop .discarded) :
    Leads w (clearTable key) (fun _ next => w.Clears key next) stop := by
  refine leads_tableAt_bind (fun table found => ?_) lost
  refine leads_modifyWorld_bind (leads_note_bind ?_)
  refine (leads_releaseAll fun ref h none => ?_).mono (fun _ _ released => .cleared found released)
    fun _ h => h
  exact gone table found ref h (by simpa using none)

/-! ## Calls that returned -/

section

variable {machine after : Machine}

theorem creates_of_ok {outcome : Except HandleTableError Handle}
    (h : (createHandle key object).run machine = .ok outcome after) :
    machine.world.Creates key object outcome after.world := by
  have leads : Leads machine.world (createHandle key object).run _ fun _ => True :=
    leads_createHandle (fun _ => trivial) fun _ _ _ _ => trivial
  exact leads.of_ok h

theorem duplicates_of_ok {outcome : Except HandleTableError Handle}
    (h : (duplicateHandle key handle).run machine = .ok outcome after) :
    machine.world.Duplicates key handle outcome after.world := by
  have leads : Leads machine.world (duplicateHandle key handle).run _ fun _ => True :=
    leads_duplicateHandle (fun _ => trivial) fun _ _ _ _ _ => ⟨trivial, trivial⟩
  exact leads.of_ok h

theorem takes_of_ok {outcome : Option ObjectRef}
    (h : takeHandle key handle machine = .ok outcome after) :
    machine.world.Takes key handle outcome after.world := by
  have leads : Leads machine.world (takeHandle key handle) _ fun _ => True :=
    leads_takeHandle fun _ => trivial
  exact leads.of_ok h

theorem closes_of_ok {outcome : Except HandleTableError Unit}
    (h : (closeHandle key handle).run machine = .ok outcome after) :
    machine.world.Closes key handle outcome after.world := by
  have leads : Leads machine.world (closeHandle key handle).run _ fun _ => True :=
    leads_closeHandle (fun _ => trivial) fun _ _ _ _ _ => trivial
  exact leads.of_ok h

theorem acquires_of_ok {outcome : Option ObjectRef}
    (h : acquireHandle key handle machine = .ok outcome after) :
    machine.world.Acquires key handle outcome after.world := by
  have leads : Leads machine.world (acquireHandle key handle) _ fun _ => True :=
    leads_acquireHandle (fun _ => trivial) fun _ _ _ _ _ => ⟨trivial, trivial⟩
  exact leads.of_ok h

theorem clears_of_ok (h : clearTable key machine = .ok () after) :
    machine.world.Clears key after.world := by
  have leads : Leads machine.world (clearTable key) _ fun _ => True :=
    leads_clearTable (fun _ => trivial) fun _ _ _ _ _ => trivial
  exact leads.of_ok h

end

end MicrokernelIpc
