import MicrokernelIpc.Kernel.Create
import MicrokernelIpc.Proofs.Conservation.Counting

/-!
# Sound worlds

A world is sound when its handle tables are in order and every arena's counts agree with the
references that there are. Two strengths are kept apart. That a count is a positive number not
above the references there are holds whatever happened. That it is their number needs that no
count ever passed its 32 bits, and that no identifier was given out twice: `strict` stands for
a past in which neither happened.

A sound world also remembers a past one: what was there and is gone stays gone.
-/

namespace MicrokernelIpc

/-- A count, if there is one, agrees with the number of references. -/
def Agrees (strict : Prop) (number : Nat) : Option UInt32 → Prop
  | none => strict → number = 0
  | some refs => ∃ k, 1 ≤ k ∧ k ≤ number ∧ refs = UInt32.ofNat k ∧ (strict → k = number)

namespace Agrees

variable {strict : Prop} {number : Nat} {refs : UInt32} {counted : Option UInt32}

theorem first (fresh : strict → number = 0) : Agrees strict (number + 1) (some 1) :=
  ⟨1, le_rfl, by omega, rfl, fun h => by rw [fresh h]⟩

theorem retain (agrees : Agrees strict number (some refs)) :
    Agrees strict (number + 1) (some (refs + 1)) := by
  obtain ⟨k, low, high, rfl, eq⟩ := agrees
  exact ⟨k + 1, by omega, by omega, UInt32.ofNat_add k 1 |>.symm, fun h => by rw [eq h]⟩

/-- The object goes with the last reference, and not before as long as the count did not
wrap. -/
theorem release (agrees : Agrees strict (number + 1) (some refs))
    (limit : strict → number < 2 ^ 32) :
    Agrees strict number (if refs = 1 then none else some (refs - 1)) := by
  obtain ⟨k, low, high, rfl, eq⟩ := agrees
  split
  · next last =>
    intro h
    have := eq h
    have := limit h
    have one : k % 2 ^ 32 = 1 := by simpa using congrArg UInt32.toNat last
    omega
  · next more =>
    have : k ≠ 1 := by rintro rfl; exact more rfl
    refine ⟨k - 1, by omega, by omega, ?_, fun h => by have := eq h; omega⟩
    obtain ⟨k, rfl⟩ : ∃ j, k = j + 1 := ⟨k - 1, by omega⟩
    rw [UInt32.ofNat_add]
    simp

theorem pos (agrees : Agrees strict number (some refs)) : 0 < number := by
  obtain ⟨k, low, high, -⟩ := agrees
  omega

theorem isSome (agrees : Agrees strict number counted) (h : strict) (some : 0 < number) :
    counted ≠ none := by
  rintro rfl
  have := agrees h
  omega

/-- Within 32 bits the count is the number. -/
theorem toNat (agrees : Agrees strict number counted) (h : strict) (limit : number < 2 ^ 32) :
    (counted.getD 0).toNat = number := by
  cases counted with
  | none => simp [agrees h]
  | some refs =>
    obtain ⟨k, low, high, rfl, eq⟩ := agrees
    simpa [eq h] using limit

end Agrees

/-- The identifier given out last, zero if there is none. -/
def Arena.lastId (arena : Arena) : UInt64 := arena.nextId - 1

namespace World

/-- The identifier was given out. -/
def Known (w : World) (ref : ObjectRef) : Prop :=
  ∃ arena, w.arenas.get? ref.arena = some arena ∧ ref.id.raw ≤ arena.lastId

/-- What was known is known still, and is there only if it was there. -/
structure Outlives (past w : World) : Prop where
  known : ∀ ref, past.Known ref → w.Known ref
  gone : ∀ ref, past.Known ref → (w.refs? ref).isSome → (past.refs? ref).isSome

/-- What holds of every world that the kernel reaches. -/
structure Sound (strict : Prop) (past : World) (inserted : Nat) (held : Multiset ObjectRef)
    (w : World) : Prop where
  tables : ∀ key table, w.table? key = some table → table.WellFormed
  counts : ∀ ref, Agrees strict (w.references held ref) (w.refs? ref)
  numbered : strict → ∀ key arena, w.arenas.get? key = some arena →
    arena.lastId.toNat ≤ inserted ∧ ∀ id, (arena.find? id).isSome → id.raw ≤ arena.lastId
  since : strict → past.Outlives w

theorem Outlives.refl (w : World) : w.Outlives w := ⟨fun _ h => h, fun _ _ h => h⟩

theorem Outlives.trans {past w w' : World} (first : past.Outlives w) (second : w.Outlives w') :
    past.Outlives w' :=
  ⟨fun ref h => second.known ref (first.known ref h),
    fun ref h some => first.gone ref h (second.gone ref (first.known ref h) some)⟩

/-- The arenas give out the same identifiers next and hold no more objects. -/
def Wanes (w w' : World) : Prop :=
  ∀ key, Option.Rel (fun arena next : Arena => next.nextId = arena.nextId ∧
    ∀ id, (next.find? id).isSome → (arena.find? id).isSome) (w.arenas.get? key) (w'.arenas.get? key)

variable {strict : Prop} {past w w' : World} {inserted : Nat} {held held' : Multiset ObjectRef}
variable {ref object : ObjectRef} {key : TableKey} {table next : HandleTable} {handle : Handle}

theorem refs?_eq_some {arena : Arena} (h : w.arenas.get? ref.arena = some arena) :
    w.refs? ref = (arena.find? ref.id).map ArenaEntry.refs := by
  simp [refs?, h]

theorem wanes_of_eq (same : w'.arenas = w.arenas) : w.Wanes w' := by
  intro key
  rw [same]
  cases w.arenas.get? key with
  | none => exact .none
  | some arena => exact .some ⟨rfl, fun _ h => h⟩

theorem wanes_setArena {a : Key Arena} {arena next : Arena} (h : w.arenas.get? a = some arena)
    (same : next.nextId = arena.nextId)
    (fewer : ∀ id, (next.find? id).isSome → (arena.find? id).isSome) :
    w.Wanes (w.setArena a next) := by
  intro key
  simp only [setArena, Roster.get?_modify]
  split
  · next e =>
    subst e
    rw [h]
    exact .some ⟨same, fewer⟩
  · exact wanes_of_eq rfl key

theorem Wanes.outlives (wanes : w.Wanes w') : w.Outlives w' := by
  constructor
  · rintro ref ⟨arena, h, le⟩
    have rel := wanes ref.arena
    rw [h] at rel
    cases h' : w'.arenas.get? ref.arena with
    | none => simp [h'] at rel
    | some next =>
      rw [h', Option.rel_some_some] at rel
      exact ⟨next, h', by rwa [Arena.lastId, rel.1]⟩
  · rintro ref ⟨arena, h, -⟩ there
    have rel := wanes ref.arena
    rw [h] at rel
    cases h' : w'.arenas.get? ref.arena with
    | none => simp [h'] at rel
    | some next =>
      rw [h', Option.rel_some_some] at rel
      rw [refs?_eq_some h', Option.isSome_map] at there
      rw [refs?_eq_some h, Option.isSome_map]
      exact rel.2 _ there

/-- Soundness survives when no object comes into an arena. -/
theorem Sound.wane (sound : Sound strict past inserted held w) (wanes : w.Wanes w')
    (tables : ∀ key table, w'.table? key = some table → table.WellFormed)
    (counts : ∀ ref, Agrees strict (w'.references held' ref) (w'.refs? ref)) :
    Sound strict past inserted held' w' where
  tables := tables
  counts := counts
  numbered h key next found := by
    have rel := wanes key
    rw [found] at rel
    cases old : w.arenas.get? key with
    | none => simp [old] at rel
    | some arena =>
      rw [old, Option.rel_some_some] at rel
      have last : next.lastId = arena.lastId := by rw [Arena.lastId, rel.1, Arena.lastId]
      obtain ⟨low, ids⟩ := sound.numbered h key arena old
      rw [last]
      exact ⟨low, fun id there => ids id (rel.2 id there)⟩
  since h := (sound.since h).trans wanes.outlives

/-- Soundness survives when references only move. -/
theorem Sound.move (sound : Sound strict past inserted held w) (same : w'.arenas = w.arenas)
    (tables : ∀ key table, w'.table? key = some table → table.WellFormed)
    (moved : ∀ ref, w'.references held' ref = w.references held ref) :
    Sound strict past inserted held' w' := by
  apply sound.wane (wanes_of_eq same) tables
  intro ref
  have refs : w'.refs? ref = w.refs? ref := by simp [refs?, same]
  rw [moved, refs]
  exact sound.counts ref

/-! ## One reference more, one less -/

theorem wanes_of_retain? (h : w.retain? object = some w') : w.Wanes w' := by
  obtain ⟨arena, next, there, retained, rfl⟩ := exists_of_retain? h
  apply wanes_setArena there (Arena.nextId_of_retain retained)
  intro id some
  rw [Arena.find?_retain retained] at some
  split at some
  · next e =>
    subst e
    simpa using some
  · exact some

theorem wanes_of_release? (h : w.release? object = some w') : w.Wanes w' := by
  obtain ⟨arena, there, rfl⟩ := exists_of_release? h
  apply wanes_setArena there (arena.nextId_release _)
  intro id some
  rw [Arena.find?_release] at some
  split at some
  · next e =>
    subst e
    cases found : arena.find? object.id with
    | none => simp [found] at some
    | some entry => rfl
  · exact some

theorem Sound.retain (sound : Sound strict past inserted held w) (h : w.retain? object = some w') :
    Sound strict past inserted (object ::ₘ held) w' := by
  refine sound.wane (wanes_of_retain? h)
    (fun key table found => sound.tables key table (by rwa [← table?_of_retain? h])) fun ref => ?_
  have agrees := sound.counts ref
  rw [refs?_of_retain? h, references, count_of_retain? h, Multiset.count_cons]
  split
  · next e =>
    subst e
    obtain ⟨refs, there⟩ := isSome_refs?_of_retain? h
    rw [there] at agrees ⊢
    rw [Nat.add_right_comm]
    exact agrees.retain
  · exact agrees

/-- A reference is let go. No count is passed by 2^32 references or more. -/
theorem Sound.release (sound : Sound strict past inserted (object ::ₘ held) w)
    (h : w.release? object = some w') (limit : strict → w.references held object < 2 ^ 32) :
    Sound strict past inserted held w' := by
  refine sound.wane (wanes_of_release? h)
    (fun key table found => sound.tables key table (by rwa [← table?_of_release? h])) fun ref => ?_
  have agrees := sound.counts ref
  rw [references, Multiset.count_cons] at agrees
  rw [refs?_of_release? h, references, count_of_release? h]
  split
  · next e =>
    subst e
    rw [if_pos rfl, Nat.add_right_comm] at agrees
    cases there : w.refs? ref with
    | none =>
      rw [there] at agrees
      intro h
      have := agrees h
      omega
    | some refs =>
      rw [there] at agrees
      exact agrees.release limit
  · next e =>
    rwa [if_neg e] at agrees

/-- An object that is there has a reference counted, and one with a reference is there. -/
theorem Sound.refs?_ne_none (sound : Sound strict past inserted held w) (h : strict)
    (some : 0 < w.references held ref) : w.refs? ref ≠ none :=
  (sound.counts ref).isSome h some

/-! ## References that move -/

theorem Sound.setTable (sound : Sound strict past inserted held w)
    (wf : next.WellFormed)
    (moved : ∀ ref, (w.setTable next key).references held' ref = w.references held ref) :
    Sound strict past inserted held' (w.setTable next key) := by
  refine sound.move (arenas_setTable next) (fun other table found => ?_) moved
  rw [table?_setTable] at found
  split at found
  · obtain ⟨_, -, rfl⟩ := Option.map_eq_some_iff.1 found
    exact wf
  · exact sound.tables other table found

/-- A reference goes over to a table. -/
theorem Sound.allocate (sound : Sound strict past inserted (object ::ₘ held) w)
    (found : w.table? key = some table) (h : table.allocate object = some (handle, next)) :
    Sound strict past inserted held (w.setTable next key) := by
  have wf := sound.tables key table found
  obtain ⟨index, grown, -, fills⟩ := wf.fills_of_allocate h
  exact sound.setTable (fills.wellFormed wf grown) (references_of_allocate found wf h)

/-- A reference is taken out of a table. -/
theorem Sound.take (sound : Sound strict past inserted held w)
    (found : w.table? key = some table) (h : table.take handle = some (object, next)) :
    Sound strict past inserted (object ::ₘ held) (w.setTable next key) := by
  have wf := sound.tables key table found
  obtain ⟨-, generation, empties⟩ := HandleTable.empties_of_take h
  exact sound.setTable (empties.wellFormed wf) (references_of_take found h)

/-- All references are taken out of a table. -/
theorem Sound.clear (sound : Sound strict past inserted held w)
    (found : w.table? key = some table) :
    Sound strict past inserted (table.clear.1 + held) (w.setTable table.clear.2 key) := by
  have wf := sound.tables key table found
  exact sound.setTable wf.clear (references_of_clear found wf)

/-! ## Processes, threads and tables of their own -/

/-- Other processes are in order if their handle tables are. -/
theorem Sound.wellFormed_of_processes {processes : Roster Process}
    (sound : Sound strict past inserted held w)
    (each : ∀ key process, processes.get? key = some process → process.handles.WellFormed) :
    ∀ key table, ({ w with processes } : World).table? key = some table → table.WellFormed := by
  intro key table found
  cases key with
  | standalone key => exact sound.tables (.standalone key) table found
  | process key =>
    obtain ⟨process, there, rfl⟩ := Option.map_eq_some_iff.1 found
    exact each key process there

theorem Sound.addProcess {process : Process}
    (sound : Sound strict past inserted (process.references + held) w)
    (wf : process.handles.WellFormed) :
    Sound strict past inserted held { w with processes := (w.processes.add process).2 } := by
  refine sound.move rfl (sound.wellFormed_of_processes fun key p there => ?_)
    (references_addProcess process)
  rw [Roster.get?_add] at there
  split at there
  · obtain rfl := Option.some.inj there
    exact wf
  · exact sound.tables (.process key) p.handles (table?_of_process there)

theorem Sound.removeProcess {a : Key Process} {process : Process}
    (sound : Sound strict past inserted held w) (h : w.processes.get? a = some process) :
    Sound strict past inserted (process.references + held)
      { w with processes := w.processes.remove a } := by
  refine sound.move rfl (sound.wellFormed_of_processes fun key p there => ?_)
    (references_removeProcess h)
  rw [Roster.get?_remove] at there
  split at there
  · cases there
  · exact sound.tables (.process key) p.handles (table?_of_process there)

/-- A process is changed in something else than its references. -/
theorem Sound.setProcess {a : Key Process} {process next : Process}
    (sound : Sound strict past inserted held w) (h : w.processes.get? a = some process)
    (object : next.object = process.object) (handles : next.handles = process.handles) :
    Sound strict past inserted held (w.setProcess a next) := by
  have same : next.references = process.references := by
    rw [Process.references, object, handles, Process.references]
  refine sound.move rfl (sound.wellFormed_of_processes fun key p there => ?_)
    (references_setProcess h same)
  rw [Roster.get?_modify] at there
  split at there
  · obtain ⟨_, -, rfl⟩ := Option.map_eq_some_iff.1 there
    rw [handles]
    exact sound.tables (.process a) process.handles (table?_of_process h)
  · exact sound.tables (.process key) p.handles (table?_of_process there)

theorem Sound.addThread {thread : Thread}
    (sound : Sound strict past inserted (thread.object ::ₘ held) w) :
    Sound strict past inserted held { w with threads := (w.threads.add thread).2 } :=
  sound.move rfl sound.tables (references_addThread thread)

theorem Sound.removeThread {a : Key Thread} {thread : Thread}
    (sound : Sound strict past inserted held w) (h : w.threads.get? a = some thread) :
    Sound strict past inserted (thread.object ::ₘ held)
      { w with threads := w.threads.remove a } :=
  sound.move rfl sound.tables (references_removeThread h)

theorem Sound.setThread {a : Key Thread} {thread next : Thread}
    (sound : Sound strict past inserted held w) (h : w.threads.get? a = some thread)
    (object : next.object = thread.object) :
    Sound strict past inserted held (w.setThread a next) :=
  sound.move rfl sound.tables (references_setThread h object)

theorem Sound.addTable (sound : Sound strict past inserted held w) :
    Sound strict past inserted held { w with tables := (w.tables.add HandleTable.empty).2 } := by
  refine sound.move rfl (fun key table found => ?_) references_addTable
  cases key with
  | process key => exact sound.tables (.process key) table found
  | standalone key =>
    simp only [table?, Roster.get?_add] at found
    split at found
    · obtain rfl := Option.some.inj found
      exact HandleTable.wellFormed_empty
    · exact sound.tables (.standalone key) table found

theorem Sound.removeTable {a : Key HandleTable} (sound : Sound strict past inserted held w)
    (h : w.tables.get? a = some table) :
    Sound strict past inserted (table.objects + held) { w with tables := w.tables.remove a } := by
  refine sound.move rfl (fun key other found => ?_) (references_removeTable h)
  cases key with
  | process key => exact sound.tables (.process key) other found
  | standalone key =>
    simp only [table?, Roster.get?_remove] at found
    split at found
    · cases found
    · exact sound.tables (.standalone key) other found

/-! ## Objects and arenas that are new -/

theorem lastId_insert (arena : Arena) (o : KernelObject) :
    (arena.insert o).2.lastId = arena.nextId := by
  simp [Arena.insert, Arena.lastId]

theorem nextId_of_lastId (arena : Arena) (low : arena.lastId.toNat + 1 < 2 ^ 64) :
    arena.nextId.toNat = arena.lastId.toNat + 1 := by
  have := arena.nextId.toNat_lt
  have sub := UInt64.toNat_sub arena.nextId 1
  rw [UInt64.toNat_one] at sub
  rw [Arena.lastId, sub] at low ⊢
  omega

theorem refs?_insert {a : Key Arena} {arena : Arena} (there : w.arenas.get? a = some arena)
    (o : KernelObject) (ref : ObjectRef) : (w.setArena a (arena.insert o).2).refs? ref
      = if ref = ⟨a, ⟨arena.nextId⟩⟩ then some 1 else w.refs? ref := by
  obtain ⟨b, ⟨id⟩⟩ := ref
  rw [refs?_setArena there, Arena.find?_insert]
  by_cases same : a = b
  · subst same
    by_cases ids : arena.nextId = id
    · simp [Arena.insert, ids]
    · simp [Arena.insert, refs?, there, ids, Ne.symm ids]
  · simp [same, Ne.symm same]

/-- As long as identifiers last, the next one lies above those that were given out. -/
theorem Sound.lt_nextId {a : Key Arena} {arena : Arena} (sound : Sound strict past inserted held w)
    (h : strict) (there : w.arenas.get? a = some arena) (limit : inserted + 1 < 2 ^ 64)
    {id : ObjectId} (le : id.raw ≤ arena.lastId) : id.raw < arena.nextId := by
  have := (sound.numbered h a arena there).1
  have := nextId_of_lastId arena (by omega)
  rw [UInt64.le_iff_toNat_le] at le
  rw [UInt64.lt_iff_toNat_lt]
  omega

theorem Sound.outlives_insert {a : Key Arena} {arena : Arena}
    (sound : Sound strict past inserted held w) (h : strict)
    (there : w.arenas.get? a = some arena) (o : KernelObject) (limit : inserted + 1 < 2 ^ 64) :
    w.Outlives (w.setArena a (arena.insert o).2) := by
  constructor
  · rintro ref ⟨old, found, le⟩
    by_cases same : a = ref.arena
    · subst same
      obtain rfl := Option.some.inj (there.symm.trans found)
      refine ⟨(arena.insert o).2, by simp [World.setArena, Roster.get?_modify, there], ?_⟩
      rw [lastId_insert]
      exact UInt64.le_of_lt (sound.lt_nextId h there limit le)
    · exact ⟨old, by simp [World.setArena, Roster.get?_modify, same, found], le⟩
  · rintro ref ⟨old, found, le⟩ some
    rw [refs?_insert there] at some
    split at some
    · next e =>
      subst e
      obtain rfl := Option.some.inj (there.symm.trans found)
      exact absurd (sound.lt_nextId h there limit le) (UInt64.lt_irrefl _)
    · exact some

/-- An object comes into an arena with its first reference. Its identifier is a new one as
long as fewer than 2^64 objects were inserted. -/
theorem Sound.insert {a : Key Arena} {arena : Arena} (sound : Sound strict past inserted held w)
    (there : w.arenas.get? a = some arena) (o : KernelObject)
    (limit : strict → inserted + 1 < 2 ^ 64) :
    Sound strict past (inserted + 1) (⟨a, ⟨arena.nextId⟩⟩ ::ₘ held)
      (w.setArena a (arena.insert o).2) where
  tables key table found := sound.tables key table (by simpa using found)
  counts ref := by
    have agrees := sound.counts ref
    rw [refs?_insert there, references, count_setArena, Multiset.count_cons]
    split
    · next e =>
      subst e
      rw [Nat.add_right_comm]
      apply Agrees.first
      intro h
      have fresh : w.refs? ⟨a, ⟨arena.nextId⟩⟩ = none := by
        rw [refs?_eq_some there, Option.map_eq_none_iff, ← Option.not_isSome_iff_eq_none]
        intro some
        have le := (sound.numbered h a arena there).2 _ some
        exact absurd (sound.lt_nextId h there (limit h) le) (UInt64.lt_irrefl _)
      rw [fresh] at agrees
      exact agrees h
    · exact agrees
  numbered h key next found := by
    simp only [World.setArena, Roster.get?_modify] at found
    split at found
    · next e =>
      subst e
      rw [there] at found
      obtain rfl := Option.some.inj found
      obtain ⟨low, ids⟩ := sound.numbered h a arena there
      have := limit h
      have := nextId_of_lastId arena (by omega)
      rw [lastId_insert]
      refine ⟨by omega, fun id some => ?_⟩
      rw [Arena.find?_insert] at some
      split at some
      · next e =>
        rw [← e]
        exact UInt64.le_refl _
      · exact UInt64.le_of_lt (sound.lt_nextId h there (limit h) (ids id some))
    · obtain ⟨low, ids⟩ := sound.numbered h key next found
      exact ⟨by omega, ids⟩
  since h := (sound.since h).trans (sound.outlives_insert h there o (limit h))

/-- An arena without objects is made. -/
theorem Sound.addArena (sound : Sound strict past inserted held w) :
    Sound strict past inserted held { w with arenas := (w.arenas.add Arena.empty).2 } := by
  have fresh : w.arenas.get? (w.arenas.add Arena.empty).1 = none := Roster.get?_fresh _ le_rfl
  have refs : ∀ ref, World.refs? { w with arenas := (w.arenas.add Arena.empty).2 } ref
      = w.refs? ref := by
    intro ref
    simp only [refs?, Roster.get?_add]
    split
    · next e =>
      rw [← e, fresh]
      simp [Arena.empty, Arena.find?]
    · rfl
  refine ⟨sound.tables, fun ref => ?_, fun h key arena found => ?_,
    fun h => (sound.since h).trans ⟨?_, fun ref _ some => by rwa [refs] at some⟩⟩
  · rw [refs]
    exact sound.counts ref
  · simp only [Roster.get?_add] at found
    split at found
    · obtain rfl := Option.some.inj found
      simp [Arena.lastId, Arena.empty, Arena.find?]
    · exact sound.numbered h key arena found
  · rintro ref ⟨arena, found, le⟩
    refine ⟨arena, ?_, le⟩
    rw [Roster.get?_add, if_neg, found]
    rintro e
    simp [← e, fresh] at found

/-- An object is changed in itself. -/
theorem Sound.update {a : Key Arena} {arena : Arena} (sound : Sound strict past inserted held w)
    (there : w.arenas.get? a = some arena) (id : ObjectId) (f : KernelObject → KernelObject) :
    Sound strict past inserted held (w.setArena a (arena.update id f)) := by
  have refs : ∀ ref, (w.setArena a (arena.update id f)).refs? ref = w.refs? ref := by
    intro ref
    rw [refs?_setArena there, Arena.find?_update]
    split
    · next e =>
      subst e
      rw [refs?_eq_some there]
      split
      · next e =>
        subst e
        simp [Function.comp_def]
      · rfl
    · rfl
  refine sound.wane (wanes_setArena there rfl fun other some => ?_)
    (fun key table found => sound.tables key table (by simpa using found)) fun ref => ?_
  · rw [Arena.find?_update] at some
    split at some
    · next e =>
      subst e
      simpa using some
    · exact some
  · rw [refs]
    exact sound.counts ref

theorem Sound.of_new (strict : Prop) : Sound strict new 0 0 new where
  tables key table found := by
    cases key <;> simp [table?, new, Roster.empty, Roster.get?] at found
  counts ref := by
    have none : new.refs? ref = none := by
      simp only [refs?, new, Roster.get?_add]
      split <;> simp [Arena.empty, Arena.find?, Roster.empty, Roster.get?]
    rw [none]
    intro _
    simp [references, count, new]
  numbered _ key arena found := by
    simp only [new, Roster.get?_add] at found
    split at found
    · obtain rfl := Option.some.inj found
      simp [Arena.lastId, Arena.empty, Arena.find?]
    · simp [Roster.empty, Roster.get?] at found
  since _ := .refl new

/-- What is there now may be taken for the past. -/
theorem Sound.now (sound : Sound strict past inserted held w) :
    Sound strict w inserted held w :=
  { sound with since := fun _ => .refl w }

end World

end MicrokernelIpc
