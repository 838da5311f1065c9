import MicrokernelIpc.Proofs.Conservation.Sound

/-!
# Calls on handles keep worlds sound

Each call hands references over, takes another one or lets one go, and whatever way it ends,
the world is sound again with the references that the caller holds then. A call on a sound
world asks for no object that is gone.
-/

namespace MicrokernelIpc

/-- As long as counts are exact, no reference was taken to an object that is gone. -/
def Excused (strict : Prop) (fault : Fault) : Prop := strict → ∀ id, fault ≠ .retainDestroyed id

theorem excused_discarded {strict : Prop} : Excused strict .discarded := by
  intro _ id
  simp

namespace World

variable {strict : Prop} {past w w' : World} {inserted : Nat} {held : Multiset ObjectRef}
variable {key : TableKey} {object : ObjectRef} {handle : Handle}

/-- No object has 2^32 references. -/
def Within (held : Multiset ObjectRef) (w : World) : Prop :=
  ∀ ref, w.references held ref < 2 ^ 32

theorem Within.of_eq {held' : Multiset ObjectRef} (within : Within held w)
    (same : ∀ ref, w'.references held' ref = w.references held ref) : Within held' w' :=
  fun ref => same ref ▸ within ref

theorem Within.of_cons (within : Within (object ::ₘ held) w) : Within held w := by
  intro ref
  have := within ref
  simp only [references, Multiset.count_cons] at this ⊢
  omega

theorem Within.release (within : Within (object ::ₘ held) w) (h : w.release? object = some w') :
    Within held w' := by
  intro ref
  rw [references, count_of_release? h]
  exact within.of_cons ref

/-! ## References are let go -/

theorem Sound.releaseAll {refs : List ObjectRef}
    (sound : Sound strict past inserted (refs + held) w) (h : w.releaseAll? refs = some w')
    (limit : strict → Within (refs + held) w) :
    Sound strict past inserted held w' ∧ (strict → Within held w') := by
  induction refs generalizing w with
  | nil =>
    obtain rfl : w = w' := by simpa [releaseAll?] using h
    simpa using And.intro sound limit
  | cons ref rest ih =>
    obtain ⟨next, released, rest⟩ := Option.bind_eq_some_iff.1 h
    simp only [← Multiset.cons_coe, Multiset.cons_add] at sound limit
    exact ih (sound.release released fun h => (limit h).of_cons ref) rest
      fun h => (limit h).release released

/-! ## The ways a call can end -/

theorem Creates.sound {outcome : Except HandleTableError Handle}
    (creates : w.Creates key object outcome w')
    (sound : Sound strict past inserted (object ::ₘ held) w)
    (limit : strict → Within held w) : Sound strict past inserted held w' := by
  cases creates with
  | issued found allocated => exact sound.allocate found allocated
  | full found refused released => exact sound.release released fun h => limit h object

theorem Duplicates.sound {outcome : Except HandleTableError Handle}
    (duplicates : w.Duplicates key handle outcome w')
    (sound : Sound strict past inserted held w) (limit : strict → Within held w) :
    Sound strict past inserted held w' := by
  cases duplicates with
  | unknown => exact sound
  | copied found resolved retained allocated =>
    have found := (table?_of_retain? retained).trans found
    exact (sound.retain retained).allocate found allocated
  | full found resolved retained refused released =>
    apply (sound.retain retained).release released
    intro h
    rw [references, count_of_retain? retained]
    exact limit h _

theorem Takes.sound {outcome : Option ObjectRef} (takes : w.Takes key handle outcome w')
    (sound : Sound strict past inserted held w) :
    Sound strict past inserted (outcome.toList + held) w' := by
  cases takes with
  | unknown => simpa using sound
  | taken found taken => simpa using sound.take found taken

theorem Closes.sound {outcome : Except HandleTableError Unit}
    (closes : w.Closes key handle outcome w') (sound : Sound strict past inserted held w)
    (limit : strict → Within held w) :
    Sound strict past inserted held w' ∧ (strict → Within held w') := by
  cases closes with
  | unknown => exact ⟨sound, limit⟩
  | closed found taken released =>
    have within := fun h => (limit h).of_eq (references_of_take found taken)
    exact ⟨(sound.take found taken).release released fun h => (within h).of_cons _,
      fun h => (within h).release released⟩

theorem Acquires.sound {outcome : Option ObjectRef} (acquires : w.Acquires key handle outcome w')
    (sound : Sound strict past inserted held w) :
    Sound strict past inserted (outcome.toList + held) w' := by
  cases acquires with
  | unknown => simpa using sound
  | acquired found resolved retained => simpa using sound.retain retained

theorem Clears.sound (clears : w.Clears key w') (sound : Sound strict past inserted held w)
    (limit : strict → Within held w) : Sound strict past inserted held w' := by
  cases clears with
  | cleared found released =>
    have wf := sound.tables _ _ found
    exact ((sound.clear found).releaseAll released fun h =>
      (limit h).of_eq (references_of_clear found wf)).1

/-! ## No object is missed -/

/-- A reference that is held somewhere names an object that is there. -/
theorem Sound.excused (sound : Sound strict past inserted held w)
    (some : 0 < w.references held object) (none : w.refs? object = none) :
    Excused strict .discarded ∧ Excused strict (.retainDestroyed object.id) :=
  ⟨excused_discarded, fun h => (sound.refs?_ne_none h some none).elim⟩

theorem count_pos_of_mem {table : HandleTable} (found : w.table? key = some table)
    (mem : object ∈ table.objects) : 0 < w.count object := by
  have moved := count_setTable found HandleTable.empty object
  have inside := List.count_pos_iff.2 mem
  have empty : HandleTable.empty.objects.count object = 0 := rfl
  omega

theorem count_pos_of_resolve {table : HandleTable} (found : w.table? key = some table)
    (resolved : table.resolve handle = some object) : 0 < w.count object :=
  count_pos_of_mem found (HandleTable.mem_objects_of_resolve resolved)

/-- A process refers to its record. -/
theorem count_pos_of_process {place : Key Process} {process : Process}
    (found : w.processes.get? place = some process) : 0 < w.count process.object := by
  have := Roster.total_remove found fun p => p.references.count process.object
  simp only [count, Process.references, List.count_cons_self] at this ⊢
  omega

/-- A thread refers to its record. -/
theorem count_pos_of_thread {place : Key Thread} {thread : Thread}
    (found : w.threads.get? place = some thread) : 0 < w.count thread.object := by
  have := Roster.total_remove found fun t => [t.object].count thread.object
  simp only [count, List.count_singleton_self] at this ⊢
  omega

theorem Sound.excused_resolve {table : HandleTable} (sound : Sound strict past inserted held w)
    (found : w.table? key = some table) (resolved : table.resolve handle = some object)
    (none : w.refs? object = none) :
    Excused strict .discarded ∧ Excused strict (.retainDestroyed object.id) := by
  have := count_pos_of_resolve found resolved
  exact sound.excused (by rw [references]; omega) none

end World

end MicrokernelIpc
