import MicrokernelIpc.Proofs.Conservation.Handles

/-!
# The kernel keeps worlds sound

What the kernel does apart from deliveries, each action on its own: it leads from a sound
world to a sound one, and the faults that may stop it are excused.
-/

namespace MicrokernelIpc

open World

variable {strict : Prop} {past w : World} {inserted : Nat} {held : Multiset ObjectRef}
variable {ref : ObjectRef} {handle : Handle}

/-! ## References -/

theorem sound_retain (sound : Sound strict past inserted held w)
    (some : 0 < w.references held ref) :
    Leads w (retain ref) (fun _ next => Sound strict past inserted (ref ::ₘ held) next)
      (Excused strict) :=
  (leads_retain (sound.excused some)).mono (fun _ _ h => sound.retain h) fun _ h => h

theorem sound_release (sound : Sound strict past inserted (ref ::ₘ held) w)
    (limit : strict → Within (ref ::ₘ held) w) :
    Leads w (release ref)
      (fun _ next => Sound strict past inserted held next ∧ (strict → Within held next))
      (Excused strict) :=
  (leads_release fun _ => excused_discarded).mono
    (fun _ _ h => ⟨sound.release h fun e => (limit e).of_cons ref, fun e => (limit e).release h⟩)
    fun _ h => h

theorem sound_releaseAll {refs : List ObjectRef} (sound : Sound strict past inserted (refs + held) w)
    (limit : strict → Within (refs + held) w) :
    Leads w (releaseAll refs)
      (fun _ next => Sound strict past inserted held next ∧ (strict → Within held next))
      (Excused strict) :=
  (leads_releaseAll fun _ _ _ => excused_discarded).mono
    (fun _ _ h => sound.releaseAll h limit) fun _ h => h

/-! ## Handles -/

section

variable {key : TableKey}

theorem sound_createHandle (sound : Sound strict past inserted (ref ::ₘ held) w)
    (limit : strict → Within held w) :
    Leads w (createHandle key ref).run (fun _ next => Sound strict past inserted held next)
      (Excused strict) :=
  (leads_createHandle (fun _ => excused_discarded) fun _ _ _ _ => excused_discarded).mono
    (fun _ _ h => h.sound sound limit) fun _ h => h

theorem sound_duplicateHandle (sound : Sound strict past inserted held w)
    (limit : strict → Within held w) :
    Leads w (duplicateHandle key handle).run (fun _ next => Sound strict past inserted held next)
      (Excused strict) :=
  (leads_duplicateHandle (fun _ => excused_discarded) fun _ _ => sound.excused_resolve).mono
    (fun _ _ h => h.sound sound limit) fun _ h => h

theorem sound_takeHandle (sound : Sound strict past inserted held w) :
    Leads w (takeHandle key handle)
      (fun outcome next => Sound strict past inserted (outcome.toList + held) next)
      (Excused strict) :=
  (leads_takeHandle fun _ => excused_discarded).mono (fun _ _ h => h.sound sound) fun _ h => h

theorem sound_closeHandle (sound : Sound strict past inserted held w)
    (limit : strict → Within held w) :
    Leads w (closeHandle key handle).run
      (fun _ next => Sound strict past inserted held next ∧ (strict → Within held next))
      (Excused strict) :=
  (leads_closeHandle (fun _ => excused_discarded) fun _ _ _ _ _ => excused_discarded).mono
    (fun _ _ h => h.sound sound limit) fun _ h => h

theorem sound_acquireHandle (sound : Sound strict past inserted held w) :
    Leads w (acquireHandle key handle)
      (fun outcome next => Sound strict past inserted (outcome.toList + held) next)
      (Excused strict) :=
  (leads_acquireHandle (fun _ => excused_discarded) fun _ _ => sound.excused_resolve).mono
    (fun _ _ h => h.sound sound) fun _ h => h

theorem sound_clearTable (sound : Sound strict past inserted held w)
    (limit : strict → Within held w) :
    Leads w (clearTable key) (fun _ next => Sound strict past inserted held next)
      (Excused strict) :=
  (leads_clearTable (fun _ => excused_discarded) fun _ _ _ _ _ => excused_discarded).mono
    (fun _ _ h => h.sound sound limit) fun _ h => h

theorem sound_newTable (sound : Sound strict past inserted held w) :
    Leads w newTable (fun _ next => Sound strict past inserted held next) (Excused strict) := by
  apply leads_get_bind
  intro _
  exact leads_modifyWorld_bind (leads_pure sound.addTable)

theorem sound_discardTable {a : Key HandleTable} (sound : Sound strict past inserted held w)
    (limit : strict → Within held w) :
    Leads w (discardTable a) (fun _ next => Sound strict past inserted held next)
      (Excused strict) := by
  refine leads_tableAt_bind (fun table found => ?_) fun _ => excused_discarded
  apply leads_modifyWorld_bind
  refine (sound_releaseAll (sound.removeTable found) fun e =>
    (limit e).of_eq (references_removeTable found)).mono (fun _ _ h => h.1) fun _ h => h

end

/-! ## Making objects -/

theorem sound_insertObject {a : Key Arena} {object : KernelObject}
    (sound : Sound strict past inserted held w) (limit : strict → inserted + 1 < 2 ^ 64) :
    Leads w (insertObject a object)
      (fun ref next => Sound strict past (inserted + 1) (ref ::ₘ held) next) (Excused strict) := by
  refine leads_arenaAt_bind (fun arena there => ?_) fun _ => excused_discarded
  refine leads_note_bind (leads_modifyWorld_bind ?_)
  exact leads_pure (sound.insert there object limit)

theorem sound_createObject {object : KernelObject} (sound : Sound strict past inserted held w)
    (limit : strict → inserted + 1 < 2 ^ 64) :
    Leads w (createObject object)
      (fun ref next => Sound strict past (inserted + 1) (ref ::ₘ held) next) (Excused strict) :=
  leads_get_bind fun _ => sound_insertObject sound limit

theorem sound_createSemaphore {name : String} {initial maxCount : UInt32} {made : Nat}
    (sound : Sound strict past inserted held w)
    (counts : made = if (Semaphore.make name initial maxCount).isOk then 1 else 0)
    (limit : strict → inserted + made < 2 ^ 64) :
    Leads w (createSemaphore name initial maxCount).run
      (fun outcome next =>
        Sound strict past (inserted + made) (outcome.toOption.toList + held) next)
      (Excused strict) := by
  unfold createSemaphore
  cases h : Semaphore.make name initial maxCount with
  | ok semaphore =>
    obtain rfl : made = 1 := by simpa [h, Except.isOk, Except.toBool] using counts
    rw [run_lift]
    exact (sound_createObject sound limit).bind fun ref _ sound =>
      leads_pure (by simpa [Except.toOption] using sound)
  | error error =>
    obtain rfl : made = 0 := by simpa [h, Except.isOk, Except.toBool] using counts
    exact leads_run_throw (by simpa [Except.toOption] using sound)

/-- The kernel's own numbers hold no reference. -/
theorem World.Sound.setKernel (sound : Sound strict past inserted held w) (kernel : Kernel) :
    Sound strict past inserted held { w with kernel } :=
  sound.move rfl sound.tables fun _ => rfl

theorem sound_newArena (sound : Sound strict past inserted held w) :
    Leads w newArena (fun _ next => Sound strict past inserted held next) (Excused strict) := by
  apply leads_get_bind
  intro _
  exact leads_modifyWorld_bind (leads_pure sound.addArena)

theorem sound_newKernel (sound : Sound strict past inserted held w) :
    Leads w newKernel (fun _ next => Sound strict past inserted held next) (Excused strict) :=
  (sound_newArena sound).bind fun _ _ sound => leads_modifyWorld (sound.setKernel _)

theorem sound_createProcess {name : String} (sound : Sound strict past inserted held w)
    (limit : strict → inserted + 1 < 2 ^ 64) :
    Leads w (createProcess name) (fun _ next => Sound strict past (inserted + 1) held next)
      (Excused strict) := by
  refine leads_get_bind fun _ => leads_modifyWorld_bind ?_
  apply (sound_createObject (sound.setKernel _) limit).bind
  intro object next sound
  refine leads_note_bind (leads_get_bind fun _ => leads_modifyWorld_bind (leads_pure ?_))
  refine Sound.addProcess ?_ HandleTable.wellFormed_empty
  have own : ((Process.new w.kernel.nextProcessId name object).references : Multiset ObjectRef)
      + held = object ::ₘ held := by
    simp [Process.references, Process.new, HandleTable.objects, HandleTable.empty]
  exact own ▸ sound

theorem sound_holdProcess {a : Key Process} (sound : Sound strict past inserted held w) :
    Leads w (holdProcess a) (fun _ next => Sound strict past inserted held next)
      (Excused strict) :=
  leads_processAt_bind (fun _ found => leads_modifyWorld (sound.setProcess found rfl rfl))
    fun _ => excused_discarded

theorem sound_holdThread {a : Key Thread} (sound : Sound strict past inserted held w) :
    Leads w (holdThread a) (fun _ next => Sound strict past inserted held next)
      (Excused strict) :=
  leads_threadAt_bind (fun _ found => leads_modifyWorld (sound.setThread found rfl))
    fun _ => excused_discarded

/-- The thread-local storage of a thread lies beside everything that holds references. -/
theorem Process.references_of_takeTlsSlot {process next : Process} {slot : UInt32}
    (h : process.takeTlsSlot = .ok (slot, next)) :
    next.object = process.object ∧ next.handles = process.handles := by
  simp only [takeTlsSlot] at h
  split at h
  · obtain ⟨-, rfl⟩ := Prod.mk.inj (Except.ok.inj h)
    exact ⟨rfl, rfl⟩
  · cases h

theorem sound_createThread {owner : Key Process} {name : String}
    (sound : Sound strict past inserted held w) (limit : strict → inserted + 1 < 2 ^ 64) :
    Leads w (createThread owner name) (fun _ next => Sound strict past (inserted + 1) held next)
      (Excused strict) := by
  refine leads_get_bind fun _ => leads_modifyWorld_bind ?_
  refine leads_processAt_bind (fun process _ => ?_) fun _ => excused_discarded
  apply (sound_createObject (sound.setKernel _) limit).bind
  intro object next sound
  refine leads_processAt_bind (fun process found => ?_) fun _ => excused_discarded
  refine leads_liftExcept_bind (fun slotted taken => ?_) fun fault refused => ?_
  · obtain ⟨tlsAddress, slotted⟩ := slotted
    obtain ⟨same, handles⟩ := Process.references_of_takeTlsSlot taken
    refine leads_modifyWorld_bind (leads_note_bind ?_)
    apply (sound_holdProcess (sound.setProcess found same handles)).bind
    intro _ _ sound
    exact leads_get_bind fun _ => leads_modifyWorld_bind (leads_pure sound.addThread)
  · simp only [Process.takeTlsSlot] at refused
    split at refused
    · cases refused
    · obtain rfl := Except.error.inj refused
      intro _ id
      simp

theorem sound_createSessionPair {name : String} (sound : Sound strict past inserted held w)
    (limit : strict → inserted + 2 < 2 ^ 64) :
    Leads w (createSessionPair name)
      (fun ends next => Sound strict past (inserted + 2) (ends.1 ::ₘ ends.2 ::ₘ held) next)
      (Excused strict) := by
  refine leads_get_bind fun _ => leads_modifyWorld_bind ?_
  refine (sound_createObject (sound.setKernel _) fun e => by have := limit e; omega).bind
    fun server _ sound => ?_
  refine (sound_createObject sound limit).bind fun client _ sound => leads_pure ?_
  rw [Multiset.cons_swap]
  exact sound

/-! ## Letting processes and threads go -/

theorem sound_releaseProcess {a : Key Process} (sound : Sound strict past inserted held w)
    (limit : strict → Within held w) :
    Leads w (releaseProcess a) (fun _ next => Sound strict past inserted held next)
      (Excused strict) := by
  refine leads_processAt_bind (fun process found => ?_) fun _ => excused_discarded
  split
  · apply leads_modifyWorld_bind
    have removed := sound.removeProcess found
    have within := fun e => (limit e).of_eq (references_removeProcess found)
    simp only [Process.references, ← Multiset.cons_coe, Multiset.cons_add] at removed within
    apply (sound_release removed within).bind
    intro _ next h
    exact (sound_releaseAll h.1 h.2).mono (fun _ _ h => h.1) fun _ h => h
  · exact leads_modifyWorld (sound.setProcess found rfl rfl)

theorem sound_releaseThread {a : Key Thread} (sound : Sound strict past inserted held w)
    (limit : strict → Within held w) :
    Leads w (releaseThread a) (fun _ next => Sound strict past inserted held next)
      (Excused strict) := by
  refine leads_threadAt_bind (fun thread found => ?_) fun _ => excused_discarded
  split
  · apply leads_modifyWorld_bind
    refine (sound_release (sound.removeThread found) fun e =>
      (limit e).of_eq (references_removeThread found)).bind fun _ next h => ?_
    exact sound_releaseProcess h.1 h.2
  · exact leads_modifyWorld (sound.setThread found rfl)

/-! ## Objects and memory -/

theorem sound_setObject {object : KernelObject} (sound : Sound strict past inserted held w) :
    Leads w (setObject ref object) (fun _ next => Sound strict past inserted held next)
      (Excused strict) :=
  leads_arenaAt_bind (fun _ there => leads_modifyWorld (sound.update there ref.id _))
    fun _ => excused_discarded

/-- The memory of a process holds no reference. -/
theorem World.Sound.setMemory {a : Key Process} {process : Process}
    (sound : Sound strict past inserted held w) (found : w.processes.get? a = some process)
    (memory : AddressSpace) :
    Sound strict past inserted held (w.setProcess a { process with memory }) :=
  sound.setProcess found rfl rfl

end MicrokernelIpc
