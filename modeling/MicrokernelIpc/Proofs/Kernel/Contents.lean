import MicrokernelIpc.Proofs.Kernel.Effects

/-!
# What stays in an arena

What is in an arena is only ever changed in its state, and records and ends of sessions have none:
as long as one of these is there it is what it was when it came. As identifiers are not given out
again, nothing else comes to be found under the identifier of an object.
-/

namespace MicrokernelIpc

namespace KernelObject

/-- What may become of an object that is in an arena. Its state is changed through itself, and
nothing is put in its place. -/
inductive Becomes : KernelObject → KernelObject → Prop
  | kept (object : KernelObject) : Becomes object object
  | event (event after : EventObject) : Becomes (.event event) (.event after)
  | semaphore (semaphore after : Semaphore) : Becomes (.semaphore semaphore) (.semaphore after)
  | sharedMemory (block after : SharedMemory) : Becomes (.sharedMemory block) (.sharedMemory after)

/-- The object has no state that could change. -/
def isFixed : KernelObject → Bool
  | .thread _ => true
  | .process _ => true
  | .session _ => true
  | _ => false

variable {object next after : KernelObject}

theorem Becomes.trans (first : object.Becomes next) (second : next.Becomes after) :
    object.Becomes after := by
  cases first with
  | kept => exact second
  | event event _ =>
    cases second with
    | kept => exact .event event _
    | event _ after => exact .event event after
  | semaphore semaphore _ =>
    cases second with
    | kept => exact .semaphore semaphore _
    | semaphore _ after => exact .semaphore semaphore after
  | sharedMemory block _ =>
    cases second with
    | kept => exact .sharedMemory block _
    | sharedMemory _ after => exact .sharedMemory block after

theorem Becomes.eq_of_isFixed (becomes : object.Becomes after) (fixed : object.isFixed) :
    after = object := by
  cases becomes with
  | kept => rfl
  | event => cases fixed
  | semaphore => cases fixed
  | sharedMemory => cases fixed

end KernelObject

namespace World

/-- The object that a reference names, if it is there. -/
def object? (w : World) (ref : ObjectRef) : Option KernelObject :=
  (w.stored? ref).map ArenaEntry.object

/-- Under an identifier that was given out there is nothing but what was there, or what has become
of it. -/
def KeepsObjects (w w' : World) : Prop :=
  ∀ ref after, w.Known ref → w'.object? ref = some after →
    ∃ object, w.object? ref = some object ∧ object.Becomes after

end World

/-- An object is only changed into what it may become. -/
def Operation.Lawful (w : World) : Operation → Prop
  | change ref after => ∀ object, w.object? ref = some object → object.Becomes after
  | _ => True

namespace World

variable {w next w' : World} {past : World} {inserted : Nat} {held : Multiset ObjectRef}
variable {ref : ObjectRef} {object : KernelObject} {place : Key Arena}

theorem isSome_object? : (w.object? ref).isSome = (w.refs? ref).isSome := by
  rw [object?, refs?_eq_map, Option.isSome_map, Option.isSome_map]

/-! ## Objects of a sound world -/

section

variable (sound : Sound True past inserted held w)
include sound

theorem Sound.exists_object (counted : 0 < w.count ref) : ∃ object, w.object? ref = some object := by
  have some : 0 < w.references held ref := Nat.lt_of_lt_of_le counted (Nat.le_add_left _ _)
  have there := sound.refs?_ne_none trivial some
  rwa [← Option.isSome_iff_exists, isSome_object?, Option.isSome_iff_ne_none]

theorem Sound.known_of_object (there : w.object? ref = some object) : w.Known ref := by
  obtain ⟨entry, stored, -⟩ := Option.map_eq_some_iff.1 there
  obtain ⟨arena, found, entered⟩ := Option.bind_eq_some_iff.1 stored
  refine ⟨arena, found, (sound.numbered trivial _ _ found).2 _ ?_⟩
  rw [entered]
  rfl

/-- The next identifier of an arena was not given out yet. -/
theorem Inserts.not_known (inserts : w.Inserts place object ref w')
    (limit : inserted + 1 < 2 ^ 64) : ¬ w.Known ref := by
  cases inserts with
  | intro there =>
    rintro ⟨arena, found, le⟩
    obtain rfl := Option.some.inj (there.symm.trans found)
    exact absurd (sound.lt_nextId trivial there limit le) (UInt64.lt_irrefl _)

end

/-! ## What each change does to the objects -/

theorem KeepsObjects.trans (first : w.KeepsObjects next) (known : w.Outlives next)
    (second : next.KeepsObjects w') : w.KeepsObjects w' := by
  intro ref after given there
  obtain ⟨mid, here, later⟩ := second ref after (known.known ref given) there
  obtain ⟨object, found, earlier⟩ := first ref mid given here
  exact ⟨object, found, earlier.trans later⟩

theorem keepsObjects_of_imp
    (fewer : ∀ ref object, w'.object? ref = some object → w.object? ref = some object) :
    w.KeepsObjects w' :=
  fun ref after _ there => ⟨after, fewer ref after there, .kept after⟩

theorem object?_of_arenas (same : w'.arenas = w.arenas) : w'.object? ref = w.object? ref := by
  rw [object?, stored?, same]
  rfl

theorem Alters.object?_imp (alters : w.Alters w') (there : w'.object? ref = some object) :
    w.object? ref = some object := by
  cases alters with
  | @retained other _ retained =>
    rw [object?, stored?_of_retain? retained] at there
    split at there
    · next same =>
      rw [same, object?, ← there, Option.map_map]
      rfl
    · exact there
  | @released other _ released =>
    rw [object?, stored?_of_release? released] at there
    split at there
    · next same =>
      obtain ⟨entry, left, rfl⟩ := Option.map_eq_some_iff.1 there
      obtain ⟨before, stored, left⟩ := Option.bind_eq_some_iff.1 left
      rw [same, object?, stored]
      split at left
      · cases left
      · obtain rfl := Option.some.inj left
        rfl
    · exact there
  | table table key => exact (object?_of_arenas (arenas_setTable table)).symm.trans there
  | tables => exact there
  | process => exact there
  | thread => exact there
  | processGone => exact there
  | threadGone => exact there

theorem Drifts.object?_imp (drifts : w.Drifts w') (there : w'.object? ref = some object) :
    w.object? ref = some object := by
  induction drifts with
  | refl => exact there
  | tail _ alters ih => exact ih (alters.object?_imp there)

theorem Inserts.object?_eq (inserts : w.Inserts place object ref w') (other : ObjectRef) :
    w'.object? other = if other = ref then some object else w.object? other := by
  cases inserts with
  | @intro arena found =>
    obtain ⟨b, ⟨id⟩⟩ := other
    rw [object?, object?, stored?_setArena found, Arena.find?_insert]
    by_cases same : place = b
    · subst same
      by_cases ids : arena.nextId = id
      · simp [Arena.insert, ids]
      · simp [Arena.insert, stored?, found, ids, Ne.symm ids]
    · simp [same, Ne.symm same]

theorem Inserts.sound (inserts : w.Inserts place object ref w')
    (sound : Sound True past inserted held w) (limit : inserted + 1 < 2 ^ 64) :
    Sound True past (inserted + 1) (ref ::ₘ held) w' := by
  cases inserts with
  | intro found => exact sound.insert found object fun _ => limit

theorem Inserts.outlives (inserts : w.Inserts place object ref w')
    (sound : Sound True past inserted held w) (limit : inserted + 1 < 2 ^ 64) : w.Outlives w' := by
  cases inserts with
  | intro found => exact sound.outlives_insert trivial found object limit

theorem Inserts.keepsObjects (inserts : w.Inserts place object ref w')
    (sound : Sound True past inserted held w) (limit : inserted + 1 < 2 ^ 64) :
    w.KeepsObjects w' := by
  intro other after known there
  rw [inserts.object?_eq, if_neg] at there
  · exact ⟨after, there, .kept after⟩
  · rintro rfl
    exact inserts.not_known sound limit known

theorem object?_addArena : w.addArena.object? ref = w.object? ref := by
  have fresh : w.arenas.get? (w.arenas.add Arena.empty).1 = none := Roster.get?_fresh _ le_rfl
  simp only [object?, stored?, addArena, Roster.get?_add]
  split
  · next e =>
    rw [← e, fresh]
    simp [Arena.empty, Arena.find?]
  · rfl

/-- The ends of a session come one after the other, each under an identifier of its own. -/
theorem AddsSessionPair.object?_eq {name : String} {server client : ObjectRef}
    (adds : w.AddsSessionPair name server client w') (other : ObjectRef) :
    w'.object? other = if other = client then some (.session ⟨name, w.kernel.nextSessionId, .client⟩)
      else if other = server then some (.session ⟨name, w.kernel.nextSessionId, .server⟩)
      else w.object? other := by
  cases adds with
  | intro first second =>
    rw [second.object?_eq, first.object?_eq]
    rfl

end World

/-- Every operation leaves under an identifier what was there. -/
theorem Operation.Does.keepsObjects {w w' past : World} {inserted : Nat} {held : Multiset ObjectRef}
    {op : Operation} {gained : Multiset ObjectRef} (does : op.Does w gained w')
    (lawful : op.Lawful w) (sound : World.Sound True past inserted held w)
    (limit : inserted + op.inserts < 2 ^ 64) : w.KeepsObjects w' := by
  cases does with
  | drifts drifts => exact World.keepsObjects_of_imp fun _ _ => World.Drifts.object?_imp drifts
  | inserts counted inserts => exact inserts.keepsObjects sound (counted ▸ limit)
  | process adds =>
    cases adds with
    | intro inserts => exact inserts.keepsObjects (sound.setKernel _) limit
  | thread adds =>
    cases adds with
    | intro _ inserts _ => exact inserts.keepsObjects (sound.setKernel _) limit
  | sessions adds =>
    cases adds with
    | intro first second =>
      have limit : inserted + 1 + 1 < 2 ^ 64 := limit
      have one : inserted + 1 < 2 ^ 64 := by omega
      exact (first.keepsObjects (sound.setKernel _) one).trans (first.outlives (sound.setKernel _) one)
        (second.keepsObjects (first.sound (sound.setKernel _) one) limit)
  | arena => exact World.keepsObjects_of_imp fun _ _ there => World.object?_addArena ▸ there
  | kernel => exact World.keepsObjects_of_imp fun _ _ there => World.object?_addArena.symm.trans there
  | @changed ref object arena found =>
    rintro ⟨b, id⟩ after - there
    rw [World.object?, World.stored?_setArena found, Arena.find?_update] at there
    by_cases same : ref.arena = b ∧ ref.id = id
    · obtain ⟨rfl, rfl⟩ := same
      rw [if_pos rfl, if_pos rfl] at there
      obtain ⟨entry, changed, rfl⟩ := Option.map_eq_some_iff.1 there
      obtain ⟨before, stored, rfl⟩ := Option.map_eq_some_iff.1 changed
      have here : w.object? ref = some before.object := by
        rw [World.object?, World.stored?, found]
        exact congrArg (Option.map ArenaEntry.object) stored
      exact ⟨before.object, here, lawful _ here⟩
    · refine ⟨after, ?_, .kept after⟩
      rw [World.object?, World.stored?]
      by_cases arenas : ref.arena = b
      · subst arenas
        rw [if_pos rfl, if_neg fun ids => same ⟨rfl, ids⟩] at there
        rwa [found]
      · rwa [if_neg arenas] at there

end MicrokernelIpc
