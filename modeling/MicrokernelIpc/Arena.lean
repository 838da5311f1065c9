import MicrokernelIpc.Object.Basic
import MicrokernelIpc.Object.Id
import Std.Data.ExtTreeMap

/-!
# Object arenas

An arena owns kernel objects and counts the references to each. An object enters with one
reference and is gone when the last reference is let go. Identifiers are given out in order
and never again, so the identifier of an object that is gone names nothing.
-/

namespace MicrokernelIpc

/-- An object and the number of references to it. -/
structure ArenaEntry where
  object : KernelObject
  refs : UInt32
  deriving DecidableEq

/-- Counted storage of kernel objects. -/
structure Arena where
  entries : Std.ExtTreeMap UInt64 ArenaEntry
  nextId : UInt64

namespace Arena

/-- The arena without objects. -/
def empty : Arena := ⟨∅, 1⟩

/-- The entry of an object that is there. -/
def find? (arena : Arena) (id : ObjectId) : Option ArenaEntry := arena.entries[id.raw]?

/-- An object that is there. -/
def object? (arena : Arena) (id : ObjectId) : Option KernelObject :=
  (arena.find? id).map ArenaEntry.object

/-- The number of references to an object, zero once it is gone. -/
def refCount (arena : Arena) (id : ObjectId) : UInt32 :=
  ((arena.find? id).map ArenaEntry.refs).getD 0

/-- Whether an object is there. -/
def contains (arena : Arena) (id : ObjectId) : Bool := arena.entries.contains id.raw

/-- The number of objects that are there. -/
def size (arena : Arena) : Nat := arena.entries.size

/-- The identifiers of the objects that are there, in the order of their arrival. -/
def ids (arena : Arena) : List ObjectId := arena.entries.keys.map ObjectId.mk

/-- Let an object in with its first reference. -/
def insert (arena : Arena) (object : KernelObject) : ObjectId × Arena :=
  (⟨arena.nextId⟩, ⟨arena.entries.insert arena.nextId ⟨object, 1⟩, arena.nextId + 1⟩)

/-- Replace an object that is there and leave its references as they are. -/
def update (arena : Arena) (id : ObjectId) (f : KernelObject → KernelObject) : Arena :=
  { arena with
    entries := arena.entries.modify id.raw fun entry => { entry with object := f entry.object } }

/-- Count one more reference, if the object is there. -/
def retain (arena : Arena) (id : ObjectId) : Option Arena :=
  if arena.contains id then
    some { arena with
      entries := arena.entries.modify id.raw fun entry => { entry with refs := entry.refs + 1 } }
  else none

/-- Count one reference less. With the last one the object goes; it is given back then. -/
def release (arena : Arena) (id : ObjectId) : Option KernelObject × Arena :=
  match arena.find? id with
  | none => (none, arena)
  | some entry =>
    if entry.refs = 1 then
      (some entry.object, { arena with entries := arena.entries.erase id.raw })
    else
      (none, { arena with
        entries := arena.entries.insert id.raw { entry with refs := entry.refs - 1 } })

/-- The arena as a record. -/
def text (arena : Arena) : String := Text.record "ObjectArena" [("len", toString arena.size)]

/-! ## What each operation does to the entries -/

theorem contains_eq_isSome (arena : Arena) (id : ObjectId) :
    arena.contains id = (arena.find? id).isSome := by
  simp [contains, find?]

theorem find?_insert (arena : Arena) (object : KernelObject) (other : ObjectId) :
    (arena.insert object).2.find? other
      = if (arena.insert object).1 = other then some ⟨object, 1⟩ else arena.find? other := by
  obtain ⟨o⟩ := other
  simp [find?, insert, Std.ExtTreeMap.getElem?_insert]

theorem find?_update (arena : Arena) (id other : ObjectId) (f : KernelObject → KernelObject) :
    (arena.update id f).find? other
      = if id = other then
          (arena.find? id).map fun entry => { entry with object := f entry.object }
        else arena.find? other := by
  obtain ⟨i⟩ := id
  obtain ⟨o⟩ := other
  simp [find?, update, Std.ExtTreeMap.getElem?_modify]

theorem retain_eq_none_iff {arena : Arena} {id : ObjectId} :
    arena.retain id = none ↔ arena.find? id = none := by
  simp [retain, contains, find?]

theorem find?_retain {arena next : Arena} {id : ObjectId} (h : arena.retain id = some next)
    (other : ObjectId) :
    next.find? other
      = if id = other then
          (arena.find? id).map fun entry => { entry with refs := entry.refs + 1 }
        else arena.find? other := by
  obtain ⟨i⟩ := id
  obtain ⟨o⟩ := other
  simp only [retain] at h
  split at h
  · obtain rfl := Option.some.inj h
    simp [find?, Std.ExtTreeMap.getElem?_modify]
  · simp at h

theorem nextId_of_retain {arena next : Arena} {id : ObjectId} (h : arena.retain id = some next) :
    next.nextId = arena.nextId := by
  unfold retain at h
  split at h
  · obtain rfl := Option.some.inj h
    rfl
  · cases h

@[simp] theorem nextId_release (arena : Arena) (id : ObjectId) :
    (arena.release id).2.nextId = arena.nextId := by
  unfold release
  split
  · rfl
  · split <;> rfl

theorem find?_release (arena : Arena) (id other : ObjectId) :
    (arena.release id).2.find? other
      = if id = other then
          (arena.find? id).bind fun entry =>
            if entry.refs = 1 then none else some { entry with refs := entry.refs - 1 }
        else arena.find? other := by
  obtain ⟨i⟩ := id
  obtain ⟨o⟩ := other
  cases h : arena.find? ⟨i⟩ with
  | none =>
    by_cases hi : i = o
    · subst hi
      simp [release, h]
    · simp [release, h, hi]
  | some entry =>
    simp only [release, h, Option.bind_some]
    split <;> simp [find?, Std.ExtTreeMap.getElem?_erase, Std.ExtTreeMap.getElem?_insert]

end Arena

end MicrokernelIpc
