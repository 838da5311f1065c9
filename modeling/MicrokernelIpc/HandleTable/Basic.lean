import MicrokernelIpc.HandleTable.Error
import MicrokernelIpc.ObjectRef

/-!
# Handle tables

A handle table gives a process its names for kernel objects. A handle is the index of a
slot together with a generation, the number of the allocation that filled the slot, counted
over the whole table from 1 to 32767 and then from 1 again. A slot that was freed last is
filled first. Since no generation is zero, no handle is zero, and since an index is below
4096, no handle is a pseudo-handle.

The table only keeps references; counting them is not its work. Operations that take a
reference out hand it to the caller.
-/

namespace MicrokernelIpc

namespace Handle

/-- How many generations a handle can hold; the index counts for that many each. -/
def generationCount : Nat := 0x8000

/-- The handle of a slot filled under a generation. -/
def ofSlot (index generation : Nat) : Handle :=
  ⟨UInt32.ofNat (index * generationCount + generation)⟩

/-- The index of the slot that a handle names. -/
def slotIndex (handle : Handle) : Nat := handle.raw.toNat / generationCount

/-- The generation that a handle names. -/
def generation (handle : Handle) : Nat := handle.raw.toNat % generationCount

theorem toNat_ofSlot {index generation : Nat} (hi : index < 4096)
    (hg : generation < generationCount) :
    (ofSlot index generation).raw.toNat = index * generationCount + generation := by
  simp only [ofSlot, UInt32.toNat_ofNat', generationCount] at *
  omega

theorem slotIndex_ofSlot {index generation : Nat} (hi : index < 4096)
    (hg : generation < generationCount) : (ofSlot index generation).slotIndex = index := by
  simp only [slotIndex, toNat_ofSlot hi hg]
  simp only [generationCount] at *
  omega

theorem generation_ofSlot {index generation : Nat} (hi : index < 4096)
    (hg : generation < generationCount) : (ofSlot index generation).generation = generation := by
  simp only [Handle.generation, toNat_ofSlot hi hg]
  simp only [generationCount] at *
  omega

theorem ofSlot_slotIndex_generation (handle : Handle) :
    ofSlot handle.slotIndex handle.generation = handle := by
  obtain ⟨word⟩ := handle
  have := word.toNat_lt
  simp only [ofSlot, slotIndex, Handle.generation, generationCount, Handle.mk.injEq]
  apply UInt32.toNat_inj.1
  rw [UInt32.toNat_ofNat']
  omega

end Handle

/-- A slot of a handle table: its object, if any, and the generation it was filled under. -/
structure HandleSlot where
  generation : Nat
  object : Option ObjectRef
  deriving DecidableEq

/-- The handles of one process. -/
structure HandleTable where
  slots : Array HandleSlot
  /-- Indices of empty slots, the one freed last in front. -/
  free : List Nat
  /-- The generation of the next allocation. -/
  nextGeneration : Nat
  /-- How many slots hold an object. -/
  live : Nat
  deriving DecidableEq

namespace HandleTable

/-- The most handles that a table can hold. -/
def maxCount : Nat := 4096

/-- The largest generation. -/
def maxGeneration : Nat := Handle.generationCount - 1

/-- The generation after another one. -/
def followingGeneration (generation : Nat) : Nat :=
  if maxGeneration ≤ generation then 1 else generation + 1

/-- The table without handles. -/
def empty : HandleTable := ⟨#[], [], 1, 0⟩

/-- The object that a handle names, if its slot was filled under the handle's generation. -/
def resolve (table : HandleTable) (handle : Handle) : Option ObjectRef :=
  match table.slots[handle.slotIndex]? with
  | none => none
  | some slot => if slot.generation = handle.generation then slot.object else none

/-- The identifier of the object that a handle names. -/
def get? (table : HandleTable) (handle : Handle) : Option ObjectId :=
  (table.resolve handle).map ObjectRef.id

/-- Whether a handle names an object. -/
def isLive (table : HandleTable) (handle : Handle) : Bool := (table.resolve handle).isSome

/-- Whether the table holds no handle. -/
def isEmpty (table : HandleTable) : Bool := table.live == 0

/-- Put a reference into a slot that exists. -/
def fill (table : HandleTable) (index : Nat) (object : ObjectRef) : Handle × HandleTable :=
  (Handle.ofSlot index table.nextGeneration,
    { table with
      slots := table.slots.setIfInBounds index ⟨table.nextGeneration, some object⟩
      nextGeneration := followingGeneration table.nextGeneration
      live := table.live + 1 })

/-- Name an object: in the slot freed last, else in a new slot, as long as there is room. -/
def allocate (table : HandleTable) (object : ObjectRef) : Option (Handle × HandleTable) :=
  match table.free with
  | index :: rest => some (fill { table with free := rest } index object)
  | [] =>
    if table.slots.size < maxCount then
      some (fill { table with slots := table.slots.push ⟨0, none⟩ } table.slots.size object)
    else none

/-- Empty a slot. Gives the reference that it held, if it held one. -/
def vacate (table : HandleTable) (index : Nat) : Option (ObjectRef × HandleTable) :=
  match table.slots[index]? with
  | some ⟨generation, some object⟩ =>
    some (object,
      { table with
        slots := table.slots.setIfInBounds index ⟨generation, none⟩
        free := index :: table.free
        live := table.live - 1 })
  | _ => none

/-- Take the reference that a handle names out of the table. -/
def take (table : HandleTable) (handle : Handle) : Option (ObjectRef × HandleTable) :=
  if table.isLive handle then table.vacate handle.slotIndex else none

/-- Empty the slots with the given indices. Gives the references that they held, in order. -/
def vacateAll (table : HandleTable) : List Nat → List ObjectRef × HandleTable
  | [] => ([], table)
  | index :: rest =>
    match table.vacate index with
    | none => vacateAll table rest
    | some (object, table) =>
      let (objects, table) := vacateAll table rest
      (object :: objects, table)

/-- Take every reference out of the table, in the order of the slots. -/
def clear (table : HandleTable) : List ObjectRef × HandleTable :=
  table.vacateAll (List.range table.slots.size)

/-- The references in the table, in the order of the slots. -/
def objects (table : HandleTable) : List ObjectRef :=
  table.slots.toList.filterMap HandleSlot.object

/-- The table as a record. -/
def text (table : HandleTable) : String := Text.record "HandleTable" [("len", toString table.live)]

end HandleTable

end MicrokernelIpc
