import Mathlib.Data.Finset.Card
import Mathlib.Data.Set.Card
import Mathlib.Tactic.SplitIfs
import MicrokernelIpc.HandleTable.Basic

/-!
# The slots of a handle table

A slot is occupied or vacant, and everything a table promises rests on the free list holding
the vacant slots, each once. Naming an object fills a vacant slot or a new one (`Fills`),
taking a reference out empties an occupied one (`Empties`); each operation is shown to do one
of the two, and what a table keeps is then proved of the two alone.
-/

namespace MicrokernelIpc.HandleTable

/-- The object in a slot. -/
def objectAt (table : HandleTable) (index : Nat) : Option ObjectRef :=
  table.slots[index]?.bind HandleSlot.object

/-- The slots that hold an object. -/
def occupied (table : HandleTable) : Finset Nat :=
  (Finset.range table.slots.size).filter fun index => (table.objectAt index).isSome

/-- The slots that hold none. -/
def vacant (table : HandleTable) : Finset Nat :=
  (Finset.range table.slots.size).filter fun index => ¬ (table.objectAt index).isSome

/-- What every table keeps: there are at most 4096 slots, the free list holds the vacant
ones, each once, the occupied ones are counted, and generations stay in their range. -/
structure WellFormed (table : HandleTable) : Prop where
  size_le : table.slots.size ≤ maxCount
  free_nodup : table.free.Nodup
  mem_free : ∀ index, index ∈ table.free ↔ index ∈ table.vacant
  live_eq : table.live = table.occupied.card
  generation : ∀ (index generation : Nat) (object : ObjectRef),
    table.slots[index]? = some ⟨generation, some object⟩ →
      1 ≤ generation ∧ generation ≤ maxGeneration
  next : 1 ≤ table.nextGeneration ∧ table.nextGeneration ≤ maxGeneration

/-- The object fills a slot that held nothing, under the table's next generation. -/
structure Fills (table : HandleTable) (index : Nat) (object : ObjectRef) (next : HandleTable) :
    Prop where
  index_lt : index < maxCount
  was_vacant : table.objectAt index = none
  size : next.slots.size = max table.slots.size (index + 1)
  slots : ∀ i, next.slots[i]?
    = if i = index then some ⟨table.nextGeneration, some object⟩ else table.slots[i]?
  free : next.free = table.free.erase index
  live : next.live = table.live + 1
  nextGeneration : next.nextGeneration = followingGeneration table.nextGeneration

/-- The slot held the object under the generation and is left vacant. -/
structure Empties (table : HandleTable) (index generation : Nat) (object : ObjectRef)
    (next : HandleTable) : Prop where
  was_occupied : table.slots[index]? = some ⟨generation, some object⟩
  size : next.slots.size = table.slots.size
  slots : ∀ i, next.slots[i]? = if i = index then some ⟨generation, none⟩ else table.slots[i]?
  free : next.free = index :: table.free
  live : next.live = table.live - 1
  nextGeneration : next.nextGeneration = table.nextGeneration

variable {table next : HandleTable} {object : ObjectRef} {index generation : Nat}

theorem objectAt_eq_some_iff :
    table.objectAt index = some object ↔ ∃ g, table.slots[index]? = some ⟨g, some object⟩ := by
  unfold objectAt
  cases h : table.slots[index]? with
  | none => simp
  | some slot =>
    obtain ⟨g, held⟩ := slot
    simp

theorem lt_size_of_objectAt (h : table.objectAt index = some object) :
    index < table.slots.size := by
  obtain ⟨g, hg⟩ := objectAt_eq_some_iff.1 h
  exact (Array.getElem?_eq_some_iff.1 hg).1

theorem mem_occupied : index ∈ table.occupied ↔ (table.objectAt index).isSome := by
  simp only [occupied, Finset.mem_filter, Finset.mem_range, and_iff_right_iff_imp]
  intro h
  obtain ⟨object, ho⟩ := Option.isSome_iff_exists.1 h
  exact lt_size_of_objectAt ho

theorem mem_vacant :
    index ∈ table.vacant ↔ index < table.slots.size ∧ table.objectAt index = none := by
  simp [vacant]

/-- Occupied and vacant slots make up the table. -/
theorem card_occupied_add_vacant :
    table.occupied.card + table.vacant.card = table.slots.size := by
  unfold occupied vacant
  rw [Finset.card_filter_add_card_filter_not, Finset.card_range]

theorem WellFormed.card_vacant (wf : table.WellFormed) : table.vacant.card = table.free.length := by
  rw [← List.toFinset_card_of_nodup wf.free_nodup]
  congr 1
  ext index
  rw [List.mem_toFinset, wf.mem_free]

theorem WellFormed.live_add_free (wf : table.WellFormed) :
    table.live + table.free.length = table.slots.size := by
  rw [wf.live_eq, ← wf.card_vacant, card_occupied_add_vacant]

theorem WellFormed.live_le (wf : table.WellFormed) : table.live ≤ maxCount := by
  have := wf.live_add_free
  have := wf.size_le
  omega

theorem wellFormed_empty : WellFormed empty where
  size_le := by decide
  free_nodup := List.nodup_nil
  mem_free := by simp [empty, mem_vacant]
  live_eq := rfl
  generation := by simp [empty]
  next := by decide

/-! ## Names -/

theorem resolve_eq_some_iff {handle : Handle} : table.resolve handle = some object ↔
    table.slots[handle.slotIndex]? = some ⟨handle.generation, some object⟩ := by
  unfold resolve
  cases h : table.slots[handle.slotIndex]? with
  | none => simp
  | some slot =>
    obtain ⟨g, held⟩ := slot
    simp only [Option.some.injEq, HandleSlot.mk.injEq]
    split <;> simp_all

theorem objectAt_of_resolve {handle : Handle} (h : table.resolve handle = some object) :
    table.objectAt handle.slotIndex = some object :=
  objectAt_eq_some_iff.2 ⟨_, resolve_eq_some_iff.1 h⟩

theorem resolve_of_objectAt_none {handle : Handle} (h : table.objectAt handle.slotIndex = none) :
    table.resolve handle = none := by
  cases hr : table.resolve handle with
  | none => rfl
  | some object => simp [objectAt_of_resolve hr] at h

/-- The handle of an occupied slot. -/
theorem resolve_ofSlot (wf : table.WellFormed)
    (h : table.slots[index]? = some ⟨generation, some object⟩) :
    table.resolve (Handle.ofSlot index generation) = some object := by
  have hi : index < 4096 :=
    lt_of_lt_of_le (Array.getElem?_eq_some_iff.1 h).1 wf.size_le
  have hg : generation < Handle.generationCount := by
    have := (wf.generation _ _ _ h).2
    simp only [maxGeneration, Handle.generationCount] at *
    omega
  rw [resolve_eq_some_iff, Handle.slotIndex_ofSlot hi hg, Handle.generation_ofSlot hi hg, h]

theorem eq_ofSlot_iff {handle : Handle} (hi : index < 4096)
    (hg : generation < Handle.generationCount) : handle = Handle.ofSlot index generation ↔
      handle.slotIndex = index ∧ handle.generation = generation := by
  constructor
  · rintro rfl
    exact ⟨Handle.slotIndex_ofSlot hi hg, Handle.generation_ofSlot hi hg⟩
  · rintro ⟨rfl, rfl⟩
    exact (Handle.ofSlot_slotIndex_generation handle).symm

/-- Every handle that names an object names that of one occupied slot, and every occupied
slot is named by one handle. -/
theorem WellFormed.bijOn_slotIndex (wf : table.WellFormed) :
    Set.BijOn Handle.slotIndex {handle | table.isLive handle} table.occupied := by
  refine ⟨?_, ?_, ?_⟩
  · intro handle h
    obtain ⟨object, ho⟩ := Option.isSome_iff_exists.1 h
    simpa [mem_occupied] using Option.isSome_iff_exists.2 ⟨object, objectAt_of_resolve ho⟩
  · intro handle h other ho same
    obtain ⟨object, hr⟩ := Option.isSome_iff_exists.1 h
    obtain ⟨object', hr'⟩ := Option.isSome_iff_exists.1 ho
    rw [resolve_eq_some_iff] at hr hr'
    rw [same, hr'] at hr
    rw [← Handle.ofSlot_slotIndex_generation handle, ← Handle.ofSlot_slotIndex_generation other,
      same]
    simp_all
  · intro index h
    obtain ⟨object, ho⟩ := Option.isSome_iff_exists.1 (mem_occupied.1 h)
    obtain ⟨g, hg⟩ := objectAt_eq_some_iff.1 ho
    have named := resolve_ofSlot wf hg
    refine ⟨Handle.ofSlot index g, by simp [isLive, named], ?_⟩
    have := resolve_eq_some_iff.1 named
    have hi : index < 4096 := lt_of_lt_of_le (lt_size_of_objectAt ho) wf.size_le
    have := (wf.generation _ _ _ hg).2
    apply Handle.slotIndex_ofSlot hi
    simp only [maxGeneration, Handle.generationCount] at *
    omega

/-- As many handles name an object as the table counts. -/
theorem WellFormed.ncard_isLive (wf : table.WellFormed) :
    {handle | table.isLive handle}.ncard = table.live := by
  rw [wf.live_eq, ← Set.ncard_coe_finset, ← wf.bijOn_slotIndex.image_eq]
  exact wf.bijOn_slotIndex.injOn.ncard_image.symm

/-- A handle that names an object is no pseudo-handle and not zero: its generation is not
zero and its slot is one of 4096. -/
theorem WellFormed.of_isLive (wf : table.WellFormed) {handle : Handle}
    (h : table.isLive handle) : handle ≠ Handle.invalid ∧ handle.isPseudo = false := by
  obtain ⟨object, ho⟩ := Option.isSome_iff_exists.1 h
  have slot := resolve_eq_some_iff.1 ho
  have hi := lt_of_lt_of_le (lt_size_of_objectAt (objectAt_of_resolve ho)) wf.size_le
  have hg := (wf.generation _ _ _ slot).1
  constructor
  · rintro rfl
    simp [Handle.generation, Handle.invalid] at hg
  · unfold Handle.isPseudo Handle.pseudo?
    split_ifs with ht hp
    · subst ht
      exact absurd hi (by decide)
    · subst hp
      exact absurd hi (by decide)
    · rfl

end MicrokernelIpc.HandleTable
