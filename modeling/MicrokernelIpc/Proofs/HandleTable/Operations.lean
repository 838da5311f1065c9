import Mathlib.Data.List.Nodup
import Mathlib.Tactic.Ring
import MicrokernelIpc.Proofs.HandleTable.Slots

/-!
# What the operations do to the slots

Naming an object fills a slot and taking a reference out empties one. What either does to the
names of a table, and that both keep a table well-formed, is said here once; the operations
follow, the clearing of a whole table by induction on the slots that are left.
-/

namespace MicrokernelIpc.HandleTable

variable {table next : HandleTable} {object : ObjectRef} {index generation : Nat}

theorem followingGeneration_range {generation : Nat} :
    1 ≤ followingGeneration generation ∧ followingGeneration generation ≤ maxGeneration := by
  unfold followingGeneration
  split
  · decide
  · omega

theorem WellFormed.nextGeneration_lt (wf : table.WellFormed) :
    table.nextGeneration < Handle.generationCount := by
  have := wf.next.2
  simp only [maxGeneration, Handle.generationCount] at *
  omega

/-! ## Filling a slot -/

theorem Fills.objectAt (fills : table.Fills index object next) (i : Nat) :
    next.objectAt i = if i = index then some object else table.objectAt i := by
  unfold HandleTable.objectAt
  rw [fills.slots]
  split <;> simp

theorem Fills.occupied (fills : table.Fills index object next) :
    next.occupied = insert index table.occupied := by
  ext i
  rw [Finset.mem_insert, mem_occupied, mem_occupied, fills.objectAt]
  by_cases h : i = index <;> simp [h]

theorem Fills.index_le (fills : table.Fills index object next) (wf : table.WellFormed) :
    next.slots.size ≤ maxCount := by
  have := fills.size
  have := fills.index_lt
  have := wf.size_le
  omega

/-- A vacant slot of the new table is one of the old, for the table grew by no more than the
slot that was filled. -/
theorem Fills.mem_vacant (fills : table.Fills index object next)
    (grown : index ≤ table.slots.size) (i : Nat) :
    i ∈ next.vacant ↔ i ≠ index ∧ i ∈ table.vacant := by
  rw [HandleTable.mem_vacant, HandleTable.mem_vacant, fills.objectAt, fills.size]
  by_cases h : i = index
  · simp [h]
  · simp only [h, if_false, ne_eq, not_false_eq_true, true_and]
    constructor
    · rintro ⟨hi, ho⟩
      exact ⟨by omega, ho⟩
    · rintro ⟨hi, ho⟩
      exact ⟨by omega, ho⟩

theorem Fills.wellFormed (fills : table.Fills index object next) (wf : table.WellFormed)
    (grown : index ≤ table.slots.size) : next.WellFormed where
  size_le := fills.index_le wf
  free_nodup := by
    rw [fills.free]
    exact wf.free_nodup.erase index
  mem_free := by
    intro i
    rw [fills.free, wf.free_nodup.mem_erase_iff, wf.mem_free, fills.mem_vacant grown]
  live_eq := by
    have : index ∉ table.occupied := by simp [mem_occupied, fills.was_vacant]
    rw [fills.live, fills.occupied, Finset.card_insert_of_notMem this, wf.live_eq]
  generation := by
    intro i g held h
    rw [fills.slots] at h
    split at h
    · obtain ⟨rfl, -⟩ := HandleSlot.mk.inj (Option.some.inj h)
      exact wf.next
    · exact wf.generation i g held h
  next := by
    rw [fills.nextGeneration]
    exact followingGeneration_range

/-- The new handle named nothing before. -/
theorem Fills.resolve_issued (fills : table.Fills index object next) (wf : table.WellFormed) :
    table.resolve (Handle.ofSlot index table.nextGeneration) = none := by
  apply resolve_of_objectAt_none
  rw [Handle.slotIndex_ofSlot fills.index_lt wf.nextGeneration_lt]
  exact fills.was_vacant

/-- The new handle names the object, and every other handle what it named. -/
theorem Fills.resolve (fills : table.Fills index object next) (wf : table.WellFormed)
    (handle : Handle) : next.resolve handle
      = if handle = Handle.ofSlot index table.nextGeneration then some object
        else table.resolve handle := by
  simp only [eq_ofSlot_iff fills.index_lt wf.nextGeneration_lt]
  by_cases hi : handle.slotIndex = index
  · have before : table.resolve handle = none :=
      resolve_of_objectAt_none (hi ▸ fills.was_vacant)
    unfold HandleTable.resolve at before ⊢
    rw [fills.slots, if_pos hi, before]
    by_cases hg : handle.generation = table.nextGeneration
    · simp [hi, hg]
    · simp [hg, Ne.symm hg]
  · unfold HandleTable.resolve
    simp [fills.slots, hi]

/-! ## Emptying a slot -/

theorem Empties.objectAt (empties : table.Empties index generation object next) (i : Nat) :
    next.objectAt i = if i = index then none else table.objectAt i := by
  unfold HandleTable.objectAt
  rw [empties.slots]
  split <;> simp

theorem Empties.occupied (empties : table.Empties index generation object next) :
    next.occupied = table.occupied.erase index := by
  ext i
  rw [Finset.mem_erase, mem_occupied, mem_occupied, empties.objectAt]
  by_cases h : i = index <;> simp [h]

theorem Empties.mem_occupied (empties : table.Empties index generation object next) :
    index ∈ table.occupied := by
  rw [HandleTable.mem_occupied, objectAt_eq_some_iff.2 ⟨_, empties.was_occupied⟩]
  rfl

theorem Empties.mem_vacant (empties : table.Empties index generation object next) (i : Nat) :
    i ∈ next.vacant ↔ i = index ∨ i ∈ table.vacant := by
  have hi := (Array.getElem?_eq_some_iff.1 empties.was_occupied).1
  rw [HandleTable.mem_vacant, HandleTable.mem_vacant, empties.objectAt, empties.size]
  by_cases h : i = index <;> simp [h, hi]

theorem Empties.wellFormed (empties : table.Empties index generation object next)
    (wf : table.WellFormed) : next.WellFormed where
  size_le := empties.size ▸ wf.size_le
  free_nodup := by
    rw [empties.free, List.nodup_cons]
    refine ⟨fun h => ?_, wf.free_nodup⟩
    have held := HandleTable.mem_occupied.1 empties.mem_occupied
    simp [(HandleTable.mem_vacant.1 ((wf.mem_free index).1 h)).2] at held
  mem_free := by
    intro i
    rw [empties.free, List.mem_cons, empties.mem_vacant, wf.mem_free]
  live_eq := by
    rw [empties.live, empties.occupied, Finset.card_erase_of_mem empties.mem_occupied, wf.live_eq]
  generation := by
    intro i g held h
    rw [empties.slots] at h
    split at h
    · simp at h
    · exact wf.generation i g held h
  next := empties.nextGeneration ▸ wf.next

/-- The table counts one handle less. -/
theorem Empties.live_add_one (empties : table.Empties index generation object next)
    (wf : table.WellFormed) : next.live + 1 = table.live := by
  have : 0 < table.occupied.card := Finset.card_pos.2 ⟨index, empties.mem_occupied⟩
  rw [empties.live, wf.live_eq]
  omega

/-- No handle names the slot any more, and every other handle what it named. -/
theorem Empties.resolve (empties : table.Empties index generation object next)
    (handle : Handle) :
    next.resolve handle = if handle.slotIndex = index then none else table.resolve handle := by
  by_cases hi : handle.slotIndex = index
  · rw [if_pos hi]
    exact resolve_of_objectAt_none (by rw [empties.objectAt, if_pos hi])
  · unfold HandleTable.resolve
    simp [empties.slots, hi]

/-! ## The references of a table -/

/-- A table's references to an object, counted by slots. -/
theorem count_objects (table : HandleTable) (object : ObjectRef) : table.objects.count object
    = ((Finset.range table.slots.size).filter fun i => table.objectAt i = some object).card := by
  obtain ⟨⟨slots⟩, free, nextGeneration, live⟩ := table
  simp only [objects, HandleTable.objectAt, List.getElem?_toArray, List.size_toArray]
  induction slots using List.reverseRecOn with
  | nil => simp
  | append_singleton slots slot ih =>
    have front : ∀ i ∈ Finset.range slots.length,
        ((slots ++ [slot])[i]?.bind HandleSlot.object = some object
          ↔ slots[i]?.bind HandleSlot.object = some object) := by
      intro i hi
      rw [List.getElem?_append_left (Finset.mem_range.1 hi)]
    rw [List.filterMap_append, List.count_append, ih, List.length_append, List.length_singleton,
      Finset.range_add_one, Finset.filter_insert, Finset.filter_congr front]
    simp only [List.getElem?_concat_length, Option.bind_some]
    cases h : slot.object with
    | none => simp [h]
    | some held =>
      by_cases e : held = object
      · simp [h, e]
      · simp [h, e]

theorem mem_objects_of_resolve {handle : Handle} (h : table.resolve handle = some object) :
    object ∈ table.objects := by
  have slot := Array.mem_of_getElem? (resolve_eq_some_iff.1 h)
  exact List.mem_filterMap.2 ⟨_, Array.mem_toList_iff.2 slot, rfl⟩

theorem Fills.count_objects (fills : table.Fills index object next) (other : ObjectRef) :
    next.objects.count other = table.objects.count other + if object = other then 1 else 0 := by
  rw [HandleTable.count_objects, HandleTable.count_objects]
  have reads : ((Finset.range next.slots.size).filter fun i => next.objectAt i = some other)
      = ((Finset.range table.slots.size).filter fun i => table.objectAt i = some other)
        ∪ if object = other then {index} else ∅ := by
    ext i
    have grown := fills.size
    have old : table.objectAt i = some other → i < table.slots.size := lt_size_of_objectAt
    simp only [Finset.mem_union, Finset.mem_filter, Finset.mem_range, fills.objectAt]
    by_cases hi : i = index
    · subst hi
      by_cases e : object = other <;> simp [e, fills.was_vacant, grown]
    · by_cases e : object = other <;> simp [e, hi] <;> intro ho <;>
        simp [old ho, show i < next.slots.size by have := old ho; omega]
  rw [reads, Finset.card_union_of_disjoint]
  · split <;> simp
  · split
    · simp [fills.was_vacant]
    · simp

theorem Empties.count_objects (empties : table.Empties index generation object next)
    (other : ObjectRef) :
    table.objects.count other = next.objects.count other + if object = other then 1 else 0 := by
  have held := objectAt_eq_some_iff.2 ⟨_, empties.was_occupied⟩
  rw [HandleTable.count_objects, HandleTable.count_objects]
  have reads : ((Finset.range table.slots.size).filter fun i => table.objectAt i = some other)
      = ((Finset.range next.slots.size).filter fun i => next.objectAt i = some other)
        ∪ if object = other then {index} else ∅ := by
    ext i
    simp only [Finset.mem_union, Finset.mem_filter, Finset.mem_range, empties.objectAt,
      empties.size]
    by_cases hi : i = index
    · subst hi
      by_cases e : object = other <;> simp [e, held, lt_size_of_objectAt held]
    · by_cases e : object = other <;> simp [e, hi]
  rw [reads, Finset.card_union_of_disjoint]
  · split <;> simp
  · split
    · simp [empties.objectAt]
    · simp

/-! ## The operations -/

/-- An allocation fills a vacant slot, or the one after the last. -/
theorem WellFormed.fills_of_allocate (wf : table.WellFormed) {issued : Handle}
    (h : table.allocate object = some (issued, next)) :
    ∃ index ≤ table.slots.size, issued = Handle.ofSlot index table.nextGeneration ∧
      table.Fills index object next := by
  unfold allocate at h
  split at h
  · next index rest hfree =>
    obtain ⟨rfl, rfl⟩ := Prod.mk.inj (Option.some.inj h)
    have vacant := (wf.mem_free index).1 (by simp [hfree])
    obtain ⟨hi, ho⟩ := HandleTable.mem_vacant.1 vacant
    refine ⟨index, hi.le, rfl, ⟨lt_of_lt_of_le hi wf.size_le, ho, ?_, ?_, ?_, rfl, rfl⟩⟩
    · simp only [Array.size_setIfInBounds]
      omega
    · intro i
      simp only [Array.getElem?_setIfInBounds]
      by_cases e : index = i
      · simp [← e, hi]
      · simp [e, Ne.symm e]
    · simp [hfree]
  · next hfree =>
    split at h
    · next room =>
      obtain ⟨rfl, rfl⟩ := Prod.mk.inj (Option.some.inj h)
      refine ⟨table.slots.size, le_rfl, rfl, ⟨room, ?_, ?_, ?_, ?_, rfl, rfl⟩⟩
      · simp [HandleTable.objectAt]
      · simp
      · intro i
        simp only [Array.getElem?_setIfInBounds, Array.getElem?_push, Array.size_push]
        by_cases e : i = table.slots.size
        · simp [e]
        · simp [e, Ne.symm e]
      · simp [hfree]
    · simp at h

/-- Only a table with 4096 handles refuses another one: a table with a vacant slot has it in
its free list, and one without has room for a new slot. -/
theorem WellFormed.allocate_eq_none_iff (wf : table.WellFormed) :
    table.allocate object = none ↔ table.live = maxCount := by
  have count := wf.live_add_free
  have bound := wf.size_le
  unfold allocate
  split
  · next index rest hfree =>
    rw [hfree, List.length_cons] at count
    simp only [reduceCtorEq, false_iff]
    omega
  · next hfree =>
    rw [hfree, List.length_nil] at count
    split
    · simp only [reduceCtorEq, false_iff]
      omega
    · simp only [true_iff]
      omega

theorem vacate_eq_none_iff : table.vacate index = none ↔ table.objectAt index = none := by
  unfold vacate HandleTable.objectAt
  rcases table.slots[index]? with _ | ⟨g, _ | held⟩ <;> simp

theorem empties_of_vacate (h : table.vacate index = some (object, next)) :
    ∃ generation, table.Empties index generation object next := by
  unfold vacate at h
  split at h
  · next g held hslot =>
    obtain ⟨rfl, rfl⟩ := Prod.mk.inj (Option.some.inj h)
    have hi := (Array.getElem?_eq_some_iff.1 hslot).1
    refine ⟨g, hslot, by simp, fun i => ?_, rfl, rfl, rfl⟩
    rw [Array.getElem?_setIfInBounds]
    by_cases e : index = i
    · simp [← e, hi]
    · simp [e, Ne.symm e]
  · simp at h

theorem take_eq_none_iff {handle : Handle} :
    table.take handle = none ↔ table.resolve handle = none := by
  unfold take isLive
  split
  · next h =>
    obtain ⟨object, ho⟩ := Option.isSome_iff_exists.1 h
    simp [vacate_eq_none_iff, ho, objectAt_of_resolve ho]
  · next h => simpa using h

/-- Taking the reference of a handle out empties its slot. -/
theorem empties_of_take {handle : Handle} (h : table.take handle = some (object, next)) :
    table.resolve handle = some object ∧
      ∃ generation, table.Empties handle.slotIndex generation object next := by
  unfold take isLive at h
  split at h
  · next live =>
    obtain ⟨held, ho⟩ := Option.isSome_iff_exists.1 live
    obtain ⟨generation, empties⟩ := empties_of_vacate h
    refine ⟨?_, generation, empties⟩
    have slot := resolve_eq_some_iff.1 ho
    rw [empties.was_occupied] at slot
    simp only [Option.some.injEq, HandleSlot.mk.injEq] at slot
    rw [ho, slot.2]
  · simp at h

/-- The handle names nothing any more, and every other handle what it named: no other handle
names its slot, for the slot was filled under one generation. -/
theorem resolve_of_take {handle : Handle} (h : table.take handle = some (object, next))
    (other : Handle) :
    next.resolve other = if other = handle then none else table.resolve other := by
  obtain ⟨named, generation, empties⟩ := empties_of_take h
  rw [empties.resolve]
  by_cases e : other = handle
  · simp [e]
  · rw [if_neg e]
    split
    · next slot =>
      cases ho : table.resolve other with
      | none => rfl
      | some held =>
        have first := resolve_eq_some_iff.1 named
        have second := resolve_eq_some_iff.1 ho
        rw [slot, first] at second
        simp only [Option.some.injEq, HandleSlot.mk.injEq] at second
        refine absurd ?_ e
        rw [← Handle.ofSlot_slotIndex_generation handle, second.1, ← slot,
          Handle.ofSlot_slotIndex_generation]
    · rfl

/-! ## Clearing a table -/

/-- Emptying slots one after the other leaves them vacant and the others as they were, and
the references taken out are those that are gone from the table. -/
theorem vacateAll_spec (wf : table.WellFormed) (indices : List Nat) :
    (table.vacateAll indices).2.WellFormed ∧
      (∀ i, (table.vacateAll indices).2.objectAt i
        = if i ∈ indices then none else table.objectAt i) ∧
      ∀ object, table.objects.count object
        = (table.vacateAll indices).1.count object
          + (table.vacateAll indices).2.objects.count object := by
  induction indices generalizing table with
  | nil => simpa [vacateAll] using wf
  | cons index rest ih =>
    unfold vacateAll
    split
    · next hv =>
      have vacant := vacate_eq_none_iff.1 hv
      obtain ⟨wf', objects, count⟩ := ih wf
      refine ⟨wf', fun i => ?_, count⟩
      rw [objects]
      by_cases e : i = index <;> simp [e, vacant]
    · next held next hv =>
      obtain ⟨generation, empties⟩ := empties_of_vacate hv
      obtain ⟨wf', objects, count⟩ := ih (empties.wellFormed wf)
      refine ⟨wf', fun i => ?_, fun object => ?_⟩
      · rw [objects, empties.objectAt]
        by_cases e : i = index <;> simp [e]
      · rw [empties.count_objects, count, List.count_cons]
        simp only [beq_iff_eq]
        ring

theorem WellFormed.clear (wf : table.WellFormed) : table.clear.2.WellFormed :=
  (vacateAll_spec wf _).1

theorem WellFormed.objectAt_clear (wf : table.WellFormed) (i : Nat) :
    table.clear.2.objectAt i = none := by
  unfold HandleTable.clear
  rw [(vacateAll_spec wf _).2.1]
  split
  · rfl
  · next h =>
    simp only [List.mem_range, not_lt] at h
    simp [HandleTable.objectAt, h]

/-- A cleared table names nothing. -/
theorem WellFormed.resolve_clear (wf : table.WellFormed) (handle : Handle) :
    table.clear.2.resolve handle = none :=
  resolve_of_objectAt_none (wf.objectAt_clear _)

theorem WellFormed.live_clear (wf : table.WellFormed) : table.clear.2.live = 0 := by
  rw [wf.clear.live_eq, Finset.card_eq_zero, Finset.eq_empty_iff_forall_notMem]
  intro i h
  simp [mem_occupied, wf.objectAt_clear] at h

/-- Clearing gives back exactly the references that were in the table. -/
theorem WellFormed.count_clear (wf : table.WellFormed) (object : ObjectRef) :
    table.clear.1.count object = table.objects.count object := by
  have count := (vacateAll_spec wf (List.range table.slots.size)).2.2 object
  have none : table.clear.2.objects.count object = 0 := by
    rw [HandleTable.count_objects, Finset.card_eq_zero]
    simp [wf.objectAt_clear]
  unfold HandleTable.clear at none ⊢
  omega

/-! ## As entries of a map -/

/-- The handle named nothing and names the object now; no other handle is touched. -/
structure Adds (table : HandleTable) (handle : Handle) (object : ObjectRef) (next : HandleTable) :
    Prop where
  fresh : table.resolve handle = none
  resolve : ∀ other,
    next.resolve other = if other = handle then some object else table.resolve other

/-- The handle named the object and names nothing now; no other handle is touched. -/
structure Drops (table : HandleTable) (handle : Handle) (object : ObjectRef) (next : HandleTable) :
    Prop where
  named : table.resolve handle = some object
  resolve : ∀ other, next.resolve other = if other = handle then none else table.resolve other

variable {handle : Handle}

theorem WellFormed.adds_of_allocate (wf : table.WellFormed)
    (h : table.allocate object = some (handle, next)) : table.Adds handle object next := by
  obtain ⟨index, -, rfl, fills⟩ := wf.fills_of_allocate h
  exact ⟨fills.resolve_issued wf, fills.resolve wf⟩

theorem WellFormed.of_allocate (wf : table.WellFormed)
    (h : table.allocate object = some (handle, next)) : next.WellFormed := by
  obtain ⟨index, grown, -, fills⟩ := wf.fills_of_allocate h
  exact fills.wellFormed wf grown

theorem drops_of_take (h : table.take handle = some (object, next)) :
    table.Drops handle object next :=
  ⟨(empties_of_take h).1, resolve_of_take h⟩

theorem WellFormed.of_take (wf : table.WellFormed) (h : table.take handle = some (object, next)) :
    next.WellFormed := by
  obtain ⟨-, generation, empties⟩ := empties_of_take h
  exact empties.wellFormed wf

theorem WellFormed.mem_clear (wf : table.WellFormed) :
    object ∈ table.clear.1 ↔ object ∈ table.objects := by
  rw [← List.count_pos_iff, ← List.count_pos_iff, wf.count_clear]

end MicrokernelIpc.HandleTable
