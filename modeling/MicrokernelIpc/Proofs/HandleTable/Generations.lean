import Mathlib.Logic.Function.Iterate
import MicrokernelIpc.Proofs.HandleTable.Operations

/-!
# Generations

A table numbers its allocations from 1 to 32767 and then from 1 again, so the generation of an
allocation says how many there were before it, up to a multiple of 32767. Nothing else moves the
numbering on, and only an allocation makes a handle name an object.
-/

namespace MicrokernelIpc.HandleTable

theorem followingGeneration_eq {generation : Nat} (high : generation ≤ maxGeneration) :
    followingGeneration generation = generation % maxGeneration + 1 := by
  unfold followingGeneration
  split
  · next last =>
    rw [le_antisymm high last, Nat.mod_self]
  · next further => rw [Nat.mod_eq_of_lt (Nat.not_le.1 further)]

/-- The numbering after some allocations. -/
theorem iterate_followingGeneration {generation : Nat} (low : 1 ≤ generation)
    (high : generation ≤ maxGeneration) (count : Nat) :
    followingGeneration^[count] generation = (generation - 1 + count) % maxGeneration + 1 := by
  induction count with
  | zero =>
    simp only [Function.iterate_zero, id_eq, maxGeneration, Handle.generationCount] at *
    omega
  | succ count ih =>
    -- generations are numbered from 1, so it is one less that is counted round
    have bound : (generation - 1 + count) % maxGeneration < maxGeneration :=
      Nat.mod_lt _ (by decide)
    rw [Function.iterate_succ_apply', ih, followingGeneration_eq (by omega)]
    simp only [maxGeneration, Handle.generationCount]
    omega

/-- A generation comes round again after 32767 allocations and not before. -/
theorem iterate_followingGeneration_eq_self_iff {generation count : Nat} (low : 1 ≤ generation)
    (high : generation ≤ maxGeneration) :
    followingGeneration^[count] generation = generation ↔ maxGeneration ∣ count := by
  rw [iterate_followingGeneration low high]
  simp only [maxGeneration, Handle.generationCount] at *
  omega

/-! ## From one table to a later one -/

/-- The handles that were issued on the way to the later table have the generations that
followed, and only they name objects beside those that did before. -/
structure Advances (table : HandleTable) (issued : List Handle) (later : HandleTable) : Prop where
  nextGeneration :
    later.nextGeneration = followingGeneration^[issued.length] table.nextGeneration
  generations : ∀ (i : Nat) (h : i < issued.length),
    issued[i].generation = followingGeneration^[i] table.nextGeneration
  names : ∀ handle, later.isLive handle → table.isLive handle ∨ handle ∈ issued

variable {table next later : HandleTable} {issued more : List Handle} {handle : Handle}
variable {object : ObjectRef}

theorem advances_of_names (same : later.nextGeneration = table.nextGeneration)
    (names : ∀ handle, later.isLive handle → table.isLive handle) : table.Advances [] later where
  nextGeneration := same
  generations := by simp
  names := fun handle live => .inl (names handle live)

theorem Advances.refl (table : HandleTable) : table.Advances [] table :=
  advances_of_names rfl fun _ live => live

theorem Advances.trans (first : table.Advances issued next) (second : next.Advances more later) :
    table.Advances (issued ++ more) later where
  nextGeneration := by
    rw [second.nextGeneration, first.nextGeneration, List.length_append, Nat.add_comm,
      Function.iterate_add_apply]
  generations := by
    intro i h
    rw [List.getElem_append]
    split
    · next early => exact first.generations i early
    · next late =>
      have inside : i - issued.length < more.length := by
        rw [List.length_append] at h
        omega
      rw [second.generations _ inside, first.nextGeneration, ← Function.iterate_add_apply,
        Nat.sub_add_cancel (Nat.not_lt.1 late)]
  names := by
    intro handle live
    rcases second.names handle live with before | fresh
    · rcases first.names handle before with earlier | fresh
      · exact .inl earlier
      · exact .inr (List.mem_append_left _ fresh)
    · exact .inr (List.mem_append_right _ fresh)

theorem WellFormed.advances_of_allocate (wf : table.WellFormed)
    (h : table.allocate object = some (handle, next)) : table.Advances [handle] next := by
  have adds := wf.adds_of_allocate h
  obtain ⟨index, -, rfl, fills⟩ := wf.fills_of_allocate h
  refine ⟨fills.nextGeneration, fun i lt => ?_, fun other live => ?_⟩
  · obtain rfl : i = 0 := by simpa using lt
    exact Handle.generation_ofSlot fills.index_lt wf.nextGeneration_lt
  · rw [isLive, adds.resolve] at live
    split at live
    · next same => exact .inr (List.mem_singleton.2 same)
    · exact .inl live

theorem advances_of_take (h : table.take handle = some (object, next)) :
    table.Advances [] next := by
  obtain ⟨-, generation, empties⟩ := empties_of_take h
  refine advances_of_names empties.nextGeneration fun other live => ?_
  rw [isLive, (drops_of_take h).resolve] at live
  split at live
  · cases live
  · exact live

theorem nextGeneration_vacateAll (indices : List Nat) :
    (table.vacateAll indices).2.nextGeneration = table.nextGeneration := by
  induction indices generalizing table with
  | nil => rfl
  | cons index rest ih =>
    unfold vacateAll
    split
    · exact ih
    · next vacated =>
      obtain ⟨generation, empties⟩ := empties_of_vacate vacated
      exact ih.trans empties.nextGeneration

theorem WellFormed.advances_of_clear (wf : table.WellFormed) : table.Advances [] table.clear.2 := by
  refine advances_of_names (nextGeneration_vacateAll _) fun other live => ?_
  rw [isLive, wf.resolve_clear] at live
  cases live

/-- A handle that was issued first and names nothing any more is not issued again as long as
fewer than 32767 others are. -/
theorem Advances.notMem_of_few {first second : List Handle} {opened closed : HandleTable}
    (wf : table.WellFormed) (issue : table.Advances [handle] opened)
    (before : opened.Advances first closed) (after : closed.Advances second later)
    (few : first.length + second.length < maxGeneration) : handle ∉ second := by
  intro mem
  obtain ⟨i, inside, same⟩ := List.mem_iff_getElem.1 mem
  have generation := issue.generations 0 (by simp)
  have again := after.generations i inside
  rw [before.nextGeneration, issue.nextGeneration, ← Function.iterate_add_apply,
    ← Function.iterate_add_apply, same] at again
  -- the number of allocations between the two is a multiple of the round, and less than one
  have around := again.symm.trans generation
  rw [Function.iterate_zero, id_eq,
    iterate_followingGeneration_eq_self_iff wf.next.1 wf.next.2] at around
  have := Nat.le_of_dvd (by simp) around
  simp only [List.length_singleton] at this
  omega

end MicrokernelIpc.HandleTable
