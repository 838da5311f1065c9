import MicrokernelIpc.Proofs.HandleTable.Operations

/-!
# Handles that are issued and taken out in order

Handles that were issued from a table on can be taken out again in the order in which they were
issued. With the last of them gone every handle names what it named in the beginning.
-/

namespace MicrokernelIpc.HandleTable

/-- The table has got the handles on top, each for its object. None of them named anything, and
every other handle names what it named. -/
structure Extends (base : HandleTable) (issued : List (Handle × ObjectRef))
    (table : HandleTable) : Prop where
  wellFormed : table.WellFormed
  distinct : (issued.map Prod.fst).Nodup
  fresh : ∀ entry ∈ issued, base.resolve entry.1 = none
  named : ∀ entry ∈ issued, table.resolve entry.1 = some entry.2
  others : ∀ handle, handle ∉ issued.map Prod.fst → table.resolve handle = base.resolve handle
  live : table.live = base.live + issued.length

variable {base table next : HandleTable} {issued : List (Handle × ObjectRef)} {handle : Handle}
variable {object taken : ObjectRef}

theorem WellFormed.extends (wf : table.WellFormed) : table.Extends [] table where
  wellFormed := wf
  distinct := List.nodup_nil
  fresh := by simp
  named := by simp
  others := by simp
  live := rfl

theorem Extends.length_le (extended : base.Extends issued table) : issued.length ≤ maxCount := by
  have := extended.wellFormed.live_le
  have := extended.live
  omega

theorem Extends.notMem_of_fresh (extended : base.Extends issued table)
    (fresh : table.resolve handle = none) : handle ∉ issued.map Prod.fst := by
  intro mem
  obtain ⟨entry, inside, rfl⟩ := List.mem_map.1 mem
  simp [extended.named entry inside] at fresh

theorem Extends.allocate (extended : base.Extends issued table)
    (h : table.allocate object = some (handle, next)) :
    base.Extends (issued ++ [(handle, object)]) next := by
  have adds := extended.wellFormed.adds_of_allocate h
  have new := extended.notMem_of_fresh adds.fresh
  obtain ⟨index, -, -, fills⟩ := extended.wellFormed.fills_of_allocate h
  refine ⟨extended.wellFormed.of_allocate h, ?_, ?_, ?_, fun other absent => ?_, ?_⟩
  · rw [List.map_append, List.nodup_append]
    refine ⟨extended.distinct, by simp, ?_⟩
    rintro other mem _ last rfl
    obtain rfl : other = handle := by simpa using last
    exact new mem
  · intro entry mem
    rcases List.mem_append.1 mem with old | last
    · exact extended.fresh entry old
    · obtain rfl : entry = (handle, object) := by simpa using last
      rw [← extended.others handle new, adds.fresh]
  · intro entry mem
    rw [adds.resolve]
    rcases List.mem_append.1 mem with old | last
    · have : entry.1 ≠ handle := fun e => new (List.mem_map.2 ⟨entry, old, e⟩)
      rw [if_neg this, extended.named entry old]
    · obtain rfl : entry = (handle, object) := by simpa using last
      simp
  · rw [List.map_append, List.mem_append, not_or] at absent
    have : other ≠ handle := by simpa using absent.2
    rw [adds.resolve, if_neg this, extended.others other absent.1]
  · rw [fills.live, extended.live, List.length_append, List.length_singleton, Nat.add_assoc]

/-- A handle names what it named, or what it was issued for. -/
theorem Extends.resolve_eq_some_iff (extended : base.Extends issued table) :
    table.resolve handle = some object
      ↔ base.resolve handle = some object ∨ (handle, object) ∈ issued := by
  by_cases mem : handle ∈ issued.map Prod.fst
  · obtain ⟨⟨_, named⟩, inside, rfl⟩ := List.mem_map.1 mem
    rw [extended.named _ inside, extended.fresh _ inside]
    constructor
    · rintro ⟨rfl⟩
      exact .inr inside
    · rintro (old | other)
      · cases old
      · exact (extended.named _ inside).symm.trans (extended.named _ other)
  · rw [extended.others handle mem, or_iff_left]
    exact fun inside => mem (List.mem_map_of_mem inside)

/-- No handle that was issued is zero or a pseudo-handle. -/
theorem Extends.real_of_mem (extended : base.Extends issued table)
    (mem : (handle, object) ∈ issued) : handle ≠ Handle.invalid ∧ handle.isPseudo = false :=
  extended.wellFormed.of_isLive (by simp [isLive, extended.named _ mem])

/-- The handle issued first is taken out first. -/
theorem Extends.take (extended : base.Extends ((handle, object) :: issued) table)
    (h : table.take handle = some (taken, next)) : taken = object ∧ base.Extends issued next := by
  have drops := drops_of_take h
  obtain ⟨-, generation, empties⟩ := empties_of_take h
  have distinct := List.nodup_cons.1 extended.distinct
  refine ⟨?_, extended.wellFormed.of_take h, distinct.2, ?_, ?_, fun other absent => ?_, ?_⟩
  · exact Option.some.inj (drops.named.symm.trans (extended.named (handle, object) (by simp)))
  · intro entry mem
    exact extended.fresh entry (by simp [mem])
  · intro entry mem
    have : entry.1 ≠ handle := fun e => distinct.1 (List.mem_map.2 ⟨entry, mem, e⟩)
    rw [drops.resolve, if_neg this, extended.named entry (by simp [mem])]
  · rw [drops.resolve]
    split
    · next e =>
      subst e
      exact (extended.fresh (other, object) (by simp)).symm
    · next e => exact extended.others other (by simpa [e] using absent)
  · have := empties.live_add_one extended.wellFormed
    have := extended.live
    simp only [List.length_cons] at this
    omega

theorem Extends.take_ne_none (extended : base.Extends ((handle, object) :: issued) table) :
    table.take handle ≠ none := by
  intro none
  have := extended.named (handle, object) (by simp)
  simp [take_eq_none_iff.1 none] at this

/-! ## Taken out one after the other -/

/-- The handles are taken out one after the other, each with its object. -/
inductive Sheds : HandleTable → List (Handle × ObjectRef) → HandleTable → Prop
  | nil {table : HandleTable} : Sheds table [] table
  | cons {table next last : HandleTable} {handle : Handle} {object : ObjectRef}
      {rest : List (Handle × ObjectRef)} (first : table.take handle = some (object, next))
      (after : Sheds next rest last) : Sheds table ((handle, object) :: rest) last

variable {last : HandleTable} {shed : List (Handle × ObjectRef)}

theorem Sheds.concat (sheds : table.Sheds shed last) (h : last.take handle = some (object, next)) :
    table.Sheds (shed ++ [(handle, object)]) next := by
  induction sheds with
  | nil => exact .cons h .nil
  | cons first _ ih => exact .cons first (ih h)

theorem Sheds.resolve (sheds : table.Sheds shed last) (handle : Handle) : last.resolve handle
    = if handle ∈ shed.map Prod.fst then none else table.resolve handle := by
  induction sheds with
  | nil => simp
  | @cons _ _ _ taken _ _ first _ ih =>
    simp only [ih, (drops_of_take first).resolve, List.map_cons, List.mem_cons]
    by_cases e : handle = taken <;> simp only [e, true_or, false_or, if_true, if_false, ite_self]

theorem Sheds.live (sheds : table.Sheds shed last) (wf : table.WellFormed) :
    last.live + shed.length = table.live := by
  induction sheds with
  | nil => rfl
  | cons first _ ih =>
    obtain ⟨-, generation, empties⟩ := empties_of_take first
    have := empties.live_add_one wf
    have := ih (wf.of_take first)
    rw [List.length_cons]
    omega

end MicrokernelIpc.HandleTable
