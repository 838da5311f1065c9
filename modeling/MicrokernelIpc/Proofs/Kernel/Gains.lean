import Mathlib.Data.Multiset.Count
import MicrokernelIpc.Proofs.Kernel.Changes

/-!
# References that are taken for a while

While a command is on its way references are taken that may all be let go again. Between two
worlds the arenas have then gained a number of references to each object, and once they have
gained none they are the same again, as long as no count passed its 32 bits.
-/

namespace MicrokernelIpc

namespace World

/-- The arenas hold the same objects, with the references that were gained counted on top. -/
structure Gained (gains : Multiset ObjectRef) (before after : World) : Prop where
  next : after.arenas.next = before.arenas.next
  nextId : ∀ key, (after.arenas.get? key).map Arena.nextId
    = (before.arenas.get? key).map Arena.nextId
  entries : ∀ ref, after.stored? ref = (before.stored? ref).map fun entry =>
    { entry with refs := entry.refs + UInt32.ofNat (gains.count ref) }

/-- Every object has a reference, and of each so many more can be counted. -/
def Roomy (room : Nat) (w : World) : Prop :=
  ∀ ref entry, w.stored? ref = some entry →
    1 ≤ entry.refs.toNat ∧ entry.refs.toNat + room < 2 ^ 32

/-- Every object has a reference, and those that are gained can be counted on top. -/
def Bears (gains : Multiset ObjectRef) (w : World) : Prop :=
  ∀ ref entry, w.stored? ref = some entry →
    1 ≤ entry.refs.toNat ∧ entry.refs.toNat + gains.count ref < 2 ^ 32

variable {gains more : Multiset ObjectRef} {before w w' : World} {object : ObjectRef} {room : Nat}

theorem Gained.refl (w : World) : Gained 0 w w := by
  refine ⟨rfl, fun _ => rfl, fun ref => ?_⟩
  cases w.stored? ref <;> simp

theorem Gained.of_arenas (gained : Gained gains before w) (same : w'.arenas = w.arenas) :
    Gained gains before w' := by
  refine ⟨same ▸ gained.next, fun key => ?_, fun ref => ?_⟩
  · rw [same, gained.nextId]
  · have read : w'.stored? ref = w.stored? ref := by simp [stored?, same]
    rw [read, gained.entries]

theorem Gained.of_before (gained : Gained gains before w) (same : w'.arenas = before.arenas) :
    Gained gains w' w := by
  refine ⟨same ▸ gained.next, fun key => ?_, fun ref => ?_⟩
  · rw [same, gained.nextId]
  · have read : w'.stored? ref = before.stored? ref := by simp [stored?, same]
    rw [read, gained.entries]

/-- Arenas that gained nothing are the same. -/
theorem Gained.arenas_eq (gained : Gained 0 before w) : w.arenas = before.arenas := by
  apply Roster.ext_get? gained.next
  intro key
  have ids := gained.nextId key
  cases old : before.arenas.get? key with
  | none => simpa [old] using ids
  | some arena =>
    obtain ⟨next, new, same⟩ := Option.map_eq_some_iff.1 (ids.trans (by rw [old]; rfl))
    have entries : next.entries = arena.entries := by
      apply Std.ExtTreeMap.ext_getElem?
      intro raw
      have := gained.entries ⟨key, ⟨raw⟩⟩
      simp only [stored?, new, old, Option.bind_some, Multiset.count_zero] at this
      simpa [Arena.find?] using this
    obtain ⟨_, _⟩ := next
    obtain rfl := same
    obtain rfl := entries
    exact new

theorem nextId_setArena {a : Key Arena} {arena next : Arena} (there : w.arenas.get? a = some arena)
    (same : next.nextId = arena.nextId) (key : Key Arena) :
    ((w.setArena a next).arenas.get? key).map Arena.nextId
      = (w.arenas.get? key).map Arena.nextId := by
  simp only [setArena, Roster.get?_modify]
  split
  · next e =>
    subst e
    simp [there, same]
  · rfl

theorem gained_of_retain? (h : w.retain? object = some w') : Gained {object} w w' := by
  have entries := stored?_of_retain? h
  obtain ⟨arena, next, there, retained, rfl⟩ := exists_of_retain? h
  refine ⟨rfl, nextId_setArena there (Arena.nextId_of_retain retained), fun ref => ?_⟩
  rw [entries, Multiset.count_singleton]
  split
  · next e => simp [e]
  · cases w.stored? ref <;> simp

theorem Gained.trans (first : Gained gains before w) (second : Gained more w w') :
    Gained (more + gains) before w' := by
  refine ⟨second.next.trans first.next, fun key => (second.nextId key).trans (first.nextId key),
    fun ref => ?_⟩
  rw [second.entries, first.entries, Option.map_map, Multiset.count_add, Nat.add_comm,
    UInt32.ofNat_add]
  congr 1
  funext entry
  simp [UInt32.add_assoc]

theorem Gained.retain (gained : Gained gains before w) (h : w.retain? object = some w') :
    Gained (object ::ₘ gains) before w' := by
  rw [← Multiset.singleton_add]
  exact gained.trans (gained_of_retain? h)

/-- What both worlds gain makes no difference between them. -/
theorem Gained.of_both {next : World} (gained : Gained gains before w)
    (first : Gained more before next) (second : Gained more w w') : Gained gains next w' := by
  refine ⟨second.next.trans (gained.next.trans first.next.symm), fun key => ?_, fun ref => ?_⟩
  · rw [second.nextId, gained.nextId, first.nextId]
  · rw [second.entries, gained.entries, first.entries, Option.map_map, Option.map_map]
    congr 1
    funext entry
    simp [UInt32.add_assoc, UInt32.add_comm (UInt32.ofNat (gains.count ref))]

theorem Gained.exists_retain? (gained : Gained gains before w) (h : w.retain? object = some w') :
    ∃ next, before.retain? object = some next := by
  rw [← Option.ne_none_iff_exists']
  intro none
  obtain ⟨refs, there⟩ := isSome_refs?_of_retain? h
  rw [retain?_eq_none_iff, refs?_eq_map, Option.map_eq_none_iff] at none
  simp [refs?_eq_map, gained.entries object, none] at there

/-- A reference that was gained is let go again. It is not the last one. -/
theorem Gained.release (gained : Gained (object ::ₘ gains) before w)
    (bears : before.Bears gains) (h : w.release? object = some w') : Gained gains before w' := by
  have entries := stored?_of_release? h
  obtain ⟨arena, there, rfl⟩ := exists_of_release? h
  refine ⟨gained.next, fun key => ?_, fun ref => ?_⟩
  · rw [nextId_setArena there (arena.nextId_release _), gained.nextId]
  · rw [entries]
    have old := gained.entries ref
    rw [Multiset.count_cons] at old
    split
    · next e =>
      subst e
      rw [if_pos rfl] at old
      rw [old]
      cases found : before.stored? ref with
      | none => rfl
      | some entry =>
        obtain ⟨low, high⟩ := bears ref entry found
        have more : ¬ entry.refs + UInt32.ofNat (gains.count ref + 1) = 1 := by
          intro last
          have := congrArg UInt32.toNat last
          simp only [UInt32.toNat_add, UInt32.toNat_ofNat', UInt32.toNat_one] at this
          omega
        simp only [Option.map_some, Option.bind_some, if_neg more]
        simp [UInt32.ofNat_add, ← UInt32.add_assoc]
    · next e =>
      rwa [if_neg e] at old

/-- What was gained takes up its part of the room. -/
theorem Gained.roomy (gained : Gained gains before w) (roomy : before.Roomy (gains.card + room)) :
    w.Roomy room := by
  intro ref entry found
  rw [gained.entries] at found
  obtain ⟨old, there, rfl⟩ := Option.map_eq_some_iff.1 found
  obtain ⟨low, high⟩ := roomy ref old there
  have := gains.count_le_card ref
  simp only [UInt32.toNat_add, UInt32.toNat_ofNat']
  omega

theorem Roomy.of_arenas (roomy : w.Roomy room) (same : w'.arenas = w.arenas) : w'.Roomy room := by
  intro ref entry found
  apply roomy ref entry
  rwa [stored?, ← same]

theorem Roomy.bears (roomy : w.Roomy room) (le : gains.card ≤ room) : w.Bears gains := by
  intro ref entry found
  obtain ⟨low, high⟩ := roomy ref entry found
  have := gains.count_le_card ref
  omega

theorem Bears.mono (bears : w.Bears gains) (le : more ≤ gains) : w.Bears more := by
  intro ref entry found
  obtain ⟨low, high⟩ := bears ref entry found
  have := Multiset.count_le_of_le ref le
  omega

theorem Roomy.mono {less : Nat} (roomy : w.Roomy room) (le : less ≤ room) : w.Roomy less := by
  intro ref entry found
  obtain ⟨low, high⟩ := roomy ref entry found
  omega

end World

end MicrokernelIpc
