import Std.Data.ExtTreeMap

/-!
# Rosters

A roster keeps values under keys that it gives out itself. A key is given out once, so the
key of a value that was removed finds nothing. Keys of different kinds of values are
different types.
-/

namespace MicrokernelIpc

/-- The place of a value in a roster. -/
structure Key (α : Type) where
  index : Nat

instance {α : Type} : DecidableEq (Key α)
  | ⟨a⟩, ⟨b⟩ => if h : a = b then isTrue (h ▸ rfl) else isFalse fun e => h (Key.mk.inj e)

/-- Values under keys. No value has a key that was not given out yet. -/
structure Roster (α : Type) where
  items : Std.ExtTreeMap Nat α
  next : Nat
  fresh : ∀ index, next ≤ index → items[index]? = none

namespace Roster

variable {α : Type}

/-- The roster without values. -/
def empty : Roster α := ⟨∅, 0, by simp⟩

/-- The value under a key. -/
def get? (roster : Roster α) (key : Key α) : Option α := roster.items[key.index]?

/-- Put a value under a key of its own. -/
def add (roster : Roster α) (value : α) : Key α × Roster α :=
  (⟨roster.next⟩,
    { items := roster.items.insert roster.next value
      next := roster.next + 1
      fresh := fun index h => by
        have := roster.fresh index (by omega)
        simp [Std.ExtTreeMap.getElem?_insert, this, show roster.next ≠ index by omega] })

/-- Replace the value under a key, if there is one. -/
def modify (roster : Roster α) (key : Key α) (f : α → α) : Roster α where
  items := roster.items.modify key.index f
  next := roster.next
  fresh := fun index h => by
    have := roster.fresh index h
    by_cases e : key.index = index
    · subst e
      simpa using this
    · simp [Std.ExtTreeMap.getElem?_modify, e, this]

/-- Take the value under a key out. -/
def remove (roster : Roster α) (key : Key α) : Roster α where
  items := roster.items.erase key.index
  next := roster.next
  fresh := fun index h => by
    simp [Std.ExtTreeMap.getElem?_erase, roster.fresh index h]

theorem get?_fresh (roster : Roster α) {key : Key α} (h : roster.next ≤ key.index) :
    roster.get? key = none :=
  roster.fresh key.index h

theorem get?_modify (roster : Roster α) (key other : Key α) (f : α → α) :
    (roster.modify key f).get? other
      = if key = other then (roster.get? other).map f else roster.get? other := by
  obtain ⟨k⟩ := key
  obtain ⟨o⟩ := other
  by_cases h : k = o
  · subst h
    simp [get?, modify]
  · simp [get?, modify, Std.ExtTreeMap.getElem?_modify, h]

theorem get?_remove (roster : Roster α) (key other : Key α) :
    (roster.remove key).get? other = if key = other then none else roster.get? other := by
  obtain ⟨k⟩ := key
  obtain ⟨o⟩ := other
  simp [get?, remove, Std.ExtTreeMap.getElem?_erase]

theorem get?_add (roster : Roster α) (value : α) (other : Key α) :
    (roster.add value).2.get? other
      = if (roster.add value).1 = other then some value else roster.get? other := by
  obtain ⟨o⟩ := other
  simp [get?, add, Std.ExtTreeMap.getElem?_insert]

/-- Rosters that give out the same keys and hold the same values are the same. -/
theorem ext_get? {roster other : Roster α} (next : roster.next = other.next)
    (get : ∀ key, roster.get? key = other.get? key) : roster = other := by
  obtain ⟨items, _, _⟩ := roster
  obtain ⟨others, _, _⟩ := other
  obtain rfl : items = others := Std.ExtTreeMap.ext_getElem? fun index => get ⟨index⟩
  obtain rfl := next
  rfl

end Roster

end MicrokernelIpc
