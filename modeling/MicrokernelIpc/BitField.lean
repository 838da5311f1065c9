/-!
# Bit fields of a word

A packed word is a sum of fields, each a run of bits counted from the least significant
one. Fields are read and placed in `Nat` arithmetic, so that facts about packed words are
linear arithmetic over the word's value.
-/

namespace MicrokernelIpc

/-- A run of `width` bits from bit `low` on. -/
structure BitField where
  low : Nat
  width : Nat

namespace BitField

/-- What the field's lowest bit counts for in the word. -/
def unit (field : BitField) : Nat := 1 <<< field.low

/-- How many values the field can hold. -/
def capacity (field : BitField) : Nat := 1 <<< field.width

/-- The number that the field holds in a word. -/
def read (field : BitField) (word : UInt32) : Nat := word.toNat / field.unit % field.capacity

/-- What a field holding `value` adds to the word. -/
def place (field : BitField) (value : Nat) : Nat := value * field.unit

/-- Whether a value can be held in the field. -/
def fits (field : BitField) (value : Nat) : Bool := value < field.capacity

theorem capacity_pos (field : BitField) : 0 < field.capacity := by
  rw [capacity, Nat.one_shiftLeft]
  exact Nat.two_pow_pos _

theorem fits_iff {field : BitField} {value : Nat} :
    field.fits value = true ↔ value < field.capacity := by
  simp [fits]

theorem read_lt (field : BitField) (word : UInt32) : field.read word < field.capacity :=
  Nat.mod_lt _ field.capacity_pos

theorem read_fits (field : BitField) (word : UInt32) : field.fits (field.read word) = true :=
  fits_iff.2 (read_lt field word)

end BitField

end MicrokernelIpc
