import MicrokernelIpc.BitField

/-!
# Fields and masks

A field is read and placed in arithmetic. Seen as bits it is a mask: what the mask leaves of a word
is what the field holds, in its place, and clearing the mask takes just that from the word.
-/

namespace MicrokernelIpc.BitField

/-- The word with ones in the field and zeros elsewhere. -/
def mask (field : BitField) : UInt32 := UInt32.ofNat ((field.capacity - 1) <<< field.low)

/-- The word with zeros in the field. -/
def clear (field : BitField) (word : UInt32) : UInt32 := word &&& ~~~field.mask

variable {field : BitField}

/-- The mask of a field that lies within a word. -/
theorem toNat_mask (inside : field.low + field.width ≤ 32) :
    field.mask.toNat = (field.capacity - 1) <<< field.low := by
  refine UInt32.toNat_ofNat_of_lt ?_
  have positive := Nat.two_pow_pos field.low
  have words : 0 < UInt32.size := by decide
  have top : 2 ^ field.width * 2 ^ field.low ≤ UInt32.size := by
    rw [← Nat.pow_add, Nat.add_comm]
    exact Nat.pow_le_pow_right (by decide) inside
  rw [capacity, Nat.one_shiftLeft, Nat.shiftLeft_eq, Nat.sub_mul]
  omega

/-- The mask leaves of a word what the field holds, in its place. -/
theorem toNat_and_mask (inside : field.low + field.width ≤ 32) (word : UInt32) :
    (word &&& field.mask).toNat = field.place (field.read word) := by
  have bits : word.toNat &&& (field.capacity - 1) <<< field.low
      = (word.toNat >>> field.low &&& (field.capacity - 1)) <<< field.low := by
    apply Nat.eq_of_testBit_eq
    intro i
    simp only [Nat.testBit_and, Nat.testBit_shiftLeft, Nat.testBit_shiftRight]
    by_cases low : field.low ≤ i
    · simp [low]
    · simp [low]
  rw [UInt32.toNat_and, toNat_mask inside, bits, place, read, unit, capacity, Nat.one_shiftLeft,
    Nat.one_shiftLeft, Nat.and_two_pow_sub_one_eq_mod, Nat.shiftLeft_eq, Nat.shiftRight_eq_div_pow]

/-- A word is cut in two by the bits of a mask. -/
theorem toNat_and_not_add (word mask : UInt32) :
    (word &&& ~~~mask).toNat + (word &&& mask).toNat = word.toNat := by
  have apart : word.toBitVec &&& ~~~mask.toBitVec &&& (word.toBitVec &&& mask.toBitVec) = 0#32 := by
    ext i inside
    cases mask.toBitVec[i] <;> simp_all
  have whole : word.toBitVec &&& ~~~mask.toBitVec ||| word.toBitVec &&& mask.toBitVec
      = word.toBitVec := by
    ext i inside
    cases h : mask.toBitVec[i] <;> simp [h]
  have sum := BitVec.toNat_add_of_and_eq_zero apart
  rw [BitVec.add_eq_or_of_and_eq_zero _ _ apart, whole] at sum
  exact sum.symm

/-- What is cleared from a word is what the field adds to it. -/
theorem toNat_clear (field : BitField) (inside : field.low + field.width ≤ 32) (word : UInt32) :
    (field.clear word).toNat + field.place (field.read word) = word.toNat := by
  rw [← toNat_and_mask inside]
  exact toNat_and_not_add word field.mask

/-- The bits of a field are those of a value exactly if the field holds the value. -/
theorem and_mask_eq_iff (field : BitField) (inside : field.low + field.width ≤ 32)
    {word bits : UInt32} {value : Nat} (placed : bits.toNat = field.place value) :
    word &&& field.mask = bits ↔ field.read word = value := by
  rw [← UInt32.toNat_inj, toNat_and_mask inside, placed]
  refine ⟨fun same => Nat.eq_of_mul_eq_mul_right ?_ same, congrArg _⟩
  rw [unit, Nat.one_shiftLeft]
  exact Nat.two_pow_pos _

end MicrokernelIpc.BitField
