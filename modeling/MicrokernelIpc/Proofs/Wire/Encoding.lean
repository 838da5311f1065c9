import MicrokernelIpc.Wire.Encoding

/-!
# Headers and descriptors are read back

A header survives its word, and so does every descriptor whose parts fit their fields.
-/

namespace MicrokernelIpc

theorem Header.toNat_toWord (header : Header) : header.toWord.toNat
    = header.transfer.val + header.normal.val * 0x40 + header.command.toNat * 0x10000 := by
  have := header.command.toNat_lt
  simp only [toWord, transferField, normalField, commandField, BitField.place, BitField.unit,
    Nat.one_shiftLeft, Nat.reducePow, UInt32.toNat_ofNat']
  omega

theorem Header.ofWord_toWord (header : Header) : ofWord header.toWord = header := by
  have word := toNat_toWord header
  obtain ⟨command, ⟨normal, hn⟩, ⟨transfer, ht⟩⟩ := header
  have hc := command.toNat_lt
  simp only [ofWord, mk.injEq, Fin.mk.injEq, BitField.read, BitField.unit, BitField.capacity,
    transferField, normalField, commandField, Nat.one_shiftLeft, Nat.reducePow, word]
  refine ⟨UInt16.toNat_inj.1 ?_, ?_, ?_⟩
  · rw [UInt16.toNat_ofNat']
    omega
  · omega
  · omega

namespace Descriptor

/-- Every part of the descriptor fits its field. -/
def Fits : Descriptor → Prop
  | .copyHandle count => 1 ≤ count ∧ count ≤ maxHandles
  | .moveHandle count => 1 ≤ count ∧ count ≤ maxHandles
  | .callingPid => True
  | .staticBuffer bufferId size =>
    bufferIdField.fits bufferId = true ∧ staticSizeField.fits size = true
  | .mappedBuffer size _ => mappedSizeField.fits size = true

/-- The word that holds a descriptor whose parts fit. -/
def word : Descriptor → UInt32
  | .copyHandle count => handleWord copyType count
  | .moveHandle count => handleWord moveType count
  | .callingPid => handleWord callingPidType 1
  | .staticBuffer bufferId size => staticWord bufferId size
  | .mappedBuffer size permission => mappedWord size permission

variable {descriptor : Descriptor} {type count : Nat}

theorem encode_eq_ok (fits : descriptor.Fits) : descriptor.encode = .ok descriptor.word := by
  cases descriptor with
  | copyHandle => simp only [encode, checkCount, if_pos (show _ ∧ _ from fits)]; rfl
  | moveHandle => simp only [encode, checkCount, if_pos (show _ ∧ _ from fits)]; rfl
  | callingPid => rfl
  | staticBuffer => simp only [encode, checkField, fits.1, fits.2]; rfl
  | mappedBuffer => simp only [encode, checkField, show _ = true from fits]; rfl

theorem toNat_handleWord (ht : type < 4) (high : count ≤ maxHandles) :
    (handleWord type count).toNat = type * 0x10 + (count - 1) * 0x4000000 := by
  simp only [handleWord, handleTypeField, handleCountField, BitField.place, BitField.unit,
    Nat.one_shiftLeft, Nat.reducePow, UInt32.toNat_ofNat', maxHandles] at *
  omega

/-- The fields of a word that was made of a type and a count. -/
theorem read_handleWord (ht : type < 4) (low : 1 ≤ count) (high : count ≤ maxHandles) :
    classField.read (handleWord type count) = 0 ∧
      handleTypeField.read (handleWord type count) = type ∧
      handleCountField.read (handleWord type count) + 1 = count := by
  have word := toNat_handleWord ht high
  simp only [BitField.read, classField, handleTypeField, handleCountField, BitField.unit,
    BitField.capacity, Nat.one_shiftLeft, Nat.reducePow, word, maxHandles] at *
  omega

theorem toNat_staticWord {bufferId size : Nat} (slot : bufferId < 0x10) (fits : size < 0x40000) :
    (staticWord bufferId size).toNat = 2 + bufferId * 0x400 + size * 0x4000 := by
  simp only [staticWord, classField, bufferIdField, staticSizeField, staticClass, BitField.place,
    BitField.unit, Nat.one_shiftLeft, Nat.reducePow, UInt32.toNat_ofNat']
  omega

/-- The fields of a word that was made of a buffer slot and a size. -/
theorem read_staticWord {bufferId size : Nat} (slot : bufferId < 0x10) (fits : size < 0x40000) :
    classField.read (staticWord bufferId size) = staticClass ∧
      mappedField.read (staticWord bufferId size) = 0 ∧
      bufferIdField.read (staticWord bufferId size) = bufferId ∧
      staticSizeField.read (staticWord bufferId size) = size := by
  have word := toNat_staticWord slot fits
  simp only [BitField.read, classField, mappedField, bufferIdField, staticSizeField, staticClass,
    BitField.unit, BitField.capacity, Nat.one_shiftLeft, Nat.reducePow, word]
  omega

theorem toNat_mappedWord {size : Nat} (permission : BufferPermission) (fits : size < 0x10000000) :
    (mappedWord size permission).toNat = permission.number * 2 + 8 + size * 0x10 := by
  have low : permission.number < 4 := by cases permission <;> decide
  simp only [mappedWord, permissionField, mappedField, mappedSizeField, BitField.place,
    BitField.unit, Nat.one_shiftLeft, Nat.reducePow, UInt32.toNat_ofNat']
  omega

/-- The fields of a word that was made of a size and a permission. -/
theorem read_mappedWord {size : Nat} (permission : BufferPermission) (fits : size < 0x10000000) :
    classField.read (mappedWord size permission) ≠ 0 ∧
      mappedField.read (mappedWord size permission) = 1 ∧
      permissionField.read (mappedWord size permission) = permission.number ∧
      mappedSizeField.read (mappedWord size permission) = size := by
  have low : permission.number < 4 := by cases permission <;> decide
  have word := toNat_mappedWord permission fits
  simp only [BitField.read, classField, mappedField, permissionField, mappedSizeField,
    BitField.unit, BitField.capacity, Nat.one_shiftLeft, Nat.reducePow, word]
  omega

theorem decode_word (fits : descriptor.Fits) : decode descriptor.word = .ok descriptor := by
  cases descriptor with
  | copyHandle count =>
    obtain ⟨handles, typed, counted⟩ := read_handleWord (show copyType < 4 by decide) fits.1 fits.2
    rw [word, decode, if_pos handles, decodeHandle, typed, counted]
    rfl
  | moveHandle count =>
    obtain ⟨handles, typed, counted⟩ := read_handleWord (show moveType < 4 by decide) fits.1 fits.2
    rw [word, decode, if_pos handles, decodeHandle, typed, counted]
    rfl
  | callingPid => rfl
  | staticBuffer bufferId size =>
    obtain ⟨slot, fits⟩ := fits
    obtain ⟨static, unmapped, slot, size⟩ :=
      read_staticWord (BitField.fits_iff.1 slot) (BitField.fits_iff.1 fits)
    have other : staticClass ≠ 0 := by decide
    simp [word, decode, static, other, unmapped, slot, size]
  | mappedBuffer size permission =>
    obtain ⟨other, mapped, permitted, size⟩ :=
      read_mappedWord permission (BitField.fits_iff.1 fits)
    simp only [word, decode, if_neg other, if_pos mapped, decodeMapped, permitted, size,
      BufferPermission.ofNumber?_number]

end Descriptor

end MicrokernelIpc
