import MicrokernelIpc.Proofs.Wire.Encoding
import MicrokernelIpc.Proofs.Wire.Masks

/-!
# Which words are descriptors, and what is left of them

A word is a descriptor if its low bits name a class and the class takes its other bits. Reading and
writing again loses the bits that carry nothing in that class and no other; writing and reading
again loses nothing. A descriptor is refused a word only for a part that does not fit its field.
The same is said of headers, whose fields take every value.
-/

namespace MicrokernelIpc

theorem BufferPermission.ofNumber?_eq_some_iff {number : Nat} {permission : BufferPermission} :
    ofNumber? number = some permission ↔ number = permission.number := by
  refine ⟨fun found => ?_, fun same => same ▸ ofNumber?_number permission⟩
  unfold ofNumber? at found
  split at found <;> cases found <;> rfl

theorem BufferPermission.exists_number_iff {number : Nat} :
    (∃ permission : BufferPermission, number = permission.number) ↔ 1 ≤ number ∧ number ≤ 3 := by
  constructor
  · rintro ⟨permission, rfl⟩
    cases permission <;> decide
  · rintro ⟨low, high⟩
    obtain rfl | rfl | rfl : number = 1 ∨ number = 2 ∨ number = 3 := by omega
    · exact ⟨.read, rfl⟩
    · exact ⟨.write, rfl⟩
    · exact ⟨.readWrite, rfl⟩

/-- Bits 12 to 15 of a header, which carry nothing. -/
def Header.reservedField : BitField := ⟨12, 4⟩

namespace Descriptor

/-- The words that are descriptors: the low nibble is zero and bits 4 and 5 are not both set, or
bit 3 is set and one of bits 1 and 2 is, or the low nibble is two. -/
inductive Grammar (word : UInt32) : Prop
  | handle (nibble : word &&& 0xF = 0) (type : word &&& 0x30 ≠ 0x30)
  | mapped (bit : word &&& 0x8 ≠ 0) (permission : word &&& 0x6 ≠ 0)
  | static (nibble : word &&& 0xF = 2)

/-- The bits that carry nothing in a descriptor's class. -/
def padding : Descriptor → BitField
  | .copyHandle _ => ⟨6, 20⟩
  | .moveHandle _ => ⟨6, 20⟩
  | .callingPid => ⟨6, 26⟩
  | .staticBuffer _ _ => ⟨4, 6⟩
  | .mappedBuffer _ _ => ⟨0, 1⟩

/-- A part of the descriptor is out of its range. -/
def Overflows : Descriptor → Prop
  | .copyHandle count => count = 0 ∨ 64 < count
  | .moveHandle count => count = 0 ∨ 64 < count
  | .callingPid => False
  | .staticBuffer bufferId size => 15 < bufferId ∨ 0x40000 ≤ size
  | .mappedBuffer size _ => 0x10000000 ≤ size

/-- The descriptor that the fields of a word spell, class by class. -/
inductive Spells (word : UInt32) : Descriptor → Prop
  | copyHandle (handles : classField.read word = 0) (type : handleTypeField.read word = 0) :
      Spells word (.copyHandle (handleCountField.read word + 1))
  | moveHandle (handles : classField.read word = 0) (type : handleTypeField.read word = 1) :
      Spells word (.moveHandle (handleCountField.read word + 1))
  | callingPid (handles : classField.read word = 0) (type : handleTypeField.read word = 2) :
      Spells word .callingPid
  | staticBuffer (static : classField.read word = 2) :
      Spells word (.staticBuffer (bufferIdField.read word) (staticSizeField.read word))
  | mappedBuffer {permission : BufferPermission} (mapped : mappedField.read word = 1)
      (permitted : permissionField.read word = permission.number) :
      Spells word (.mappedBuffer (mappedSizeField.read word) permission)

variable {word : UInt32} {descriptor : Descriptor}

/-! ## Reading -/

/-- A word with the mapped bit is not of the handle class, and one of the static class has not the
mapped bit. -/
theorem classes_apart : (mappedField.read word = 1 → classField.read word ≠ 0) ∧
    (classField.read word = 2 → classField.read word ≠ 0 ∧ mappedField.read word ≠ 1) := by
  simp only [BitField.read, classField, mappedField, BitField.unit, BitField.capacity,
    Nat.one_shiftLeft, Nat.reducePow]
  omega

/-- Reading a word gives the descriptor that its fields spell. -/
theorem decode_eq_ok_iff : decode word = .ok descriptor ↔ Spells word descriptor := by
  constructor
  · intro decoded
    unfold decode at decoded
    split at decoded
    · next handles =>
      unfold decodeHandle at decoded
      dsimp only at decoded
      split at decoded
      · next type => cases decoded; exact .copyHandle handles type
      · next type => cases decoded; exact .moveHandle handles type
      · next type => cases decoded; exact .callingPid handles type
      · cases decoded
    · split at decoded
      · next mapped =>
        unfold decodeMapped at decoded
        split at decoded
        · next permitted =>
          cases decoded
          exact .mappedBuffer mapped (BufferPermission.ofNumber?_eq_some_iff.1 permitted)
        · cases decoded
      · split at decoded
        · next static => cases decoded; exact .staticBuffer static
        · cases decoded
  · intro spells
    cases spells with
    | copyHandle handles type => simp only [decode, if_pos handles, decodeHandle, type]
    | moveHandle handles type => simp only [decode, if_pos handles, decodeHandle, type]
    | callingPid handles type => simp only [decode, if_pos handles, decodeHandle, type]
    | staticBuffer static =>
      obtain ⟨other, unmapped⟩ := classes_apart.2 static
      rw [decode, if_neg other, if_neg unmapped]
      exact if_pos static
    | mappedBuffer mapped permitted =>
      rw [decode, if_neg (classes_apart.1 mapped), if_pos mapped, decodeMapped,
        BufferPermission.ofNumber?_eq_some_iff.2 permitted]

/-- A word that is refused is the one that is blamed. -/
theorem eq_of_decode_eq_error {error : UnsupportedDescriptor}
    (refused : decode word = .error error) : error = ⟨word⟩ := by
  unfold decode decodeHandle decodeMapped at refused
  dsimp only at refused
  repeat' split at refused
  all_goals cases refused
  all_goals rfl

theorem grammar_iff : Grammar word ↔
    (classField.read word = 0 ∧ handleTypeField.read word ≠ 3) ∨
      (mappedField.read word ≠ 0 ∧ permissionField.read word ≠ 0) ∨ classField.read word = 2 := by
  have handles : word &&& 0xF = 0 ↔ classField.read word = 0 :=
    BitField.and_mask_eq_iff classField (by decide) rfl
  have static : word &&& 0xF = 2 ↔ classField.read word = 2 :=
    BitField.and_mask_eq_iff classField (by decide) rfl
  have type : word &&& 0x30 = 0x30 ↔ handleTypeField.read word = 3 :=
    BitField.and_mask_eq_iff handleTypeField (by decide) rfl
  have mapped : word &&& 0x8 = 0 ↔ mappedField.read word = 0 :=
    BitField.and_mask_eq_iff mappedField (by decide) rfl
  have permission : word &&& 0x6 = 0 ↔ permissionField.read word = 0 :=
    BitField.and_mask_eq_iff permissionField (by decide) rfl
  constructor
  · rintro (⟨nibble, other⟩ | ⟨bit, some⟩ | nibble)
    · exact .inl ⟨handles.1 nibble, mt type.2 other⟩
    · exact .inr (.inl ⟨mt mapped.2 bit, mt permission.2 some⟩)
    · exact .inr (.inr (static.1 nibble))
  · rintro (⟨nibble, other⟩ | ⟨bit, some⟩ | nibble)
    · exact .handle (handles.2 nibble) (mt type.1 other)
    · exact .mapped (mt mapped.1 bit) (mt permission.1 some)
    · exact .static (static.2 nibble)

theorem decode_isOk_iff : (∃ descriptor, decode word = .ok descriptor) ↔ Grammar word := by
  simp only [decode_eq_ok_iff, grammar_iff]
  constructor
  · rintro ⟨descriptor, spells⟩
    cases spells with
    | copyHandle handles type => exact .inl ⟨handles, by omega⟩
    | moveHandle handles type => exact .inl ⟨handles, by omega⟩
    | callingPid handles type => exact .inl ⟨handles, by omega⟩
    | staticBuffer static => exact .inr (.inr static)
    | mappedBuffer mapped permitted =>
      have range := BufferPermission.exists_number_iff.1 ⟨_, permitted⟩
      exact .inr (.inl ⟨by omega, by omega⟩)
  · rintro (⟨handles, other⟩ | ⟨bit, some⟩ | static)
    · have bound : handleTypeField.read word < 4 := handleTypeField.read_lt word
      obtain type | type | type : handleTypeField.read word = 0 ∨
        handleTypeField.read word = 1 ∨ handleTypeField.read word = 2 := by omega
      · exact ⟨_, .copyHandle handles type⟩
      · exact ⟨_, .moveHandle handles type⟩
      · exact ⟨_, .callingPid handles type⟩
    · have bit_lt : mappedField.read word < 2 := mappedField.read_lt word
      have bound : permissionField.read word < 4 := permissionField.read_lt word
      obtain ⟨permission, permitted⟩ := BufferPermission.exists_number_iff.2
        (show 1 ≤ permissionField.read word ∧ permissionField.read word ≤ 3 by omega)
      exact ⟨_, .mappedBuffer (by omega) permitted⟩
    · exact ⟨_, .staticBuffer static⟩

/-! ## Reading, then writing -/

theorem Spells.fits (spells : Spells word descriptor) : descriptor.Fits := by
  have count : handleCountField.read word < 64 := handleCountField.read_lt word
  cases spells with
  | copyHandle => exact ⟨Nat.succ_pos _, count⟩
  | moveHandle => exact ⟨Nat.succ_pos _, count⟩
  | callingPid => trivial
  | staticBuffer => exact ⟨bufferIdField.read_fits word, staticSizeField.read_fits word⟩
  | mappedBuffer => exact mappedSizeField.read_fits word

theorem toNat_clear_handle (handles : classField.read word = 0) :
    (BitField.clear ⟨6, 20⟩ word).toNat
      = handleTypeField.read word * 0x10 + handleCountField.read word * 0x4000000 := by
  have bound := word.toNat_lt
  have cleared := BitField.toNat_clear ⟨6, 20⟩ (by decide) word
  simp only [BitField.place, BitField.read, BitField.unit, BitField.capacity, classField,
    handleTypeField, handleCountField, Nat.one_shiftLeft, Nat.reducePow] at *
  omega

theorem toNat_clear_callingPid (handles : classField.read word = 0) :
    (BitField.clear ⟨6, 26⟩ word).toNat = handleTypeField.read word * 0x10 := by
  have bound := word.toNat_lt
  have cleared := BitField.toNat_clear ⟨6, 26⟩ (by decide) word
  simp only [BitField.place, BitField.read, BitField.unit, BitField.capacity, classField,
    handleTypeField, Nat.one_shiftLeft, Nat.reducePow] at *
  omega

theorem toNat_clear_static (static : classField.read word = 2) :
    (BitField.clear ⟨4, 6⟩ word).toNat
      = 2 + bufferIdField.read word * 0x400 + staticSizeField.read word * 0x4000 := by
  have bound := word.toNat_lt
  have cleared := BitField.toNat_clear ⟨4, 6⟩ (by decide) word
  simp only [BitField.place, BitField.read, BitField.unit, BitField.capacity, classField,
    bufferIdField, staticSizeField, Nat.one_shiftLeft, Nat.reducePow] at *
  omega

theorem toNat_clear_mapped (mapped : mappedField.read word = 1) :
    (BitField.clear ⟨0, 1⟩ word).toNat
      = permissionField.read word * 2 + 8 + mappedSizeField.read word * 0x10 := by
  have bound := word.toNat_lt
  have cleared := BitField.toNat_clear ⟨0, 1⟩ (by decide) word
  simp only [BitField.place, BitField.read, BitField.unit, BitField.capacity, permissionField,
    mappedField, mappedSizeField, Nat.one_shiftLeft, Nat.reducePow] at *
  omega

/-- What is written for a descriptor that was read is the word without its padding. -/
theorem Spells.word_eq (spells : Spells word descriptor) :
    descriptor.word = descriptor.padding.clear word := by
  have count : handleCountField.read word + 1 ≤ maxHandles := handleCountField.read_lt word
  apply UInt32.toNat_inj.1
  cases spells with
  | copyHandle handles type =>
    rw [Descriptor.word, padding, toNat_handleWord (by decide) count, toNat_clear_handle handles,
      type]
    rfl
  | moveHandle handles type =>
    rw [Descriptor.word, padding, toNat_handleWord (by decide) count, toNat_clear_handle handles,
      type]
    rfl
  | callingPid handles type =>
    rw [padding, toNat_clear_callingPid handles, type]
    rfl
  | staticBuffer static =>
    rw [Descriptor.word, padding, toNat_clear_static static]
    exact toNat_staticWord (bufferIdField.read_lt word) (staticSizeField.read_lt word)
  | mappedBuffer mapped permitted =>
    rw [Descriptor.word, padding, toNat_clear_mapped mapped, permitted]
    exact toNat_mappedWord _ (mappedSizeField.read_lt word)

/-! ## Writing -/

theorem overflows_iff : descriptor.Overflows ↔ ¬ descriptor.Fits := by
  cases descriptor with
  | copyHandle count => simp only [Overflows, Fits, maxHandles]; omega
  | moveHandle count => simp only [Overflows, Fits, maxHandles]; omega
  | callingPid => simp [Overflows, Fits]
  | staticBuffer bufferId size =>
    have slots : bufferIdField.capacity = 16 := rfl
    have sizes : staticSizeField.capacity = 0x40000 := rfl
    simp only [Overflows, Fits, BitField.fits_iff, slots, sizes]
    omega
  | mappedBuffer size permission =>
    have sizes : mappedSizeField.capacity = 0x10000000 := rfl
    simp only [Overflows, Fits, BitField.fits_iff, sizes]
    omega

theorem exists_fault (unfit : ¬ descriptor.Fits) : ∃ fault, descriptor.encode = .error fault := by
  cases descriptor with
  | copyHandle count =>
    have refused : checkCount count = .error (.handleCount count) := if_neg unfit
    exact ⟨_, by rw [encode, refused]; rfl⟩
  | moveHandle count =>
    have refused : checkCount count = .error (.handleCount count) := if_neg unfit
    exact ⟨_, by rw [encode, refused]; rfl⟩
  | callingPid => exact absurd trivial unfit
  | staticBuffer bufferId size =>
    by_cases slot : bufferIdField.fits bufferId = true
    · have accepted : checkField bufferIdField .staticBufferId bufferId = .ok () := if_pos slot
      have refused : checkField staticSizeField .staticSize size
          = .error (.fieldOutOfBounds .staticSize) := if_neg fun fits => unfit ⟨slot, fits⟩
      exact ⟨_, by rw [encode, accepted, refused]; rfl⟩
    · have refused : checkField bufferIdField .staticBufferId bufferId
          = .error (.fieldOutOfBounds .staticBufferId) := if_neg slot
      exact ⟨_, by rw [encode, refused]; rfl⟩
  | mappedBuffer size permission =>
    have refused : checkField mappedSizeField .mappedSize size
        = .error (.fieldOutOfBounds .mappedSize) := if_neg unfit
    exact ⟨_, by rw [encode, refused]; rfl⟩

theorem encode_isError_iff :
    (∃ fault, descriptor.encode = .error fault) ↔ descriptor.Overflows := by
  rw [overflows_iff]
  refine ⟨?_, exists_fault⟩
  rintro ⟨fault, refused⟩ fits
  rw [encode_eq_ok fits] at refused
  cases refused

end Descriptor

/-! ## Headers -/

/-- What is written for a header that was read is the word without its reserved bits. -/
theorem Header.toWord_ofWord (word : UInt32) :
    (ofWord word).toWord = reservedField.clear word := by
  have bound := word.toNat_lt
  have cleared := BitField.toNat_clear reservedField (by decide) word
  apply UInt32.toNat_inj.1
  rw [toNat_toWord]
  simp only [ofWord, BitField.place, BitField.read, BitField.unit, BitField.capacity, transferField,
    normalField, commandField, reservedField, Nat.one_shiftLeft, Nat.reducePow,
    UInt16.toNat_ofNat'] at *
  omega

/-- **Descriptors and headers are read exactly.** The words that are read as descriptors are those
of the grammar; a descriptor that was read is written as its word without the padding of its
class, and read the same from that. A descriptor is refused a word exactly for a part that is out
of range, and is read back otherwise. A header is written as its word without the reserved bits,
and the header made for sizes up to 63 is read back with them. -/
theorem Descriptor.codec :
    (∀ word, ((∃ descriptor, decode word = .ok descriptor) ↔ Grammar word) ∧
      (¬ Grammar word → decode word = .error ⟨word⟩)) ∧
    (∀ word descriptor, decode word = .ok descriptor →
      descriptor.encode = .ok (descriptor.padding.clear word) ∧
        decode (descriptor.padding.clear word) = .ok descriptor) ∧
    (∀ descriptor : Descriptor,
      ((∃ fault, descriptor.encode = .error fault) ↔ descriptor.Overflows) ∧
        (¬ descriptor.Overflows →
          ∃ word, descriptor.encode = .ok word ∧ decode word = .ok descriptor)) ∧
    (∀ word, (Header.ofWord word).toWord = Header.reservedField.clear word) ∧
    ∀ (command : UInt16) (normal transfer : Nat), normal ≤ 63 → transfer ≤ 63 →
      ∃ header, Header.make command normal transfer = .ok header ∧
        (Header.ofWord header.toWord).command = command ∧
        (Header.ofWord header.toWord).normal.val = normal ∧
        (Header.ofWord header.toWord).transfer.val = transfer := by
  refine ⟨fun word => ⟨decode_isOk_iff, fun other => ?_⟩, fun word descriptor decoded => ?_,
    fun descriptor => ⟨encode_isError_iff, fun within => ?_⟩, Header.toWord_ofWord,
    fun command normal transfer hn ht => ?_⟩
  · cases read : decode word with
    | ok descriptor => exact absurd (decode_isOk_iff.1 ⟨descriptor, read⟩) other
    | error error => rw [eq_of_decode_eq_error read]
  · have spells := decode_eq_ok_iff.1 decoded
    rw [← spells.word_eq]
    exact ⟨encode_eq_ok spells.fits, decode_word spells.fits⟩
  · have fits : descriptor.Fits := Classical.not_not.1 (mt overflows_iff.2 within)
    exact ⟨descriptor.word, encode_eq_ok fits, decode_word fits⟩
  · have normal_lt : normal < 64 := Nat.lt_succ_of_le hn
    have transfer_lt : transfer < 64 := Nat.lt_succ_of_le ht
    refine ⟨⟨command, ⟨normal, normal_lt⟩, ⟨transfer, transfer_lt⟩⟩, ?_, ?_⟩
    · rw [Header.make, dif_pos normal_lt, dif_pos transfer_lt]
    · rw [Header.ofWord_toWord]
      exact ⟨rfl, rfl, rfl⟩

/-- The word of two moved handles with its padding set is read, and written without it; a mapped
buffer of half a gigabyte is refused a word and the largest static buffer is not; and a header
keeps two sizes of 63. -/
theorem Descriptor.codec_at_edges :
    (encode (.moveHandle 2) = .ok 0x04000010 ∧ decode 0x04000010 = .ok (.moveHandle 2)) ∧
      (∃ fault, encode (.mappedBuffer 0x10000000 .write) = .error fault) ∧
      (∃ word, encode (.staticBuffer 15 0x3FFFF) = .ok word ∧
        decode word = .ok (.staticBuffer 15 0x3FFFF)) ∧
      decode 0x36 = .error ⟨0x36⟩ ∧
      ∃ header, Header.make 0xF00D 63 63 = .ok header ∧
        (Header.ofWord header.toWord).command = 0xF00D ∧
        (Header.ofWord header.toWord).normal.val = 63 ∧
        (Header.ofWord header.toWord).transfer.val = 63 := by
  obtain ⟨accepted, again, refused, -, sizes⟩ := Descriptor.codec
  have other : ¬ Grammar 0x36 := by
    rintro (⟨nibble, -⟩ | ⟨bit, -⟩ | nibble)
    · exact absurd nibble (by decide)
    · exact absurd rfl bit
    · exact absurd nibble (by decide)
  have fits : ¬ (staticBuffer 15 0x3FFFF).Overflows := by simp [Overflows]
  exact ⟨again 0x07FFFFD0 (.moveHandle 2) rfl, (refused _).1.2 (Nat.le_refl 0x10000000),
    (refused _).2 fits, (accepted 0x36).2 other, sizes 0xF00D 63 63 (by decide) (by decide)⟩

end MicrokernelIpc
