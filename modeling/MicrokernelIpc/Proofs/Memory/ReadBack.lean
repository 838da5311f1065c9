import MicrokernelIpc.Proofs.Memory.Accesses

/-!
# Reading back what was written

A write changes the bytes of its range, as far as pages are mapped, and no others. Where a row of
words was written it is read back.
-/

namespace MicrokernelIpc.AddressSpace

variable {space other : AddressSpace} {a b count : Nat} {word : UInt32} {bytes : List UInt8}
variable {words : List UInt32}

/-- The words of a row. -/
def wordsAt (space : AddressSpace) (address count : Nat) : List UInt32 :=
  (List.range count).map fun index => space.wordAt (address + 4 * index)

@[simp] theorem length_wordsAt : (space.wordsAt a count).length = count := by
  simp [wordsAt]

theorem wordsAt_succ :
    space.wordsAt a (count + 1) = space.wordAt a :: space.wordsAt (a + 4) count := by
  unfold wordsAt
  rw [List.range_succ_eq_map, List.map_cons, List.map_map]
  congr 1
  apply List.map_congr_left
  intro index _
  rw [Function.comp_apply, Nat.mul_succ, Nat.add_assoc, Nat.add_comm 4]

theorem wordsAt_add {more : Nat} :
    space.wordsAt a (count + more) = space.wordsAt a count ++ space.wordsAt (a + 4 * count) more := by
  unfold wordsAt
  rw [List.range_add, List.map_append, List.map_map]
  congr 1
  apply List.map_congr_left
  intro index _
  rw [Function.comp_apply, Nat.mul_add, Nat.add_assoc]

/-- The first of a row of words. -/
theorem take_wordsAt {first : Nat} (le : first ≤ count) :
    (space.wordsAt a count).take first = space.wordsAt a first := by
  rw [wordsAt, wordsAt, ← List.map_take, List.take_range, Nat.min_eq_left le]

/-- A part at the beginning of a range that can be accessed can be accessed. -/
theorem checkMapped_of_le {address : UInt32} {size : Nat} (le : count ≤ size)
    (mapped : space.checkMapped address size = .ok ()) : space.checkMapped address count = .ok () := by
  obtain ⟨inside, mapped⟩ := checkMapped_eq_ok_iff.1 mapped
  exact checkMapped_eq_ok_iff.2 ⟨by omega, fun i h => mapped i (by omega)⟩

theorem bytesAt_congr (same : ∀ i < count, other.byte? (a + i) = space.byte? (a + i)) :
    other.bytesAt a count = space.bytesAt a count := by
  induction count generalizing a with
  | zero => rfl
  | succ count ih =>
    have first := same 0 (by omega)
    rw [bytesAt, bytesAt, ih fun i h => ?_]
    · rw [Nat.add_zero] at first
      rw [first]
    · rw [Nat.add_right_comm, Nat.add_assoc]
      exact same (i + 1) (by omega)

theorem wordsAt_congr (same : ∀ i < 4 * count, other.byte? (a + i) = space.byte? (a + i)) :
    other.wordsAt a count = space.wordsAt a count := by
  apply List.map_congr_left
  intro index mem
  rw [List.mem_range] at mem
  rw [wordAt, wordAt, bytesAt_congr fun i h => ?_]
  rw [Nat.add_assoc]
  exact same _ (by omega)

/-! ## Words that were written -/

theorem byte?_setBytes_of_lt (before : b < a) : (space.setBytes a bytes).byte? b = space.byte? b := by
  induction bytes generalizing space a with
  | nil => rfl
  | cons byte rest ih =>
    rw [setBytes, ih (by omega), byte?_setByte, if_neg (by omega)]

theorem byte?_setBytes_of_ge (beyond : a + bytes.length ≤ b) :
    (space.setBytes a bytes).byte? b = space.byte? b := by
  induction bytes generalizing space a with
  | nil => rfl
  | cons byte rest ih =>
    rw [List.length_cons] at beyond
    rw [setBytes, ih (by omega), byte?_setByte, if_neg (by omega)]

theorem bytesAt_setBytes (mapped : ∀ i < bytes.length, (space.byte? (a + i)).isSome) :
    (space.setBytes a bytes).bytesAt a bytes.length = bytes := by
  induction bytes generalizing space a with
  | nil => rfl
  | cons byte rest ih =>
    have first : (space.byte? a).isSome := mapped 0 (by simp)
    obtain ⟨old, found⟩ := Option.isSome_iff_exists.1 first
    rw [List.length_cons, bytesAt, setBytes, ih fun i h => ?_, byte?_setBytes_of_lt (by omega),
      byte?_setByte, if_pos rfl, found]
    · rfl
    · rw [isSome_byte?_setByte, Nat.add_right_comm, Nat.add_assoc]
      exact mapped (i + 1) (by simpa using h)

theorem byte?_setWords_of_lt (before : b < a) : (space.setWords a words).byte? b = space.byte? b := by
  induction words generalizing space a with
  | nil => rfl
  | cons word rest ih => rw [setWords, ih (by omega), byte?_setBytes_of_lt before]

theorem byte?_setWords_of_ge (beyond : a + 4 * words.length ≤ b) :
    (space.setWords a words).byte? b = space.byte? b := by
  induction words generalizing space a with
  | nil => rfl
  | cons word rest ih =>
    rw [List.length_cons] at beyond
    have four : a + (wordBytes word).length ≤ b := by
      simp only [wordBytes, List.length_cons, List.length_nil]
      omega
    rw [setWords, ih (by omega), byte?_setBytes_of_ge four]

@[simp] theorem isSome_byte?_setWords :
    ((space.setWords a words).byte? b).isSome = (space.byte? b).isSome := by
  induction words generalizing space a with
  | nil => rfl
  | cons word rest ih => rw [setWords, ih, isSome_byte?_setBytes]

/-- What may be accessed is told by the addresses that are mapped. -/
theorem checkMapped_congr {address : UInt32}
    (same : ∀ b, (other.byte? b).isSome = (space.byte? b).isSome) :
    other.checkMapped address count = space.checkMapped address count := by
  have pages (page : Nat) : other.pages.contains page = space.pages.contains page := by
    have first : page * pageSize / pageSize = page := Nat.mul_div_cancel page pageSize_pos
    have byte := same (page * pageSize)
    rwa [Bool.eq_iff_iff, isSome_byte?, isSome_byte?, first, ← Bool.eq_iff_iff] at byte
  unfold checkMapped
  simp only [pages]

/-- A write takes no page away and brings none. -/
theorem checkMapped_setWords {address : UInt32} :
    (space.setWords a words).checkMapped address count = space.checkMapped address count :=
  checkMapped_congr fun _ => isSome_byte?_setWords

/-- A row of words that was written is read back. -/
theorem wordsAt_setWords (mapped : ∀ i < words.length * 4, (space.byte? (a + i)).isSome) :
    (space.setWords a words).wordsAt a words.length = words := by
  induction words generalizing space a with
  | nil => rfl
  | cons word rest ih =>
    rw [List.length_cons] at mapped
    rw [List.length_cons, wordsAt_succ, setWords, ih fun i h => ?_]
    · have first : ((space.setBytes a (wordBytes word)).setWords (a + 4) rest).bytesAt a 4
          = wordBytes word := by
        rw [bytesAt_congr fun i h => byte?_setWords_of_lt (by omega)]
        have there : ∀ i < (wordBytes word).length, (space.byte? (a + i)).isSome :=
          fun i h => mapped i (by simp [wordBytes] at h; omega)
        exact bytesAt_setBytes there
      rw [wordAt, first, wordOfBytes_wordBytes]
    · rw [isSome_byte?_setBytes, Nat.add_assoc]
      exact mapped (4 + i) (by omega)

/-- Words that lie beside a row that was written are left alone. -/
theorem wordsAt_setWords_of_apart (apart : b + 4 * count ≤ a ∨ a + 4 * words.length ≤ b) :
    (space.setWords a words).wordsAt b count = space.wordsAt b count := by
  apply wordsAt_congr
  intro i inside
  rcases apart with before | beyond
  · exact byte?_setWords_of_lt (by omega)
  · exact byte?_setWords_of_ge (by omega)

/-- Of a row whose first words were written the others are left alone. -/
theorem wordsAt_setWords_of_le (mapped : ∀ i < words.length * 4, (space.byte? (a + i)).isSome)
    (fits : words.length ≤ count) : (space.setWords a words).wordsAt a count
      = words ++ (space.wordsAt a count).drop words.length := by
  obtain ⟨rest, rfl⟩ := Nat.exists_eq_add_of_le fits
  rw [wordsAt_add, wordsAt_add, wordsAt_setWords mapped, wordsAt_setWords_of_apart (.inr (Nat.le_refl _)),
    List.drop_left' length_wordsAt]

end MicrokernelIpc.AddressSpace
