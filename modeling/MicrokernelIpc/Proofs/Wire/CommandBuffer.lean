import MicrokernelIpc.Wire.CommandBuffer

/-!
# Ranges of command buffers

Inside the bounds of a buffer no access faults. A range of words can be cut in two, and a splice
changes the range that it covers and no other.
-/

namespace MicrokernelIpc.CommandBuffer

variable {buffer : CommandBuffer} {start stop index a b c i : Nat} {words : List UInt32}

@[simp] theorem length_toList (buffer : CommandBuffer) : buffer.toList.length = 64 := by
  simp [toList]

/-- The words of a range. -/
def range (buffer : CommandBuffer) (start stop : Nat) : List UInt32 :=
  (buffer.toList.drop start).take (stop - start)

theorem length_range (bound : stop ≤ 64) :
    (buffer.range start stop).length = stop - start := by
  simp [range]
  omega

theorem slice_eq_ok (h : start ≤ stop) (bound : stop ≤ 64) :
    buffer.slice start stop = .ok (buffer.range start stop) := by
  unfold slice checkRange size
  rw [if_neg (by omega), if_neg (by omega)]
  rfl

theorem overwrite_eq_ok (bound : start + words.length ≤ 64) :
    buffer.overwrite start words = .ok (buffer.splice start words) := by
  unfold overwrite checkRange size
  rw [if_neg (by omega), if_neg (by omega)]
  rfl

theorem word_eq_ok (inside : index < 64) : buffer.word index = .ok buffer.words[index] :=
  dif_pos inside

theorem setWord_eq_ok {word : UInt32} (bound : index < 64) :
    buffer.setWord index word = .ok (buffer.splice index [word]) :=
  if_pos bound

/-! ## Cutting and splicing -/

theorem getElem?_toList (buffer : CommandBuffer) (h : i < 64) :
    buffer.toList[i]? = some buffer.words[i] := by
  rw [toList, Vector.getElem?_toList, Vector.getElem?_eq_getElem h]

theorem getElem?_toList_splice (bound : start + words.length ≤ 64) (i : Nat) :
    (buffer.splice start words).toList[i]?
      = if start ≤ i ∧ i < start + words.length then words[i - start]? else buffer.toList[i]? := by
  by_cases inside : i < 64
  · rw [getElem?_toList _ inside, getElem?_toList _ inside, getElem_splice]
    by_cases before : i < start
    · rw [if_pos before, if_neg (by omega)]
    · rw [if_neg before]
      by_cases within : i < start + words.length
      · rw [if_pos (by omega), List.getElem?_eq_getElem (by omega)]
        rfl
      · rw [if_neg (by omega), List.getElem?_eq_none (by omega)]
        rfl
  · rw [if_neg (by omega), List.getElem?_eq_none (by simpa using inside),
      List.getElem?_eq_none (by simpa using inside)]

theorem getElem?_range :
    (buffer.range a b)[i]? = if a + i < b then buffer.toList[a + i]? else none := by
  rw [range, List.getElem?_take, List.getElem?_drop]
  split
  · rw [if_pos (by omega)]
  · rw [if_neg (by omega)]

/-- A splice is seen in no range that ends before it or begins after it. -/
theorem range_splice_of_disjoint (bound : start + words.length ≤ 64)
    (apart : b ≤ start ∨ start + words.length ≤ a) :
    (buffer.splice start words).range a b = buffer.range a b := by
  apply List.ext_getElem?
  intro i
  rw [getElem?_range, getElem?_range, getElem?_toList_splice bound]
  split
  · rw [if_neg (by omega)]
  · rfl

theorem range_splice_self (bound : start + words.length ≤ 64) :
    (buffer.splice start words).range start (start + words.length) = words := by
  apply List.ext_getElem?
  intro i
  rw [getElem?_range, getElem?_toList_splice bound]
  split
  · rw [if_pos (by omega), Nat.add_sub_cancel_left]
  · rw [List.getElem?_eq_none (by omega)]

theorem range_of_le (h : b ≤ a) : buffer.range a b = [] := by
  simp [range, Nat.sub_eq_zero_of_le h]

theorem range_append (ab : a ≤ b) (bc : b ≤ c) (bound : c ≤ 64) :
    buffer.range a b ++ buffer.range b c = buffer.range a c := by
  apply List.ext_getElem?
  intro i
  rw [List.getElem?_append, length_range (Nat.le_trans bc bound), getElem?_range, getElem?_range,
    getElem?_range]
  split
  · rw [if_pos (by omega), if_pos (by omega)]
  · by_cases inside : a + i < c
    · rw [if_pos (by omega), if_pos inside]
      congr 1
      omega
    · rw [if_neg (by omega), if_neg inside]

theorem range_cons (begun : a < 64) (ab : a < b) :
    buffer.range a b = buffer.words[a] :: buffer.range (a + 1) b := by
  have inside : a < buffer.toList.length := by simpa using begun
  have length : b - a = b - (a + 1) + 1 := by omega
  rw [range, List.drop_eq_getElem_cons inside, length, List.take_succ_cons]
  rfl

/-- A word stands where the ranges from it on begin. -/
theorem words_eq_of_range {other : CommandBuffer} (begun : a < 64)
    (same : buffer.range a (a + 1) = other.range a (a + 1)) :
    buffer.words[a] = other.words[a] := by
  rw [range_cons begun (by omega), range_cons begun (by omega)] at same
  exact (List.cons.inj same).1

/-- A range with a word at its beginning and the rest cut in two. -/
theorem range_eq_cons_append (begun : a < 64) (ab : a + 1 ≤ b) (bc : b ≤ c) (bound : c ≤ 64) :
    buffer.range a c = buffer.words[a] :: (buffer.range (a + 1) b ++ buffer.range b c) := by
  rw [range_append ab bc bound, range_cons begun (by omega)]

/-- The words that a buffer was made of stand at its beginning. -/
theorem range_ofList (fits : words.length ≤ 64) (inside : b ≤ words.length) :
    (ofList words).range a b = (words.drop a).take (b - a) := by
  apply List.ext_getElem?
  intro i
  rw [getElem?_range, ofList, getElem?_toList_splice (by omega), List.getElem?_take,
    List.getElem?_drop]
  by_cases within : a + i < b
  · rw [if_pos within, if_pos (by omega), if_pos (by omega), Nat.sub_zero]
  · rw [if_neg within, if_neg (by omega)]

/-- A buffer that was made of all its words has them. -/
theorem toList_ofList (full : words.length = 64) : (ofList words).toList = words := by
  have fits : (ofList words).toList.length ≤ words.length :=
    Nat.le_of_eq ((length_toList _).trans full.symm)
  have all : (ofList words).range 0 words.length = _ :=
    range_ofList (Nat.le_of_eq full) (Nat.le_refl words.length)
  rwa [range, List.drop_zero, List.drop_zero, Nat.sub_zero, List.take_length,
    List.take_of_length_le fits] at all

@[simp] theorem ofList_toList (buffer : CommandBuffer) : ofList buffer.toList = buffer := by
  have words : (ofList buffer.toList).words = buffer.words :=
    Vector.toList_inj.1 (toList_ofList buffer.length_toList)
  exact congrArg CommandBuffer.mk words

end MicrokernelIpc.CommandBuffer
