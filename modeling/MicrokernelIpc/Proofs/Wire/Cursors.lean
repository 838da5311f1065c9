import MicrokernelIpc.Proofs.Wire.CommandBuffer
import MicrokernelIpc.Wire.RequestReader

/-!
# Words that are appended and taken

A writing that has room comes to appending a row of words, and a reading that finds its row of
words ahead comes to passing over them. Both are put together row by row, so nothing has to be said
of where in the command a value stands.
-/

namespace MicrokernelIpc

namespace CommandBuffer

variable {buffer : CommandBuffer} {start : Nat} {words rest : List UInt32}

theorem ext_getElem {other : CommandBuffer}
    (same : ∀ index (h : index < 64), buffer.words[index] = other.words[index]) :
    buffer = other := by
  obtain ⟨words⟩ := buffer
  obtain ⟨others⟩ := other
  exact congrArg mk (Vector.ext same)

@[simp] theorem splice_nil : buffer.splice start [] = buffer := by
  refine ext_getElem fun index h => ?_
  rw [getElem_splice]
  split <;> simp

/-- Two rows of words one behind the other are one row. -/
theorem splice_splice :
    (buffer.splice start words).splice (start + words.length) rest
      = buffer.splice start (words ++ rest) := by
  refine ext_getElem fun index h => ?_
  simp only [getElem_splice]
  by_cases before : index < start
  · rw [if_pos (by omega), if_pos before, if_pos before]
  · rw [if_neg before, if_neg before]
    by_cases first : index < start + words.length
    · rw [if_pos first, List.getElem?_append_left (by omega)]
    · have past : words.length ≤ index - start := by omega
      rw [if_neg first, List.getElem?_append_right past, List.getElem?_eq_none past, Nat.sub_sub]
      rfl

end CommandBuffer

theorem Effect.bind_of_ok {σ α β : Type} {first : Effect σ α} {rest : α → Effect σ β} {s t : σ}
    {value : α} (h : first s = .ok value t) : (first >>= rest) s = rest value t := by
  show EStateM.bind first rest s = _
  rw [EStateM.bind, h]

theorem Effect.bind_of_error {σ α β : Type} {first : Effect σ α} {rest : α → Effect σ β} {s t : σ}
    {fault : Fault} (h : first s = .error fault t) : (first >>= rest) s = .error fault t := by
  show EStateM.bind first rest s = _
  rw [EStateM.bind, h]

theorem Effect.get_bind {σ α : Type} {rest : σ → Effect σ α} (s : σ) :
    ((get : Effect σ σ) >>= rest) s = rest s s :=
  rfl

theorem Effect.lift_bind_of_ok {σ α β : Type} {step : Except Fault α} {rest : α → Effect σ β}
    {s : σ} {value : α} (ok : step = .ok value) :
    ((liftM step : Effect σ α) >>= rest) s = rest value s := by
  subst ok
  rfl

/-! ## Writing -/

namespace RequestWriter

variable {α : Type} {writer : RequestWriter} {words rest : List UInt32}

/-- The writer with words appended. -/
def append (writer : RequestWriter) (words : List UInt32) : RequestWriter :=
  { writer with
    buffer := writer.buffer.splice writer.index words
    index := writer.index + words.length }

@[simp] theorem append_nil : writer.append [] = writer := by
  simp [append]

theorem append_append : (writer.append words).append rest = writer.append (words ++ rest) := by
  simp only [append, CommandBuffer.splice_splice, List.length_append, Nat.add_assoc]

/-- The command has room for so many more words. -/
def Room (writer : RequestWriter) (count : Nat) : Prop :=
  writer.index + count ≤ writer.header.totalSize ∧ writer.header.totalSize ≤ 64

theorem Room.of_append (room : writer.Room (words ++ rest).length) :
    writer.Room words.length ∧ (writer.append words).Room rest.length := by
  simp only [Room, append, List.length_append] at room ⊢
  omega

/-- Where there is room the writing appends the words. -/
def Writes (writing : Writing α) (words : List UInt32) (value : α) : Prop :=
  ∀ writer : RequestWriter, writer.Room words.length → writing writer = .ok value (writer.append words)

variable {β : Type} {value : α} {result : β} {writing : Writing α} {after : α → Writing β}

theorem writes_pure : Writes (pure value) [] value := by
  intro writer _
  rw [append_nil]
  rfl

theorem Writes.bind (first : Writes writing words value) (second : Writes (after value) rest result) :
    Writes (writing >>= after) (words ++ rest) result := by
  intro writer room
  obtain ⟨here, behind⟩ := room.of_append
  rw [Effect.bind_of_ok (first writer here), second _ behind, append_append]

/-- A step without a state comes before the writing. -/
theorem Writes.of_ok {step : Except Fault α} (ok : step = .ok value)
    (second : Writes (after value) words result) :
    Writes ((liftM step : Writing α) >>= after) words result := by
  intro writer room
  rw [Effect.lift_bind_of_ok ok]
  exact second writer room

theorem Writes.forM {ι : Type} {items : List ι} {push : ι → Writing PUnit} {row : ι → List UInt32}
    (each : ∀ item ∈ items, Writes (push item) (row item) ⟨⟩) :
    Writes (items.forM push) (items.flatMap row) ⟨⟩ := by
  induction items with
  | nil => exact writes_pure
  | cons item rest ih =>
    rw [List.flatMap_cons]
    have others : Writes (rest.forM push) (rest.flatMap row) ⟨⟩ :=
      ih fun item mem => each item (by simp [mem])
    exact (each item (by simp)).bind others

theorem advance_eq_ok {count : Nat} (room : writer.Room count) :
    advance count writer = .ok writer.index { writer with index := writer.index + count } := by
  have short : ¬ writer.header.totalSize < writer.index + count := Nat.not_lt.2 room.1
  unfold advance
  rw [Effect.get_bind]
  dsimp only
  rw [if_neg short]
  rfl

theorem writes_pushWords : Writes (pushWords words) words ⟨⟩ := by
  intro writer room
  have fits : writer.index + words.length ≤ 64 := Nat.le_trans room.1 room.2
  unfold pushWords
  rw [Effect.bind_of_ok (advance_eq_ok room), Effect.get_bind,
    Effect.lift_bind_of_ok (CommandBuffer.overwrite_eq_ok fits)]
  rfl

end RequestWriter

/-! ## Reading -/

namespace RequestReader

variable {α β : Type} {reader : RequestReader} {words rest : List UInt32} {word : UInt32}
variable {value : α} {result : β} {reading : Reading α} {after : α → Reading β}

/-- The reader after so many words. -/
def passed (reader : RequestReader) (count : Nat) : RequestReader :=
  { reader with index := reader.index + count }

theorem passed_passed (a b : Nat) : (reader.passed a).passed b = reader.passed (a + b) := by
  simp only [passed, Nat.add_assoc]

/-- The words are the next ones of the command. -/
structure Ahead (reader : RequestReader) (words : List UInt32) : Prop where
  inside : reader.index + words.length ≤ reader.header.totalSize
  bound : reader.header.totalSize ≤ 64
  range : reader.buffer.range reader.index (reader.index + words.length) = words

theorem Ahead.of_append (ahead : reader.Ahead (words ++ rest)) :
    reader.Ahead words ∧ (reader.passed words.length).Ahead rest := by
  obtain ⟨inside, bound, range⟩ := ahead
  rw [List.length_append, ← Nat.add_assoc] at inside range
  have fits := Nat.le_trans inside bound
  rw [← CommandBuffer.range_append (Nat.le_add_right _ _) (Nat.le_add_right _ _) fits] at range
  have length : (reader.buffer.range reader.index (reader.index + words.length)).length
      = words.length := by
    rw [CommandBuffer.length_range (by omega), Nat.add_sub_cancel_left]
  obtain ⟨first, second⟩ := List.append_inj range length
  exact ⟨⟨by omega, bound, first⟩, inside, bound, second⟩

/-- Where the words are ahead the reading takes them and gives the value. -/
def Reads (reading : Reading α) (words : List UInt32) (value : α) : Prop :=
  ∀ reader : RequestReader, reader.Ahead words → reading reader = .ok value (reader.passed words.length)

theorem reads_pure : Reads (pure value) [] value :=
  fun _ _ => rfl

theorem Reads.bind (first : Reads reading words value) (second : Reads (after value) rest result) :
    Reads (reading >>= after) (words ++ rest) result := by
  intro reader ahead
  obtain ⟨here, behind⟩ := ahead.of_append
  rw [Effect.bind_of_ok (first reader here), second _ behind, passed_passed, List.length_append]

/-- What is done with the words does not depend on the state. -/
theorem Reads.bind_ok {step : α → Except Fault β} (first : Reads reading words value)
    (ok : step value = .ok result) : Reads (reading >>= fun value => liftM (step value)) words result := by
  intro reader ahead
  rw [Effect.bind_of_ok (first reader ahead), ok]
  rfl

theorem Reads.bind_pure (first : Reads reading words value) (f : α → β) :
    Reads (reading >>= fun value => pure (f value)) words (f value) := by
  intro reader ahead
  rw [Effect.bind_of_ok (first reader ahead)]
  rfl

theorem Reads.mapM {ι : Type} {items : List ι} {pop : ι → Reading α} {row : ι → List UInt32}
    {taken : ι → α} (each : ∀ item ∈ items, Reads (pop item) (row item) (taken item)) :
    Reads (items.mapM pop) (items.flatMap row) (items.map taken) := by
  induction items with
  | nil => exact reads_pure
  | cons item rest ih =>
    rw [List.mapM_cons, List.flatMap_cons, List.map_cons]
    have others := ih fun item mem => each item (by simp [mem])
    exact (each item (by simp)).bind (others.bind_pure _)

theorem advance_eq_ok {count : Nat} (inside : reader.index + count ≤ reader.header.totalSize) :
    advance count reader = .ok reader.index (reader.passed count) := by
  unfold advance
  rw [Effect.get_bind]
  dsimp only
  rw [if_neg (Nat.not_lt.2 inside)]
  rfl

theorem reads_popWords {count : Nat} (length : words.length = count) :
    Reads (popWords count) words words := by
  subst length
  intro reader ahead
  have fits := Nat.le_trans ahead.inside ahead.bound
  unfold popWords
  rw [Effect.bind_of_ok (advance_eq_ok ahead.inside), Effect.get_bind]
  have sliced : (reader.passed words.length).buffer.slice reader.index (reader.index + words.length)
      = .ok words := by
    rw [CommandBuffer.slice_eq_ok (Nat.le_add_right _ _) fits]
    exact congrArg Except.ok ahead.range
  rw [sliced]
  rfl

theorem reads_popWord : Reads popWord [word] word :=
  (reads_popWords rfl).bind_ok rfl

theorem reads_popDescriptor {descriptor : Descriptor} (decoded : Descriptor.decode word = .ok descriptor) :
    Reads popDescriptor [word] descriptor := by
  intro reader ahead
  have inside : reader.index < 64 := Nat.lt_of_succ_le (Nat.le_trans ahead.inside ahead.bound)
  have found : reader.buffer.words[reader.index] = word := by
    have range := ahead.range
    rw [List.length_singleton, CommandBuffer.range_cons inside (Nat.lt_succ_self _)] at range
    exact (List.cons.inj range).1
  have word : (reader.passed 1).buffer.word reader.index = .ok word :=
    (dif_pos inside).trans (congrArg Except.ok found)
  unfold popDescriptor
  rw [Effect.bind_of_ok (advance_eq_ok (show reader.index + 1 ≤ _ from ahead.inside)),
    Effect.get_bind, Effect.lift_bind_of_ok word, decoded]
  rfl

/-- A plain value is taken as it was appended. -/
theorem reads_pop (param : Param) : Reads (pop param.kind) param.toWords param := by
  refine (reads_popWords param.toWords_length).bind_ok ?_
  have back := Param.ofWords_toWords param []
  rwa [List.append_nil] at back

end RequestReader

end MicrokernelIpc
