import MicrokernelIpc.Proofs.Wire.Codec
import MicrokernelIpc.Proofs.Wire.ReaderCalls

/-!
# Cursors stay inside their commands

A reader and a writer stop where the command ends. What is said of a reader is in
`MicrokernelIpc.Proofs.Wire.ReaderCalls`; a writer appends each item as a whole or stops, and what
was appended before stands in the buffer as one row of words.
-/

namespace MicrokernelIpc

/-- The faults by which a writer blames what it was given: more words than the command has, or a
part of a descriptor that does not fit its field. -/
inductive Fault.BlamesItem : Fault → Prop
  | writePastEnd (start stop size : Nat) : BlamesItem (.writePastEnd start stop size)
  | handleCount (count : Nat) : BlamesItem (.handleCount count)
  | staticBufferId : BlamesItem (.fieldOutOfBounds .staticBufferId)
  | staticSize : BlamesItem (.fieldOutOfBounds .staticSize)
  | mappedSize : BlamesItem (.fieldOutOfBounds .mappedSize)

/-! ## What a writer appends -/

namespace Descriptor

variable {descriptor : Descriptor} {word : UInt32} {fault : Fault}

/-- The word of a descriptor is the one that holds it. -/
theorem eq_word_of_encode (encoded : descriptor.encode = .ok word) : word = descriptor.word := by
  by_cases fits : descriptor.Fits
  · cases encoded.symm.trans (encode_eq_ok fits)
    rfl
  · obtain ⟨fault, refused⟩ := exists_fault fits
    cases encoded.symm.trans refused

theorem blamesItem_of_checkCount {count : Nat} (refused : checkCount count = .error fault) :
    fault.BlamesItem := by
  unfold checkCount at refused
  split at refused
  · cases refused
  · cases refused
    exact .handleCount count

theorem blamesItem_of_checkField {field : BitField} {name : PackedField} {value : Nat}
    (named : Fault.BlamesItem (.fieldOutOfBounds name))
    (refused : checkField field name value = .error fault) : fault.BlamesItem := by
  unfold checkField at refused
  split at refused
  · cases refused
  · cases refused
    exact named

/-- A descriptor that has no word is to blame for it. -/
theorem blamesItem_of_encode (refused : descriptor.encode = .error fault) : fault.BlamesItem := by
  cases descriptor with
  | copyHandle count | moveHandle count =>
    cases counted : checkCount count with
    | ok => rw [encode, counted] at refused; cases refused
    | error fault =>
      rw [encode, counted] at refused
      cases refused
      exact blamesItem_of_checkCount counted
  | callingPid => cases refused
  | staticBuffer bufferId size =>
    cases slot : checkField bufferIdField .staticBufferId bufferId with
    | ok =>
      cases fits : checkField staticSizeField .staticSize size with
      | ok => rw [encode, slot, fits] at refused; cases refused
      | error fault =>
        rw [encode, slot, fits] at refused
        cases refused
        exact blamesItem_of_checkField .staticSize fits
    | error fault =>
      rw [encode, slot] at refused
      cases refused
      exact blamesItem_of_checkField .staticBufferId slot
  | mappedBuffer size permission =>
    cases fits : checkField mappedSizeField .mappedSize size with
    | ok => rw [encode, fits] at refused; cases refused
    | error fault =>
      rw [encode, fits] at refused
      cases refused
      exact blamesItem_of_checkField .mappedSize fits

end Descriptor

namespace RequestWriter

variable {α β : Type} {writer : RequestWriter} {words rest : List UInt32} {value : α} {result : β}
variable {writing : Writing α} {after : α → Writing β}

/-- Inside a command the writing appends the words, or it stops and blames what it was given. -/
def Careful (writing : Writing α) (words : List UInt32) (value : α) : Prop :=
  ∀ writer : RequestWriter, writer.Room 0 →
    (writer.Room words.length ∧ writing writer = .ok value (writer.append words)) ∨
    ∃ fault last, writing writer = .error fault last ∧ fault.BlamesItem

theorem careful_pure : Careful (pure value) [] value :=
  fun writer room => .inl ⟨room, writes_pure writer room⟩

theorem Careful.bind (first : Careful writing words value)
    (second : Careful (after value) rest result) :
    Careful (writing >>= after) (words ++ rest) result := by
  intro writer room
  obtain ⟨here, wrote⟩ | ⟨fault, last, stopped, blames⟩ := first writer room
  · have begun : (writer.append words).Room 0 := by
      simpa only [Room, append, Nat.add_zero] using here
    rw [Effect.bind_of_ok wrote]
    obtain ⟨behind, wrote⟩ | stopped := second _ begun
    · have both : writer.Room (words ++ rest).length := by
        simp only [Room, append, List.length_append] at behind ⊢
        omega
      rw [append_append] at wrote
      exact .inl ⟨both, wrote⟩
    · exact .inr stopped
  · exact .inr ⟨fault, last, Effect.bind_of_error stopped, blames⟩

/-- A step without a state comes before the writing, and may stop it. -/
theorem Careful.of_step {step : Except Fault α} (refused : ∀ fault, step = .error fault → fault.BlamesItem)
    (second : ∀ value, step = .ok value → Careful (after value) words result) :
    Careful ((liftM step : Writing α) >>= after) words result := by
  intro writer room
  cases outcome : step with
  | ok value => exact second value outcome writer room
  | error fault => exact .inr ⟨fault, writer, rfl, refused fault outcome⟩

theorem Careful.forM {ι : Type} {items : List ι} {push : ι → Writing PUnit} {row : ι → List UInt32}
    (each : ∀ item, Careful (push item) (row item) ⟨⟩) :
    Careful (items.forM push) (items.flatMap row) ⟨⟩ := by
  induction items with
  | nil => exact careful_pure
  | cons item rest ih =>
    rw [List.flatMap_cons]
    exact (each item).bind ih

theorem careful_pushWords (words : List UInt32) : Careful (pushWords words) words ⟨⟩ := by
  intro writer room
  by_cases inside : writer.index + words.length ≤ writer.header.totalSize
  · exact .inl ⟨⟨inside, room.2⟩, writes_pushWords writer ⟨inside, room.2⟩⟩
  · have stopped : advance words.length writer = .error (.writePastEnd writer.index
        (writer.index + words.length) writer.header.totalSize) writer := by
      unfold advance
      rw [Effect.get_bind]
      dsimp only
      rw [if_pos (Nat.lt_of_not_le inside)]
      rfl
    exact .inr ⟨_, writer, Effect.bind_of_error stopped, .writePastEnd ..⟩

theorem careful_pushDescriptor (descriptor : Descriptor) :
    Careful (pushDescriptor descriptor) [descriptor.word] ⟨⟩ := by
  refine Careful.of_step (fun _ => Descriptor.blamesItem_of_encode) fun word encoded => ?_
  rw [← Descriptor.eq_word_of_encode encoded]
  exact careful_pushWords [word]

theorem careful_pushHandles (descriptor : Descriptor) (row : List Handle) :
    Careful (pushHandles descriptor row) (descriptor.word :: row.map Handle.raw) ⟨⟩ := by
  rw [List.map_eq_flatMap]
  have handles : Careful (row.forM fun handle => pushWord handle.raw)
      (row.flatMap fun handle => [handle.raw]) ⟨⟩ := Careful.forM fun handle => careful_pushWords _
  exact (careful_pushDescriptor descriptor).bind handles

/-- A handle descriptor is made before it is appended. -/
theorem careful_counted {row : List Handle} {descriptor : Descriptor} :
    Careful ((liftM (do Descriptor.checkCount row.length; return descriptor) : Writing Descriptor)
      >>= fun descriptor => pushHandles descriptor row) (descriptor.word :: row.map Handle.raw) ⟨⟩ := by
  cases counted : Descriptor.checkCount row.length with
  | ok =>
    refine Careful.of_step (fun fault refused => ?_) fun made same => ?_
    · cases refused
    · cases same
      exact careful_pushHandles descriptor row
  | error fault =>
    refine Careful.of_step (fun other refused => ?_) fun made same => ?_
    · cases refused
      exact Descriptor.blamesItem_of_checkCount counted
    · cases same

end RequestWriter

/-- Every item is appended as a whole, or the writer stops. -/
theorem Item.careful_push (item : Item) : RequestWriter.Careful item.push item.words ⟨⟩ := by
  cases item with
  | plain param => exact RequestWriter.careful_pushWords _
  | transfer parcel =>
    cases parcel with
    | handles moving row => cases moving <;> exact RequestWriter.careful_counted
    | callingPid | staticBuffer | mappedBuffer =>
      exact (RequestWriter.careful_pushDescriptor _).bind (RequestWriter.careful_pushWords _)

namespace RequestWriter

variable {buffer : CommandBuffer} {command : UInt16} {normal transfer : Nat}
variable {writer : RequestWriter} {header : Header} {words : List UInt32}

/-- A command that was begun has a header that was made for it and fits into the buffer. -/
theorem of_start (begun : start buffer command normal transfer = .ok writer) :
    ∃ header, Header.make command normal transfer = .ok header ∧ header.totalSize ≤ 64 ∧
      writer = ⟨buffer.splice 0 [header.toWord], header, 1⟩ := by
  cases made : Header.make command normal transfer with
  | error fault => rw [start, made] at begun; cases begun
  | ok header =>
    by_cases long : CommandBuffer.size < header.totalSize
    · rw [start, made] at begun
      cases begun.symm.trans (if_pos long)
    · have fits : header.totalSize ≤ 64 := Nat.le_of_not_lt long
      exact ⟨header, rfl, fits, Except.ok.inj (begun.symm.trans (start_eq_ok made fits))⟩

/-- What stands in a buffer after a command was begun in it and words were appended. -/
structure Holds (last : RequestWriter) (buffer : CommandBuffer) (words : List UInt32) : Prop where
  index : last.index = 1 + words.length
  inside : last.index ≤ last.header.totalSize
  bound : last.header.totalSize ≤ 64
  first : last.buffer.words[0] = last.header.toWord
  row : last.buffer.range 1 last.index = words
  rest : ∀ i (h : i < 64), last.index ≤ i → last.buffer.words[i] = buffer.words[i]

/-- The words stand behind the header as one row with it. -/
theorem Holds.range_zero {last : RequestWriter} (holds : last.Holds buffer words) :
    last.buffer.range 0 last.index = last.header.toWord :: words := by
  have begun : 0 < last.index := by rw [holds.index]; omega
  rw [CommandBuffer.range_cons (by decide) begun, holds.row, holds.first]

theorem holds_append
    (room : Room ⟨buffer.splice 0 [header.toWord], header, 1⟩ words.length) :
    Holds (append ⟨buffer.splice 0 [header.toWord], header, 1⟩ words) buffer words where
  index := rfl
  inside := room.1
  bound := room.2
  first := by
    simp only [append]
    rw [CommandBuffer.getElem_splice, if_pos Nat.zero_lt_one, CommandBuffer.getElem_splice]
    rfl
  row := CommandBuffer.range_splice_self (Nat.le_trans room.1 room.2)
  rest i h past := by
    simp only [append] at past ⊢
    have behind : words.length ≤ i - 1 := by omega
    rw [CommandBuffer.getElem_splice, if_neg (by omega), List.getElem?_eq_none behind,
      Option.getD_none, CommandBuffer.getElem_splice, if_neg (Nat.not_lt_zero i),
      List.getElem?_eq_none (by rw [List.length_singleton]; omega), Option.getD_none]

end RequestWriter

/-- **Cursors stay inside their commands.** A command of at most 64 words can be opened with the
sizes of its header, and after any calls on the reader, in any order, it stands inside the command;
the words that were skipped to be made zero are zero and all others as they were. The next call
takes the words of what it gives, or it moves no less far forward and stops with a fault that blames
the layout, never with an access outside the buffer. Items that are appended to a command that was
begun, in any order, stand behind the header as one row of words, up to the index that was reached,
and all words from there on as they were; or the writer stops, with the end of the command or a
part of a descriptor to blame. -/
theorem cursors_stay_inside (buffer : CommandBuffer) :
    (buffer.header.totalSize ≤ 64 → ∃ reader,
      RequestReader.start buffer buffer.header.command buffer.header.normal buffer.header.transfer
        = .ok reader ∧
      ∀ passages last, reader.Course passages last →
        last.header = buffer.header ∧ 1 ≤ last.index ∧ last.index ≤ last.header.totalSize ∧
        (∀ i (h : i < 64), last.buffer.words[i]
          = if passages.any (·.clears i) then 0 else buffer.words[i]) ∧
        ∀ call : ReaderCall,
          (∃ given next, call.run last = .ok given next ∧
            next.index = last.index + call.consumed given) ∨
          ∃ fault next, call.run last = .error fault next ∧ last.index ≤ next.index ∧
            fault.BlamesLayout) ∧
    ∀ command normal transfer writer,
      RequestWriter.start buffer command normal transfer = .ok writer → ∀ items : List Item,
        (∃ last, items.forM Item.push writer = .ok ⟨⟩ last ∧
          Header.make command normal transfer = .ok last.header ∧
          last.Holds buffer (items.flatMap Item.words)) ∨
        ∃ fault last, items.forM Item.push writer = .error fault last ∧ fault.BlamesItem := by
  constructor
  · intro bound
    refine ⟨_, RequestReader.start_self buffer, fun passages last course => ?_⟩
    have walked := course.walked ⟨Nat.le_trans (Nat.le_add_right 1 _) (Nat.le_add_right _ _), bound⟩
    refine ⟨walked.header, walked.forward, walked.within.index, walked.words, fun call => ?_⟩
    obtain ⟨given, next, ran, -, index⟩ | ⟨fault, next, ran, moves, blames⟩ :=
      call.safe walked.within
    · exact .inl ⟨given, next, ran, index⟩
    · exact .inr ⟨fault, next, ran, moves.forward, blames⟩
  · intro command normal transfer writer begun items
    obtain ⟨header, made, bound, rfl⟩ := RequestWriter.of_start begun
    have begins : 1 ≤ header.totalSize :=
      Nat.le_trans (Nat.le_add_right 1 _) (Nat.le_add_right _ _)
    have careful : RequestWriter.Careful (items.forM Item.push) (items.flatMap Item.words) ⟨⟩ :=
      RequestWriter.Careful.forM Item.careful_push
    obtain ⟨room, wrote⟩ | stopped := careful ⟨_, header, 1⟩ ⟨begins, bound⟩
    · exact .inl ⟨_, wrote, made, RequestWriter.holds_append room⟩
    · exact .inr stopped

/-- In a command of 64 words that are all the same, 62 words are skipped and made zero, and two more
cannot be skipped. In a command that is begun there with five words behind its header, a value and two
moved handles stand behind the header as those words, and the slot of the calling process is too
much. -/
theorem cursors_stay_inside_of_full :
    let buffer : CommandBuffer := ⟨Vector.replicate 64 0xF03⟩
    let items : List Item := [.plain (.int64 (-2)), .transfer (.handles true [⟨1⟩, ⟨2⟩])]
    (∃ last, RequestReader.Course ⟨buffer, buffer.header, 1⟩ [⟨.skip 62 true, 1, 63⟩] last ∧
      last.buffer.words[62] = 0 ∧ last.buffer.words[63] = 0xF03 ∧
      ∃ fault next, (ReaderCall.skip 2 false).run last = .error fault next ∧ fault.BlamesLayout) ∧
    ∃ writer, RequestWriter.start buffer 1 2 3 = .ok writer ∧
      (∃ last, items.forM Item.push writer = .ok ⟨⟩ last ∧ last.index = 6 ∧
        last.buffer.range 0 6 = [0x10083, 0xFFFFFFFE, 0xFFFFFFFF, 0x4000010, 1, 2] ∧
        ∀ i (h : i < 64), 6 ≤ i → last.buffer.words[i] = 0xF03) ∧
      ∃ fault last, (items ++ [Item.transfer .callingPid]).forM Item.push writer = .error fault last ∧
        fault.BlamesItem := by
  intro buffer items
  have total : buffer.header.totalSize = 64 := by decide +kernel
  obtain ⟨opens, writes⟩ := cursors_stay_inside buffer
  constructor
  · obtain ⟨reader, opened, walks⟩ := opens (Nat.le_of_eq total)
    cases opened.symm.trans (RequestReader.start_self buffer)
    have inside : 1 + 62 ≤ buffer.header.totalSize := by omega
    have within : RequestReader.Within ⟨buffer, buffer.header, 1⟩ :=
      ⟨Nat.le_trans (by decide) inside, Nat.le_of_eq total⟩
    have ran : (ReaderCall.skip 62 true).run ⟨buffer, buffer.header, 1⟩ = .ok none _ :=
      Effect.bind_of_ok (ReaderCall.skip_eq_ok within inside)
    have course := RequestReader.Course.refl.done ran
    obtain ⟨header, -, -, words, calls⟩ := walks _ _ course
    refine ⟨_, course, (words 62 (by decide)).trans rfl, (words 63 (by decide)).trans rfl, ?_⟩
    obtain ⟨given, next, ran, index⟩ | ⟨fault, next, stopped, -, blames⟩ := calls (.skip 2 false)
    · obtain ⟨header, -, short, -⟩ := walks _ _ (course.done ran)
      rw [index, header, total] at short
      exact absurd (show 63 + 2 ≤ 64 from short) (by decide)
    · exact ⟨fault, next, stopped, blames⟩
  · have started : RequestWriter.start buffer 1 2 3 = .ok _ := RequestWriter.start_eq_ok rfl (by decide)
    refine ⟨_, started, ?_, ?_⟩
    · have written : RequestWriter.Writes (items.forM Item.push) (items.flatMap Item.words) ⟨⟩ :=
        RequestWriter.Writes.forM fun item mem =>
          Item.writes_push (by revert item; simp [items, Item.Sendable, Parcel.Sendable])
            (by revert item; decide)
      obtain ⟨last, wrote, made, holds⟩ | ⟨fault, last, stopped, -⟩ := writes 1 2 3 _ started items
      · have index : last.index = 6 := holds.index
        refine ⟨last, wrote, index, ?_, fun i h past => ?_⟩
        · rw [← index, holds.range_zero, ← Except.ok.inj made]
          rfl
        · rw [holds.rest i h (index ▸ past)]
          exact Vector.getElem_replicate h
      · cases stopped.symm.trans (written _ ⟨by decide, by decide⟩)
    · obtain ⟨last, -, made, holds⟩ | ⟨fault, last, stopped⟩ :=
        writes 1 2 3 _ started (items ++ [.transfer .callingPid])
      · have short := holds.inside
        rw [holds.index, ← Except.ok.inj made] at short
        exact absurd short (by decide)
      · exact ⟨fault, last, stopped⟩

end MicrokernelIpc
