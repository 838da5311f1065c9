import MicrokernelIpc.Proofs.Wire.Items

/-!
# Calls on a reader

A reader moves on before it touches the words that it has passed, and it stops where the command
ends. Whatever is asked of it, it takes the words of what it gives and no more, or it stops and
blames the layout of the command (`Careful`); no access lies outside the buffer, and nothing is
written but the zeros of words that are skipped. So it is after any calls, in any order
(`Course.walked`).
-/

namespace MicrokernelIpc

/-- The faults by which a reader blames the layout of the command. -/
inductive Fault.BlamesLayout : Fault → Prop
  | readPastEnd (start stop size : Nat) : BlamesLayout (.readPastEnd start stop size)
  | expectedCallingPid : BlamesLayout .expectedCallingPid
  | expectedSingleHandle : BlamesLayout .expectedSingleHandle
  | expectedHandles (found : Descriptor) : BlamesLayout (.expectedHandles found)
  | expectedStaticBuffer (found : Descriptor) : BlamesLayout (.expectedStaticBuffer found)
  | expectedMappedBuffer (found : Descriptor) : BlamesLayout (.expectedMappedBuffer found)
  | unsupportedDescriptor (error : UnsupportedDescriptor) (index : Nat) :
      BlamesLayout (.unsupportedDescriptor error index)
  | mappedBufferMismatch (found : MappedBuffer) (size : Nat) (permission : BufferPermission) :
      BlamesLayout (.mappedBufferMismatch found size permission)

/-! ## What a reader takes -/

namespace RequestReader

/-- The next word to read stands in the command or just behind it, and the command in the buffer. -/
structure Within (reader : RequestReader) : Prop where
  index : reader.index ≤ reader.header.totalSize
  bound : reader.header.totalSize ≤ 64

variable {α β : Type} {reading : Reading α} {after : α → Reading β} {value : α} {fault : Fault}
variable {takes : α → Nat → Prop} {takesAll : β → Nat → Prop} {reader : RequestReader}

/-- Inside a command the reading takes words, as many as go with what it gives, or it stops at the
layout. It touches nothing outside the buffer and changes nothing in it. -/
def Careful (reading : Reading α) (takes : α → Nat → Prop) : Prop :=
  ∀ reader : RequestReader, reader.Within → ∃ count, (reader.passed count).Within ∧
    ((∃ value, reading reader = .ok value (reader.passed count) ∧ takes value count) ∨
      ∃ fault, reading reader = .error fault (reader.passed count) ∧ fault.BlamesLayout)

theorem careful_pure (holds : takes value 0) : Careful (pure value) takes :=
  fun _ within => ⟨0, within, .inl ⟨value, rfl, holds⟩⟩

theorem careful_throw (blames : fault.BlamesLayout) : Careful (throw fault) takes :=
  fun _ within => ⟨0, within, .inr ⟨fault, rfl, blames⟩⟩

theorem Careful.bind (first : Careful reading takes)
    (second : ∀ value count, takes value count →
      Careful (after value) fun result more => takesAll result (count + more)) :
    Careful (reading >>= after) takesAll := by
  intro reader within
  obtain ⟨count, here, ⟨value, took, holds⟩ | ⟨fault, stopped, blames⟩⟩ := first reader within
  · rw [Effect.bind_of_ok took]
    obtain ⟨more, behind, outcome⟩ := second value count holds _ here
    rw [passed_passed] at behind outcome
    exact ⟨count + more, behind, outcome⟩
  · exact ⟨count, here, .inr ⟨fault, Effect.bind_of_error stopped, blames⟩⟩

theorem Careful.mono {others : α → Nat → Prop} (careful : Careful reading takes)
    (weaker : ∀ value count, takes value count → others value count) : Careful reading others := by
  intro reader within
  obtain ⟨count, here, ⟨value, took, holds⟩ | stopped⟩ := careful reader within
  · exact ⟨count, here, .inl ⟨value, took, weaker value count holds⟩⟩
  · exact ⟨count, here, .inr stopped⟩

/-- What becomes of the value takes no more words. -/
theorem Careful.bind_pure {f : α → β} (first : Careful reading takes)
    (same : ∀ value count, takes value count → takesAll (f value) count) :
    Careful (reading >>= fun value => pure (f value)) takesAll :=
  first.bind fun value count holds => careful_pure (same value count holds)

/-- A reader that cannot move on stays where it is. -/
theorem advance_eq_error {count : Nat} (past : reader.header.totalSize < reader.index + count) :
    advance count reader
      = .error (.readPastEnd reader.index (reader.index + count) reader.header.totalSize) reader := by
  unfold advance
  rw [Effect.get_bind]
  dsimp only
  rw [if_pos past]
  rfl

theorem careful_popWords (count : Nat) :
    Careful (popWords count) fun words taken => words.length = count ∧ taken = count := by
  intro reader within
  by_cases inside : reader.index + count ≤ reader.header.totalSize
  · have fits := Nat.le_trans inside within.bound
    have length : (reader.buffer.range reader.index (reader.index + count)).length = count := by
      rw [CommandBuffer.length_range fits, Nat.add_sub_cancel_left]
    have ahead : reader.Ahead (reader.buffer.range reader.index (reader.index + count)) :=
      ⟨by rwa [length], within.bound, by rw [length]⟩
    have took := reads_popWords length reader ahead
    rw [length] at took
    exact ⟨count, ⟨inside, within.bound⟩, .inl ⟨_, took, length, rfl⟩⟩
  · have stopped := advance_eq_error (Nat.lt_of_not_le inside)
    exact ⟨0, within, .inr ⟨_, Effect.bind_of_error stopped, .readPastEnd ..⟩⟩

theorem careful_popWord : Careful popWord fun _ taken => taken = 1 := by
  refine (careful_popWords 1).bind fun words count ⟨length, counted⟩ => ?_
  obtain ⟨word, rfl⟩ := List.length_eq_one_iff.1 length
  exact careful_pure counted

/-- A row of as many words as a kind of values takes holds a value of that kind. -/
theorem exists_ofWords {kind : ParamKind} {words : List UInt32} (length : words.length = kind.size) :
    ∃ param, Param.ofWords kind words = .ok param := by
  cases kind with
  | uint64 | int64 =>
    obtain ⟨low, high, rfl⟩ := List.length_eq_two.1 length
    exact ⟨_, rfl⟩
  | _ =>
    obtain ⟨word, rfl⟩ := List.length_eq_one_iff.1 length
    exact ⟨_, rfl⟩

theorem careful_pop (kind : ParamKind) : Careful (pop kind) fun _ taken => taken = kind.size := by
  refine (careful_popWords kind.size).bind fun words count ⟨length, counted⟩ => ?_
  obtain ⟨param, read⟩ := exists_ofWords length
  rw [read]
  exact careful_pure counted

theorem careful_popDescriptor : Careful popDescriptor fun _ taken => taken = 1 := by
  intro reader within
  by_cases inside : reader.index + 1 ≤ reader.header.totalSize
  · have begun : reader.index < 64 := Nat.lt_of_succ_le (Nat.le_trans inside within.bound)
    refine ⟨1, ⟨inside, within.bound⟩, ?_⟩
    cases decoded : Descriptor.decode reader.buffer.words[reader.index] with
    | ok descriptor =>
      have ahead : reader.Ahead [reader.buffer.words[reader.index]] := by
        refine ⟨inside, within.bound, ?_⟩
        rw [List.length_singleton, CommandBuffer.range_cons begun (Nat.lt_succ_self _),
          CommandBuffer.range_of_le (Nat.le_refl _)]
      exact .inl ⟨descriptor, reads_popDescriptor decoded reader ahead, rfl⟩
    | error error =>
      have word : (reader.passed 1).buffer.word reader.index = .ok reader.buffer.words[reader.index] :=
        CommandBuffer.word_eq_ok begun
      have stopped : popDescriptor reader
          = .error (.unsupportedDescriptor error reader.index) (reader.passed 1) := by
        unfold popDescriptor
        rw [Effect.bind_of_ok (advance_eq_ok inside), Effect.get_bind, Effect.lift_bind_of_ok word,
          decoded]
        rfl
      exact .inr ⟨_, stopped, .unsupportedDescriptor ..⟩
  · have stopped := advance_eq_error (Nat.lt_of_not_le inside)
    exact ⟨0, within, .inr ⟨_, Effect.bind_of_error stopped, .readPastEnd ..⟩⟩

theorem careful_popPid : Careful popPid fun _ taken => taken = 2 := by
  refine careful_popDescriptor.bind fun descriptor count one => ?_
  subst one
  cases descriptor with
  | callingPid => exact careful_popWord.mono fun _ _ one => congrArg (1 + ·) one
  | copyHandle | moveHandle | staticBuffer | mappedBuffer => exact careful_throw .expectedCallingPid

theorem careful_popHandles :
    Careful popHandles fun handles taken => taken = 1 + handles.length := by
  refine careful_popDescriptor.bind fun descriptor count one => ?_
  subst one
  by_cases handles : descriptor.isHandle
  · rw [if_pos handles]
    refine (careful_popWords _).bind_pure fun words count ⟨length, counted⟩ => ?_
    rw [List.length_map, length, counted]
  · rw [if_neg handles]
    exact careful_throw (.expectedHandles descriptor)

theorem careful_popHandle : Careful popHandle fun _ taken => taken = 2 := by
  refine careful_popHandles.bind fun handles count counted => ?_
  match handles, counted with
  | [handle], counted => exact careful_pure counted
  | [], _ | _ :: _ :: _, _ => exact careful_throw .expectedSingleHandle

theorem careful_popStaticBuffer : Careful popStaticBuffer fun _ taken => taken = 2 := by
  refine careful_popDescriptor.bind fun descriptor count one => ?_
  subst one
  cases descriptor with
  | staticBuffer => exact careful_popWord.bind_pure fun _ _ one => congrArg (1 + ·) one
  | copyHandle | moveHandle | callingPid | mappedBuffer =>
    exact careful_throw (.expectedStaticBuffer _)

theorem careful_popMappedBuffer : Careful popMappedBuffer fun _ taken => taken = 2 := by
  refine careful_popDescriptor.bind fun descriptor count one => ?_
  subst one
  cases descriptor with
  | mappedBuffer => exact careful_popWord.bind_pure fun _ _ one => congrArg (1 + ·) one
  | copyHandle | moveHandle | callingPid | staticBuffer =>
    exact careful_throw (.expectedMappedBuffer _)

theorem careful_expectMappedBuffer (size : Nat) (permission : BufferPermission) :
    Careful (expectMappedBuffer size permission) fun _ taken => taken = 2 := by
  refine careful_popMappedBuffer.bind fun buffer count two => ?_
  by_cases same : buffer.size = size ∧ buffer.permission = permission
  · rw [if_pos same]
    exact careful_pure two
  · rw [if_neg same]
    exact careful_throw (.mappedBufferMismatch ..)

end RequestReader

/-- A parcel is taken as its descriptor and its payload. -/
theorem Parcel.careful_pop (kind : ParcelKind) : RequestReader.Careful (Parcel.pop kind)
    fun content count => count = 1 + content.payload.length := by
  cases kind with
  | handles =>
    refine RequestReader.careful_popHandles.bind_pure fun handles count counted => ?_
    rw [counted, Content.payload, List.length_map]
  | callingPid => exact RequestReader.careful_popPid.bind_pure fun _ _ two => two
  | staticBuffer => exact RequestReader.careful_popStaticBuffer.bind_pure fun _ _ two => two
  | mappedBuffer => exact RequestReader.careful_popMappedBuffer.bind_pure fun _ _ two => two

/-! ## Calls on a reader -/

/-- A call on a reader. -/
inductive ReaderCall
  | take (kind : ItemKind)
  | takeHandle
  | takeMappedBuffer (size : Nat) (permission : BufferPermission)
  | skip (count : Nat) (clear : Bool)

namespace ReaderCall

/-- Make the call. -/
def run : ReaderCall → Reading (Option Taken)
  | .take kind => do return some (← kind.pop)
  | .takeHandle => do return some (.transfer (.handles [← RequestReader.popHandle]))
  | .takeMappedBuffer size permission => do
    let address ← RequestReader.expectMappedBuffer size permission
    return some (.transfer (.mappedBuffer ⟨address, size, permission⟩))
  | .skip count clear => do
    RequestReader.skip count clear
    return none

/-- How many words a call takes that gave this: those that are skipped, those of a kind of plain
values, or a descriptor and its payload. -/
def consumed : ReaderCall → Option Taken → Nat
  | .skip count _, _ => count
  | .take (.plain kind), _ => kind.size
  | _, some (.transfer content) => 1 + content.payload.length
  | _, _ => 0

end ReaderCall

/-- A call, and where the reader stood before it and after it. -/
structure Passage where
  call : ReaderCall
  start : Nat
  stop : Nat

/-- Whether a word is among those that were skipped and made zero. -/
def Passage.clears (passage : Passage) (index : Nat) : Bool :=
  match passage.call with
  | .skip _ true => decide (passage.start ≤ index ∧ index < passage.stop)
  | _ => false

theorem Passage.clears_skip_iff {count start stop i : Nat} :
    clears ⟨.skip count true, start, stop⟩ i = true ↔ start ≤ i ∧ i < stop :=
  decide_eq_true_iff

/-- What a call leaves of a reader that stands inside its command: the header is the same, the
reader has not moved back and stands inside it again, and the words are zero that were skipped to
be made zero, and as they were everywhere else. -/
structure ReaderCall.Moves (call : ReaderCall) (reader next : RequestReader) : Prop where
  header : next.header = reader.header
  forward : reader.index ≤ next.index
  within : next.Within
  words : ∀ i (h : i < 64), next.buffer.words[i]
    = if Passage.clears ⟨call, reader.index, next.index⟩ i then 0 else reader.buffer.words[i]

namespace ReaderCall

variable {call : ReaderCall} {reader next : RequestReader}

/-- What a call does inside a command: it takes what it gives and no more, or it stops and blames
the layout. -/
def Safe (call : ReaderCall) (reader : RequestReader) : Prop :=
  (∃ given next, call.run reader = .ok given next ∧ call.Moves reader next ∧
    next.index = reader.index + call.consumed given) ∨
  ∃ fault next, call.run reader = .error fault next ∧ call.Moves reader next ∧ fault.BlamesLayout

/-- A call that clears nothing only moves the reader on. -/
theorem moves_passed {count : Nat} (within : (reader.passed count).Within)
    (keeps : ∀ start stop i, Passage.clears ⟨call, start, stop⟩ i = false) :
    call.Moves reader (reader.passed count) where
  header := rfl
  forward := Nat.le_add_right _ _
  within := within
  words i h := by rw [keeps, if_neg Bool.false_ne_true]; rfl

/-- A careful reading is safe. -/
theorem safe_of_careful
    (careful : RequestReader.Careful call.run fun given count => count = call.consumed given)
    (keeps : ∀ start stop i, Passage.clears ⟨call, start, stop⟩ i = false)
    (within : reader.Within) : call.Safe reader := by
  obtain ⟨count, here, ⟨given, ran, rfl⟩ | ⟨fault, ran, blames⟩⟩ := careful reader within
  · exact .inl ⟨given, _, ran, moves_passed here keeps, rfl⟩
  · exact .inr ⟨fault, _, ran, moves_passed here keeps, blames⟩

/-- Words that are skipped are as they were, or zero. -/
theorem skip_eq_ok {count : Nat} {clear : Bool} (within : reader.Within)
    (inside : reader.index + count ≤ reader.header.totalSize) :
    RequestReader.skip count clear reader = .ok () { reader.passed count with
      buffer := if clear then reader.buffer.splice reader.index (List.replicate count 0)
        else reader.buffer } := by
  have fits : reader.index + (List.replicate count (0 : UInt32)).length ≤ 64 := by
    rw [List.length_replicate]
    exact Nat.le_trans inside within.bound
  unfold RequestReader.skip
  rw [Effect.bind_of_ok (RequestReader.advance_eq_ok inside)]
  cases clear with
  | false => rfl
  | true =>
    rw [if_pos rfl, Effect.get_bind]
    exact Effect.lift_bind_of_ok (CommandBuffer.overwrite_eq_ok fits)

theorem getElem_splice_zeros (buffer : CommandBuffer) (start count i : Nat) (h : i < 64) :
    (buffer.splice start (List.replicate count 0)).words[i]
      = if start ≤ i ∧ i < start + count then 0 else buffer.words[i] := by
  rw [CommandBuffer.getElem_splice]
  by_cases before : i < start
  · rw [if_pos before, if_neg (by omega)]
  · rw [if_neg before, List.getElem?_replicate]
    by_cases within : i < start + count
    · rw [if_pos (by omega), if_pos (by omega)]
      rfl
    · rw [if_neg (by omega), if_neg (by omega)]
      rfl

theorem safe_skip {count : Nat} {clear : Bool} (within : reader.Within) :
    (ReaderCall.skip count clear).Safe reader := by
  by_cases inside : reader.index + count ≤ reader.header.totalSize
  · refine .inl ⟨none, _, Effect.bind_of_ok (skip_eq_ok within inside), ?_, rfl⟩
    refine ⟨rfl, Nat.le_add_right _ _, ⟨inside, within.bound⟩, fun i h => ?_⟩
    cases clear with
    | false => rfl
    | true =>
      refine (getElem_splice_zeros _ _ _ i h).trans ?_
      exact ite_congr (propext Passage.clears_skip_iff).symm (fun _ => rfl) fun _ => rfl
  · have stopped := RequestReader.advance_eq_error (Nat.lt_of_not_le inside)
    refine .inr ⟨_, reader, Effect.bind_of_error (Effect.bind_of_error stopped), ?_, .readPastEnd ..⟩
    refine ⟨rfl, Nat.le_refl _, within, fun i h => ?_⟩
    -- nothing was skipped, so nothing lies between where the reader stood and where it stands
    have none : Passage.clears ⟨.skip count clear, reader.index, reader.index⟩ i = false := by
      cases clear with
      | false => rfl
      | true =>
        rw [← Bool.not_eq_true, Passage.clears_skip_iff]
        omega
    rw [none, if_neg Bool.false_ne_true]

/-- What is asked for is taken with the words that stand for it. -/
theorem careful_pop (kind : ItemKind) : RequestReader.Careful kind.pop
    fun taken count => count = (ReaderCall.take kind).consumed (some taken) := by
  cases kind with
  | plain kind => exact (RequestReader.careful_pop kind).bind_pure fun _ _ counted => counted
  | transfer kind => exact (Parcel.careful_pop kind).bind_pure fun _ _ counted => counted

/-- Every call is safe inside a command. -/
theorem safe (call : ReaderCall) (within : reader.Within) : call.Safe reader := by
  cases call with
  | take kind =>
    exact safe_of_careful ((careful_pop kind).bind_pure fun _ _ counted => counted)
      (fun _ _ _ => rfl) within
  | takeHandle =>
    exact safe_of_careful (RequestReader.careful_popHandle.bind_pure fun _ _ two => two)
      (fun _ _ _ => rfl) within
  | takeMappedBuffer size permission =>
    exact safe_of_careful
      ((RequestReader.careful_expectMappedBuffer size permission).bind_pure fun _ _ two => two)
      (fun _ _ _ => rfl) within
  | skip count clear => exact safe_skip within

theorem Safe.moves_of_ok {given : Option Taken} (safe : call.Safe reader)
    (ran : call.run reader = .ok given next) : call.Moves reader next := by
  obtain ⟨given', next', ran', moves, -⟩ | ⟨fault, next', ran', -, -⟩ := safe
  · cases ran.symm.trans ran'
    exact moves
  · cases ran.symm.trans ran'

theorem Safe.moves_of_error {fault : Fault} (safe : call.Safe reader)
    (ran : call.run reader = .error fault next) : call.Moves reader next := by
  obtain ⟨given', next', ran', -, -⟩ | ⟨fault, next', ran', moves, -⟩ := safe
  · cases ran.symm.trans ran'
  · cases ran.symm.trans ran'
    exact moves

end ReaderCall

/-- Calls on a reader one after the other, each with where it began and ended. A call that stops
leaves the reader where it stopped, and others may follow. -/
inductive RequestReader.Course (start : RequestReader) : List Passage → RequestReader → Prop
  | refl : Course start [] start
  | done {passages : List Passage} {reader next : RequestReader} {call : ReaderCall}
      {given : Option Taken} (course : Course start passages reader)
      (ran : call.run reader = .ok given next) :
      Course start (passages ++ [⟨call, reader.index, next.index⟩]) next
  | stopped {passages : List Passage} {reader next : RequestReader} {call : ReaderCall}
      {fault : Fault} (course : Course start passages reader)
      (ran : call.run reader = .error fault next) :
      Course start (passages ++ [⟨call, reader.index, next.index⟩]) next

namespace RequestReader

variable {start reader next last : RequestReader} {passages : List Passage} {call : ReaderCall}

/-- What a row of calls leaves of a reader that stood inside its command. -/
structure Walked (start : RequestReader) (passages : List Passage) (last : RequestReader) : Prop where
  header : last.header = start.header
  forward : start.index ≤ last.index
  within : last.Within
  words : ∀ i (h : i < 64), last.buffer.words[i]
    = if passages.any (·.clears i) then 0 else start.buffer.words[i]

theorem Walked.moves (walked : start.Walked passages reader) (moves : call.Moves reader next) :
    start.Walked (passages ++ [⟨call, reader.index, next.index⟩]) next where
  header := moves.header.trans walked.header
  forward := Nat.le_trans walked.forward moves.forward
  within := moves.within
  words i h := by
    rw [moves.words i h, walked.words i h, List.any_append, List.any_cons, List.any_nil, Bool.or_false]
    cases passages.any (·.clears i) <;>
      cases Passage.clears ⟨call, reader.index, next.index⟩ i <;> rfl

/-- Calls in any order keep the reader inside its command. -/
theorem Course.walked (course : start.Course passages last) (within : start.Within) :
    start.Walked passages last := by
  induction course with
  | refl => exact ⟨rfl, Nat.le_refl _, within, fun i h => rfl⟩
  | done course ran ih => exact ih.moves ((ReaderCall.safe _ ih.within).moves_of_ok ran)
  | stopped course ran ih => exact ih.moves ((ReaderCall.safe _ ih.within).moves_of_error ran)

end RequestReader

end MicrokernelIpc
