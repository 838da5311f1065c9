import MicrokernelIpc.Proofs.Wire.Messages

/-!
# Items in any order

Nothing keeps plain values in front of parcels: a command takes the one and the other in any order,
as long as the words it declares last. Writer and reader move on by the same words at every item, so
a reader that asks for the kinds that were written takes what was written, and stands after each
item where the writer stood.
-/

namespace MicrokernelIpc

/-- What is written into a command at a time. -/
inductive Item
  | plain (param : Param)
  | transfer (parcel : Parcel)

/-- What is asked of a command at a time. -/
inductive ItemKind
  | plain (kind : ParamKind)
  | transfer (kind : ParcelKind)

/-- What is taken out of a command at a time. -/
inductive Taken
  | plain (param : Param)
  | transfer (content : Content)

/-- The content of a parcel that nobody has translated: the slot of the calling process is empty. -/
def Parcel.content : Parcel → Content
  | .handles _ row => .handles row
  | .callingPid => .processId 0
  | .staticBuffer buffer => .staticBuffer buffer
  | .mappedBuffer buffer => .mappedBuffer buffer

theorem Parcel.arrivesAs_content (parcel : Parcel) : parcel.ArrivesAs 0 parcel.content := by
  cases parcel with
  | handles => exact .handles rfl
  | callingPid => exact .callingPid
  | staticBuffer buffer => exact .staticBuffer buffer
  | mappedBuffer buffer => exact .mappedBuffer buffer

theorem Parcel.payload_content (parcel : Parcel) : parcel.content.payload = parcel.payload := by
  cases parcel <;> rfl

/-- Take an item of a kind out of a command. -/
def ItemKind.pop : ItemKind → Reading Taken
  | .plain kind => do return .plain (← RequestReader.pop kind)
  | .transfer kind => do return .transfer (← Parcel.pop kind)

namespace Item

/-- The kind of an item. -/
def kind : Item → ItemKind
  | .plain param => .plain param.kind
  | .transfer parcel => .transfer parcel.kind

/-- The words of an item. -/
def words : Item → List UInt32
  | .plain param => param.toWords
  | .transfer parcel => parcel.words

/-- Every plain value can be sent, and a parcel if it can be. -/
def Sendable : Item → Prop
  | .plain _ => True
  | .transfer parcel => parcel.Sendable

/-- What an item is taken as. -/
def taken : Item → Taken
  | .plain param => .plain param
  | .transfer parcel => .transfer parcel.content

/-- Append an item to a command. -/
def push : Item → Writing Unit
  | .plain param => RequestWriter.push param
  | .transfer parcel => parcel.push

variable {item : Item} {items : List Item}

theorem writes_push (sendable : item.Sendable) (short : item.words.length ≤ 64) :
    RequestWriter.Writes item.push item.words ⟨⟩ := by
  cases item with
  | plain param => exact RequestWriter.writes_pushWords
  | transfer parcel => exact Parcel.writes_push (Parcel.Sendable.fits sendable short)

theorem reads_pop (sendable : item.Sendable) (short : item.words.length ≤ 64) :
    RequestReader.Reads item.kind.pop item.words item.taken := by
  cases item with
  | plain param => exact (RequestReader.reads_pop param).bind_pure Taken.plain
  | transfer parcel =>
    have read := parcel.arrivesAs_content.reads (Parcel.Sendable.fits sendable short)
    rw [Parcel.payload_content] at read
    exact read.bind_pure Taken.transfer

/-! ## Rows of items -/

/-- Append an item. Gives the index after it. -/
def pushOn (item : Item) : Writing Nat := do
  item.push
  return (← get).index

/-- Take an item of a kind. Gives the index after it as well. -/
def popOn (kind : ItemKind) : Reading (Taken × Nat) := do
  let taken ← kind.pop
  return (taken, (← get).index)

/-- The indices after each of a row of items. -/
def indices (start : Nat) : List Item → List Nat
  | [] => []
  | item :: rest => (start + item.words.length) :: indices (start + item.words.length) rest

@[simp] theorem length_indices (start : Nat) (items : List Item) :
    (indices start items).length = items.length := by
  induction items generalizing start with
  | nil => rfl
  | cons item rest ih => rw [indices, List.length_cons, ih, List.length_cons]

section

variable (sendable : item.Sendable)
include sendable

theorem pushOn_eq_ok {writer : RequestWriter} (room : writer.Room item.words.length) :
    pushOn item writer = .ok (writer.index + item.words.length) (writer.append item.words) := by
  have short : item.words.length ≤ 64 :=
    Nat.le_trans (Nat.le_add_left _ _) (Nat.le_trans room.1 room.2)
  rw [pushOn, Effect.bind_of_ok (writes_push sendable short writer room)]
  rfl

theorem popOn_eq_ok {reader : RequestReader} (ahead : reader.Ahead item.words) :
    popOn item.kind reader
      = .ok (item.taken, reader.index + item.words.length) (reader.passed item.words.length) := by
  have short : item.words.length ≤ 64 :=
    Nat.le_trans (Nat.le_add_left _ _) (Nat.le_trans ahead.inside ahead.bound)
  rw [popOn, Effect.bind_of_ok (reads_pop sendable short reader ahead)]
  rfl

end

variable (sendable : ∀ item ∈ items, item.Sendable)
include sendable

theorem mapM_pushOn {writer : RequestWriter} (room : writer.Room (items.flatMap words).length) :
    items.mapM pushOn writer
      = .ok (indices writer.index items) (writer.append (items.flatMap words)) := by
  induction items generalizing writer with
  | nil => rw [List.flatMap_nil, RequestWriter.append_nil]; rfl
  | cons item rest ih =>
    rw [List.flatMap_cons] at room ⊢
    obtain ⟨here, behind⟩ := room.of_append
    have others := ih (fun item mem => sendable item (by simp [mem])) behind
    rw [List.mapM_cons, Effect.bind_of_ok (pushOn_eq_ok (sendable item (by simp)) here),
      Effect.bind_of_ok others, RequestWriter.append_append]
    rfl

theorem mapM_popOn {reader : RequestReader} (ahead : reader.Ahead (items.flatMap words)) :
    (items.map kind).mapM popOn reader
      = .ok ((items.map taken).zip (indices reader.index items))
          (reader.passed (items.flatMap words).length) := by
  induction items generalizing reader with
  | nil => rfl
  | cons item rest ih =>
    rw [List.flatMap_cons] at ahead ⊢
    obtain ⟨here, behind⟩ := ahead.of_append
    have others := ih (fun item mem => sendable item (by simp [mem])) behind
    rw [List.map_cons, List.mapM_cons, Effect.bind_of_ok (popOn_eq_ok (sendable item (by simp)) here),
      Effect.bind_of_ok others, List.length_append, RequestReader.passed_passed]
    rfl

end Item

/-! ## Whole commands -/

/-- Begin a command in a buffer and append items. Gives the index after each of them. -/
def writeItems (buffer : CommandBuffer) (command : UInt16) (normal transfer : Nat)
    (items : List Item) : Except Fault (List Nat × RequestWriter) := do
  Effect.runFrom (items.mapM Item.pushOn) (← RequestWriter.start buffer command normal transfer)

/-- Open a command that must have these sizes and take items, each with the index after it. -/
def readItems (buffer : CommandBuffer) (command : UInt16) (normal transfer : Nat)
    (kinds : List ItemKind) : Except Fault (List (Taken × Nat) × RequestReader) := do
  Effect.runFrom (kinds.mapM Item.popOn) (← RequestReader.start buffer command normal transfer)

section

variable {items : List Item} {command : UInt16} {normal transfer : Nat} {header : Header}
variable (made : Header.make command normal transfer = .ok header) (bound : header.totalSize ≤ 64)
variable (sendable : ∀ item ∈ items, item.Sendable)
variable (inside : 1 + (items.flatMap Item.words).length ≤ header.totalSize)
include made bound sendable inside

/-- The header and the items behind it stand in the buffer as one row of words. -/
theorem writeItems_eq_ok (buffer : CommandBuffer) :
    ∃ writer, writeItems buffer command normal transfer items = .ok (Item.indices 1 items, writer) ∧
      writer.buffer = buffer.splice 0 (header.toWord :: items.flatMap Item.words) := by
  have room : RequestWriter.Room ⟨buffer.splice 0 [header.toWord], header, 1⟩
      (items.flatMap Item.words).length := ⟨inside, bound⟩
  refine ⟨RequestWriter.append ⟨buffer.splice 0 [header.toWord], header, 1⟩
    (items.flatMap Item.words), ?_, ?_⟩
  · rw [writeItems, RequestWriter.start_eq_ok made bound]
    show Effect.runFrom (items.mapM Item.pushOn) _ = _
    rw [Effect.runFrom, Item.mapM_pushOn sendable room]
  · show (buffer.splice 0 [header.toWord]).splice (0 + [header.toWord].length) _
      = buffer.splice 0 ([header.toWord] ++ items.flatMap Item.words)
    exact CommandBuffer.splice_splice

theorem readItems_eq_ok {buffer : CommandBuffer}
    (row : buffer.range 0 (1 + (items.flatMap Item.words).length)
      = header.toWord :: items.flatMap Item.words) :
    ∃ reader, readItems buffer command normal transfer (items.map Item.kind)
      = .ok ((items.map Item.taken).zip (Item.indices 1 items), reader) := by
  have opened := RequestReader.start_eq_ok made (by omega) row
  rw [CommandBuffer.range_cons (by omega) (by omega)] at row
  have ahead : RequestReader.Ahead ⟨buffer, header, 1⟩ (items.flatMap Item.words) :=
    ⟨inside, bound, (List.cons.inj row).2⟩
  refine ⟨RequestReader.passed ⟨buffer, header, 1⟩ (items.flatMap Item.words).length, ?_⟩
  rw [readItems, opened]
  show Effect.runFrom ((items.map Item.kind).mapM Item.popOn) _ = _
  rw [Effect.runFrom, Item.mapM_popOn sendable ahead]

end

/-- **Reading undoes writing.** Plain values and parcels that can be sent are written in any order
into a command that has room for them, whatever stood in its buffer, and asking for their kinds
takes them again, none of it with a fault. After every item the reader stands where the writer
stood. -/
theorem readItems_writeItems {items : List Item} {normal transfer : Nat} (command : UInt16)
    (buffer : CommandBuffer) (bound : 1 + normal + transfer ≤ 64)
    (sendable : ∀ item ∈ items, item.Sendable)
    (short : (items.flatMap Item.words).length ≤ normal + transfer) :
    ∃ indices writer taken reader,
      writeItems buffer command normal transfer items = .ok (indices, writer) ∧
      readItems writer.buffer command normal transfer (items.map Item.kind) = .ok (taken, reader) ∧
      taken.map Prod.fst = items.map Item.taken ∧ taken.map Prod.snd = indices := by
  obtain ⟨header, made, total⟩ := Header.make_eq_ok command bound
  have inside : 1 + (items.flatMap Item.words).length ≤ header.totalSize := by omega
  rw [← total] at bound
  obtain ⟨writer, written, spliced⟩ := writeItems_eq_ok made bound sendable inside buffer
  have row : writer.buffer.range 0 (0 + (header.toWord :: items.flatMap Item.words).length)
      = header.toWord :: items.flatMap Item.words := by
    rw [spliced]
    apply CommandBuffer.range_splice_self
    rw [Nat.zero_add, List.length_cons, Nat.add_comm]
    exact Nat.le_trans inside bound
  rw [Nat.zero_add, List.length_cons, Nat.add_comm] at row
  obtain ⟨reader, read⟩ := readItems_eq_ok made bound sendable inside row
  exact ⟨_, writer, _, reader, written, read, List.map_fst_zip (by simp),
    List.map_snd_zip (by simp)⟩

/-- The process id is asked for first, and plain values stand among the parcels. -/
theorem readItems_writeItems_mixed : ∃ indices writer taken reader,
    writeItems ⟨Vector.replicate 64 7⟩ 0x1234 4 8
      [.transfer .callingPid, .plain (.int64 (-2)), .transfer (.handles true [⟨1⟩, ⟨2⟩]),
        .plain (.int8 (-1)), .transfer (.staticBuffer ⟨0x8000000, 0x3FFFF, 15⟩)]
        = .ok (indices, writer) ∧
      readItems writer.buffer 0x1234 4 8
        [.transfer .callingPid, .plain .int64, .transfer .handles, .plain .int8,
          .transfer .staticBuffer] = .ok (taken, reader) ∧
      taken.map Prod.fst = [.transfer (.processId 0), .plain (.int64 (-2)),
        .transfer (.handles [⟨1⟩, ⟨2⟩]), .plain (.int8 (-1)),
        .transfer (.staticBuffer ⟨0x8000000, 0x3FFFF, 15⟩)] ∧
      taken.map Prod.snd = indices := by
  let items : List Item := [.transfer .callingPid, .plain (.int64 (-2)),
    .transfer (.handles true [⟨1⟩, ⟨2⟩]), .plain (.int8 (-1)),
    .transfer (.staticBuffer ⟨0x8000000, 0x3FFFF, 15⟩)]
  have sendable : ∀ item ∈ items, item.Sendable := by
    simp [items, Item.Sendable, Parcel.Sendable]
  exact readItems_writeItems 0x1234 ⟨Vector.replicate 64 7⟩ (by decide) sendable (by decide)

end MicrokernelIpc
