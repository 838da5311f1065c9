import MicrokernelIpc.Proofs.Wire.Parcels

/-!
# Messages

A command is begun with the sizes of its two regions, filled with plain values and parcels, and
opened again with the same sizes. If the values fill it exactly, nothing of this stops on a fault.
-/

namespace MicrokernelIpc

section

variable {command : UInt16} {normal transfer : Nat} {header : Header} {buffer : CommandBuffer}

/-- Sizes that leave a command within the buffer can be declared. -/
theorem Header.make_eq_ok (command : UInt16) (bound : 1 + normal + transfer ≤ 64) :
    ∃ header, Header.make command normal transfer = .ok header ∧
      header.totalSize = 1 + normal + transfer := by
  rw [Header.make, dif_pos (by omega), dif_pos (by omega)]
  exact ⟨_, rfl, rfl⟩

theorem RequestWriter.start_eq_ok (made : Header.make command normal transfer = .ok header)
    (bound : header.totalSize ≤ 64) :
    RequestWriter.start buffer command normal transfer
      = .ok ⟨buffer.splice 0 [header.toWord], header, 1⟩ := by
  have short : ¬ CommandBuffer.size < header.totalSize := Nat.not_lt.2 bound
  rw [RequestWriter.start, made]
  exact (if_neg short).trans rfl

theorem RequestReader.start_eq_ok {stop : Nat} {rest : List UInt32}
    (made : Header.make command normal transfer = .ok header) (begun : 0 < stop)
    (words : buffer.range 0 stop = header.toWord :: rest) :
    RequestReader.start buffer command normal transfer = .ok ⟨buffer, header, 1⟩ := by
  rw [CommandBuffer.range_cons (by omega) begun] at words
  have same : buffer.header = header := by
    rw [CommandBuffer.header, (List.cons.inj words).1, Header.ofWord_toWord]
  rw [RequestReader.start, made]
  exact (if_pos same).trans rfl

/-- A command can be opened with the sizes of its own header. -/
theorem RequestReader.start_self (buffer : CommandBuffer) :
    RequestReader.start buffer buffer.header.command buffer.header.normal buffer.header.transfer
      = .ok ⟨buffer, buffer.header, 1⟩ := by
  have made : Header.make buffer.header.command buffer.header.normal buffer.header.transfer
      = .ok buffer.header := by
    rw [Header.make, dif_pos buffer.header.normal.isLt, dif_pos buffer.header.transfer.isLt]
  rw [RequestReader.start, made]
  exact (if_pos rfl).trans rfl

end

/-- Begin a command in a buffer and fill it with plain values and parcels. -/
def compose (buffer : CommandBuffer) (command : UInt16) (normal transfer : Nat)
    (params : List Param) (parcels : List Parcel) : Except Fault RequestWriter := do
  let writer ← RequestWriter.start buffer command normal transfer
  let (_, writer) ← (Parcel.pushAll params parcels).runFrom writer
  return writer

/-- Open a command that must have these sizes and take plain values and contents of parcels. -/
def interpret (buffer : CommandBuffer) (command : UInt16) (normal transfer : Nat)
    (params : List ParamKind) (parcels : List ParcelKind) :
    Except Fault ((List Param × List Content) × RequestReader) := do
  (Parcel.popAll params parcels).runFrom (← RequestReader.start buffer command normal transfer)

/-- Plain values and parcels that can be sent fill a command of these sizes exactly. -/
structure FillsRegions (params : List Param) (parcels : List Parcel) (normal transfer : Nat) : Prop where
  plain : (params.flatMap Param.toWords).length = normal
  region : (parcels.flatMap Parcel.words).length = transfer
  sendable : ∀ parcel ∈ parcels, parcel.Sendable
  bound : 1 + normal + transfer ≤ 64

namespace FillsRegions

variable {params : List Param} {parcels : List Parcel} {normal transfer : Nat}

theorem fits (fills : FillsRegions params parcels normal transfer) :
    ∀ parcel ∈ parcels, parcel.descriptor.Fits := by
  intro parcel mem
  apply (fills.sendable parcel mem).fits
  obtain ⟨earlier, later, rfl⟩ := List.append_of_mem mem
  have region := fills.region
  have bound := fills.bound
  rw [List.flatMap_append, List.flatMap_cons, List.length_append, List.length_append] at region
  omega

/-- The header of the command. -/
def header (fills : FillsRegions params parcels normal transfer) (command : UInt16) : Header where
  command := command
  normal := ⟨normal, by have := fills.bound; omega⟩
  transfer := ⟨transfer, by have := fills.bound; omega⟩

/-- The words of the command. -/
def words (fills : FillsRegions params parcels normal transfer) (command : UInt16) : List UInt32 :=
  (fills.header command).toWord :: (params.flatMap Param.toWords ++ parcels.flatMap Parcel.words)

variable (fills : FillsRegions params parcels normal transfer) (command : UInt16)

theorem make_eq : Header.make command normal transfer = .ok (fills.header command) := by
  have bound := fills.bound
  rw [Header.make, dif_pos (by omega), dif_pos (by omega)]
  rfl

theorem plainSize : (fills.header command).plainSize = normal + 1 := Nat.add_comm 1 normal

theorem totalSize : (fills.header command).totalSize = 1 + normal + transfer := rfl

theorem length_words : (fills.words command).length = 1 + normal + transfer := by
  rw [words, List.length_cons, List.length_append, fills.plain, fills.region]
  omega

/-- The command when it is begun. -/
def begun (buffer : CommandBuffer) : RequestWriter :=
  ⟨buffer.splice 0 [(fills.header command).toWord], fills.header command, 1⟩

theorem start_writer (buffer : CommandBuffer) :
    RequestWriter.start buffer command normal transfer = .ok (fills.begun command buffer) :=
  RequestWriter.start_eq_ok (fills.make_eq command) fills.bound

/-- A message is written into whatever stood in the buffer. -/
theorem compose_eq_ok (buffer : CommandBuffer) :
    ∃ writer, compose buffer command normal transfer params parcels = .ok writer ∧
      writer.index = 1 + normal + transfer ∧
      writer.buffer.range 0 (1 + normal + transfer) = fills.words command := by
  have length := fills.length_words command
  have fits : 0 + (fills.words command).length ≤ 64 := by
    rw [Nat.zero_add, length]
    exact fills.bound
  have room : (fills.begun command buffer).Room
      (params.flatMap Param.toWords ++ parcels.flatMap Parcel.words).length := by
    rw [words, List.length_cons, Nat.add_comm] at length
    exact ⟨Nat.le_of_eq length, fills.bound⟩
  refine ⟨(fills.begun command buffer).append _, ?_, (Nat.add_comm _ _).trans length, ?_⟩
  · have pushed := Parcel.writes_pushAll fills.fits _ room
    rw [compose, fills.start_writer]
    show (Parcel.pushAll params parcels).runFrom _ >>= _ = _
    rw [Effect.runFrom, pushed]
    rfl
  · -- the header and what was appended behind it are one row of words from the first on
    have spliced : (buffer.splice 0 (fills.words command)).range 0 (0 + _) = fills.words command :=
      CommandBuffer.range_splice_self fits
    rw [Nat.zero_add, length, words, ← List.singleton_append, ← CommandBuffer.splice_splice] at spliced
    exact spliced

/-- The command when it is opened. -/
def opened (buffer : CommandBuffer) : RequestReader :=
  ⟨buffer, fills.header command, 1⟩

theorem start_reader {buffer : CommandBuffer} {rest : List UInt32}
    (words : buffer.range 0 (1 + normal + transfer) = (fills.header command).toWord :: rest) :
    RequestReader.start buffer command normal transfer
      = .ok (fills.opened command buffer) :=
  RequestReader.start_eq_ok (fills.make_eq command) (by omega) words

/-- What has become of a message is read. -/
theorem interpret_eq_ok {buffer : CommandBuffer} {contents : List Content} {processId : UInt32}
    (arrive : List.Forall₂ (Parcel.ArrivesAs processId) parcels contents)
    (words : buffer.range 0 (1 + normal + transfer) = (fills.header command).toWord ::
      (params.flatMap Param.toWords ++ Parcel.arrivedWords parcels contents)) :
    ∃ reader, interpret buffer command normal transfer (params.map Param.kind)
        (parcels.map Parcel.kind) = .ok ((params, contents), reader) ∧
      reader.index = 1 + normal + transfer := by
  have bound := fills.bound
  have length : (params.flatMap Param.toWords ++ Parcel.arrivedWords parcels contents).length
      = normal + transfer := by
    have whole := congrArg List.length words
    rw [CommandBuffer.length_range bound, List.length_cons] at whole
    omega
  have ahead : (fills.opened command buffer).Ahead
      (params.flatMap Param.toWords ++ Parcel.arrivedWords parcels contents) := by
    rw [CommandBuffer.range_cons (by omega) (by omega)] at words
    refine ⟨?_, bound, ?_⟩
    · rw [length]
      exact Nat.le_of_eq (Nat.add_assoc 1 normal transfer).symm
    · rw [length, opened, ← Nat.add_assoc]
      exact (List.cons.inj words).2
  refine ⟨(fills.opened command buffer).passed (normal + transfer), ?_, ?_⟩
  · rw [interpret, fills.start_reader command words]
    show (Parcel.popAll _ _).runFrom _ = _
    rw [Effect.runFrom, Parcel.reads_popAll fills.fits arrive _ ahead, length]
  · rw [RequestReader.passed, opened, Nat.add_assoc]

end FillsRegions

end MicrokernelIpc
