import Mathlib.Data.List.Forall2
import MicrokernelIpc.Proofs.Delivery.Survey
import MicrokernelIpc.Proofs.Wire.Cursors
import MicrokernelIpc.Proofs.Wire.Encoding

/-!
# Parcels

A transfer region is written and read parcel by parcel, each a descriptor with its payload. What was
appended as a parcel is taken as one of its kind, whatever has become of handles and process slots
on the way.
-/

namespace MicrokernelIpc

/-- What a sender puts into a transfer region at a time. -/
inductive Parcel
  | handles (moving : Bool) (row : List Handle)
  | callingPid
  | staticBuffer (buffer : StaticBuffer)
  | mappedBuffer (buffer : MappedBuffer)

/-- The kinds of parcels that a receiver tells apart. -/
inductive ParcelKind
  | handles | callingPid | staticBuffer | mappedBuffer

/-- What a receiver takes out of a transfer region at a time. -/
inductive Content
  | handles (row : List Handle)
  | processId (id : UInt32)
  | staticBuffer (buffer : StaticBuffer)
  | mappedBuffer (buffer : MappedBuffer)

namespace Content

/-- The payload of a parcel with this content. -/
def payload : Content → List UInt32
  | .handles row => row.map Handle.raw
  | .processId id => [id]
  | .staticBuffer buffer => [buffer.address]
  | .mappedBuffer buffer => [buffer.address]

/-- The handles among a content. -/
def handleList : Content → List Handle
  | .handles row => row
  | _ => []

end Content

namespace Descriptor

/-- The kind of the parcel that a descriptor begins. -/
def kind : Descriptor → ParcelKind
  | .copyHandle _ => .handles
  | .moveHandle _ => .handles
  | .callingPid => .callingPid
  | .staticBuffer _ _ => .staticBuffer
  | .mappedBuffer _ _ => .mappedBuffer

/-- The content of a parcel: the fields of its descriptor and its payload. -/
def content : Descriptor → List UInt32 → Content
  | .copyHandle _, payload => .handles (payload.map Handle.mk)
  | .moveHandle _, payload => .handles (payload.map Handle.mk)
  | .callingPid, payload => .processId (payload.headD 0)
  | .staticBuffer bufferId size, payload => .staticBuffer ⟨payload.headD 0, size, bufferId⟩
  | .mappedBuffer size permission, payload => .mappedBuffer ⟨payload.headD 0, size, permission⟩

end Descriptor

namespace Parcel

/-- The kind of a parcel. -/
def kind : Parcel → ParcelKind
  | .handles .. => .handles
  | .callingPid => .callingPid
  | .staticBuffer _ => .staticBuffer
  | .mappedBuffer _ => .mappedBuffer

/-- The descriptor of a parcel. -/
def descriptor : Parcel → Descriptor
  | .handles false row => .copyHandle row.length
  | .handles true row => .moveHandle row.length
  | .callingPid => .callingPid
  | .staticBuffer buffer => .staticBuffer buffer.bufferId buffer.size
  | .mappedBuffer buffer => .mappedBuffer buffer.size buffer.permission

/-- The payload as it is sent. The slot of the calling process is empty. -/
def payload : Parcel → List UInt32
  | .handles _ row => row.map Handle.raw
  | .callingPid => [0]
  | .staticBuffer buffer => [buffer.address]
  | .mappedBuffer buffer => [buffer.address]

/-- The words of a parcel as it is sent. -/
def words (parcel : Parcel) : List UInt32 := parcel.descriptor.word :: parcel.payload

/-- The handles of a parcel, each with whether it is moved. -/
def handleList : Parcel → List (Bool × Handle)
  | .handles moving row => row.map fun handle => (moving, handle)
  | _ => []

/-- The parcels that can be sent: with at least one handle, and with a size and a slot that fit. -/
def Sendable : Parcel → Prop
  | .handles _ row => row ≠ []
  | .callingPid => True
  | .staticBuffer buffer => buffer.bufferId ≤ 15 ∧ buffer.size < 0x40000
  | .mappedBuffer buffer => buffer.size < 0x10000000

/-- What a parcel arrives as from a process with this id: the handles are others, as many, and the
rest is the same. -/
inductive ArrivesAs (processId : UInt32) : Parcel → Content → Prop
  | handles {moving : Bool} {sent received : List Handle} (length : received.length = sent.length) :
      ArrivesAs processId (.handles moving sent) (.handles received)
  | callingPid : ArrivesAs processId .callingPid (.processId processId)
  | staticBuffer (buffer : StaticBuffer) :
      ArrivesAs processId (.staticBuffer buffer) (.staticBuffer buffer)
  | mappedBuffer (buffer : MappedBuffer) :
      ArrivesAs processId (.mappedBuffer buffer) (.mappedBuffer buffer)

/-- Append a parcel to a command. -/
def push : Parcel → Writing Unit
  | .handles false row => RequestWriter.pushCopyHandles row
  | .handles true row => RequestWriter.pushMoveHandles row
  | .callingPid => RequestWriter.pushCallingPid
  | .staticBuffer buffer => RequestWriter.pushStaticBuffer buffer
  | .mappedBuffer buffer => RequestWriter.pushMappedBuffer buffer

/-- Take a parcel of a kind out of a command. -/
def pop : ParcelKind → Reading Content
  | .handles => do return .handles (← RequestReader.popHandles)
  | .callingPid => do return .processId (← RequestReader.popPid)
  | .staticBuffer => do return .staticBuffer (← RequestReader.popStaticBuffer)
  | .mappedBuffer => do return .mappedBuffer (← RequestReader.popMappedBuffer)

variable {parcel : Parcel} {content : Content} {processId : UInt32}

theorem length_payload : parcel.payload.length = parcel.descriptor.payloadWords := by
  rcases parcel with ⟨_ | _, _⟩ | _ | _ | _ <;> simp [payload, descriptor, Descriptor.payloadWords]

theorem handles_payload : parcel.descriptor.handles parcel.payload = parcel.handleList := by
  rcases parcel with ⟨_ | _, _⟩ | _ | _ | _ <;>
    simp [payload, descriptor, Descriptor.handles, Descriptor.moves?, handleList]

/-- The descriptor of a parcel that can be sent and fits into a command can be encoded. -/
theorem Sendable.fits (sendable : parcel.Sendable) (short : parcel.words.length ≤ 64) :
    parcel.descriptor.Fits := by
  cases parcel with
  | handles moving row =>
    have some : 1 ≤ row.length := List.length_pos_iff.2 sendable
    -- a command is too short for more handles than a descriptor can announce
    have few : row.length ≤ Descriptor.maxHandles := by
      simp only [words, payload, List.length_cons, List.length_map] at short
      exact Nat.le_of_succ_le short
    cases moving <;> exact ⟨some, few⟩
  | callingPid => trivial
  | staticBuffer buffer =>
    exact ⟨BitField.fits_iff.2 (Nat.lt_succ_of_le sendable.1), BitField.fits_iff.2 sendable.2⟩
  | mappedBuffer buffer => exact BitField.fits_iff.2 sendable

/-! ## Written and read -/

section

open RequestWriter

variable {descriptor : Descriptor}

theorem writes_pushDescriptor (fits : descriptor.Fits) :
    Writes (pushDescriptor descriptor) [descriptor.word] ⟨⟩ :=
  Writes.of_ok (descriptor.encode_eq_ok fits) writes_pushWords

theorem writes_pushHandles {row : List Handle} (fits : descriptor.Fits) :
    Writes (pushHandles descriptor row) (descriptor.word :: row.map Handle.raw) ⟨⟩ := by
  rw [List.map_eq_flatMap]
  have handles : Writes (row.forM fun handle => pushWord handle.raw)
      (row.flatMap fun handle => [handle.raw]) ⟨⟩ := Writes.forM fun _ _ => writes_pushWords
  exact (writes_pushDescriptor fits).bind handles

theorem checkCount_eq_ok {count : Nat} (low : 1 ≤ count) (high : count ≤ Descriptor.maxHandles) :
    Descriptor.checkCount count = .ok () :=
  if_pos ⟨low, high⟩

theorem writes_push (fits : parcel.descriptor.Fits) : Writes parcel.push parcel.words ⟨⟩ := by
  rcases parcel with ⟨_ | _, row⟩ | _ | buffer | buffer
  · have counted : Descriptor.copyHandles row.length = .ok (.copyHandle row.length) := by
      rw [Descriptor.copyHandles, checkCount_eq_ok fits.1 fits.2]
      rfl
    exact Writes.of_ok counted (writes_pushHandles fits)
  · have counted : Descriptor.moveHandles row.length = .ok (.moveHandle row.length) := by
      rw [Descriptor.moveHandles, checkCount_eq_ok fits.1 fits.2]
      rfl
    exact Writes.of_ok counted (writes_pushHandles fits)
  all_goals exact (writes_pushDescriptor fits).bind writes_pushWords

theorem ArrivesAs.length_payload (arrives : parcel.ArrivesAs processId content) :
    content.payload.length = parcel.descriptor.payloadWords := by
  cases arrives with
  | @handles moving _ _ length =>
    cases moving <;> simpa [Content.payload, descriptor, Descriptor.payloadWords] using length
  | callingPid => rfl
  | staticBuffer => rfl
  | mappedBuffer => rfl

theorem ArrivesAs.handles_payload (arrives : parcel.ArrivesAs processId content) :
    (parcel.descriptor.handles content.payload).map Prod.snd = content.handleList := by
  cases arrives with
  | @handles moving =>
    cases moving <;>
      simp [Content.payload, Content.handleList, descriptor, Descriptor.handles, Descriptor.moves?,
        Function.comp_def]
  | callingPid => rfl
  | staticBuffer => rfl
  | mappedBuffer => rfl

end

section

open RequestReader

theorem reads_popHandles {descriptor : Descriptor} {word : UInt32} {payload : List UInt32}
    (decoded : Descriptor.decode word = .ok descriptor) (handles : descriptor.isHandle = true)
    (length : payload.length = descriptor.payloadWords) :
    Reads popHandles (word :: payload) (payload.map Handle.mk) := by
  unfold popHandles
  refine (reads_popDescriptor decoded).bind ?_
  rw [if_pos handles]
  exact (reads_popWords length).bind_pure _

/-- Whatever word spells a descriptor, the descriptor and its payload are taken as a parcel of its
kind. -/
theorem reads_pop {descriptor : Descriptor} {word : UInt32} {payload : List UInt32}
    (decoded : Descriptor.decode word = .ok descriptor)
    (length : payload.length = descriptor.payloadWords) :
    Reads (pop descriptor.kind) (word :: payload) (descriptor.content payload) := by
  cases descriptor with
  | copyHandle count | moveHandle count =>
    exact (reads_popHandles decoded rfl length).bind_pure Content.handles
  | callingPid =>
    obtain ⟨id, rfl⟩ := List.length_eq_one_iff.1 length
    have taken : Reads popPid [word, id] id := (reads_popDescriptor decoded).bind reads_popWord
    exact taken.bind_pure Content.processId
  | staticBuffer bufferId size =>
    obtain ⟨address, rfl⟩ := List.length_eq_one_iff.1 length
    have taken : Reads popStaticBuffer [word, address] ⟨address, size, bufferId⟩ :=
      (reads_popDescriptor decoded).bind (reads_popWord.bind_pure _)
    exact taken.bind_pure Content.staticBuffer
  | mappedBuffer size permission =>
    obtain ⟨address, rfl⟩ := List.length_eq_one_iff.1 length
    have taken : Reads popMappedBuffer [word, address] ⟨address, size, permission⟩ :=
      (reads_popDescriptor decoded).bind (reads_popWord.bind_pure _)
    exact taken.bind_pure Content.mappedBuffer

/-- What has arrived of a parcel is what its descriptor is taken as. -/
theorem ArrivesAs.eq_content (arrives : parcel.ArrivesAs processId content) :
    parcel.kind = parcel.descriptor.kind ∧ content = parcel.descriptor.content content.payload := by
  cases arrives with
  | @handles moving sent received length =>
    have same : (received.map Handle.raw).map Handle.mk = received := by
      rw [List.map_map]
      exact List.map_id received
    cases moving <;> exact ⟨rfl, congrArg Content.handles same.symm⟩
  | callingPid | staticBuffer | mappedBuffer => exact ⟨rfl, rfl⟩

/-- What has arrived of a parcel is taken as one of its kind. -/
theorem ArrivesAs.reads (arrives : parcel.ArrivesAs processId content)
    (fits : parcel.descriptor.Fits) :
    Reads (pop parcel.kind) (parcel.descriptor.word :: content.payload) content := by
  obtain ⟨kind, same⟩ := arrives.eq_content
  have taken := reads_pop (Descriptor.decode_word fits) arrives.length_payload
  rwa [← kind, ← same] at taken

end

/-! ## Rows of parcels -/

/-- The words of parcels as they arrive, with what has become of their payloads. -/
def arrivedWords : List Parcel → List Content → List UInt32
  | parcel :: parcels, content :: contents =>
    parcel.descriptor.word :: (content.payload ++ arrivedWords parcels contents)
  | _, _ => []

/-- Append plain values and then parcels. -/
def pushAll (params : List Param) (parcels : List Parcel) : Writing Unit := do
  params.forM RequestWriter.push
  parcels.forM push

/-- Take plain values and then parcels. -/
def popAll (params : List ParamKind) (parcels : List ParcelKind) :
    Reading (List Param × List Content) := do
  let params ← params.mapM RequestReader.pop
  let contents ← parcels.mapM pop
  return (params, contents)

variable {params : List Param} {parcels : List Parcel} {contents : List Content}
variable (fits : ∀ parcel ∈ parcels, parcel.descriptor.Fits)
include fits

theorem survey_words : survey (parcels.flatMap words) = .ok (parcels.flatMap handleList) := by
  induction parcels with
  | nil => exact survey_nil
  | cons parcel rest ih =>
    have decoded := Descriptor.decode_word (fits parcel (by simp))
    rw [List.flatMap_cons, List.flatMap_cons, words, List.cons_append,
      survey_cons decoded length_payload, ih fun parcel mem => fits parcel (by simp [mem]),
      handles_payload]
    rfl

theorem writes_pushAll : RequestWriter.Writes (pushAll params parcels)
    (params.flatMap Param.toWords ++ parcels.flatMap words) ⟨⟩ := by
  have plain : RequestWriter.Writes (params.forM RequestWriter.push) (params.flatMap Param.toWords)
      ⟨⟩ := RequestWriter.Writes.forM fun _ _ => RequestWriter.writes_pushWords
  have rest : RequestWriter.Writes (parcels.forM push) (parcels.flatMap words) ⟨⟩ :=
    RequestWriter.Writes.forM fun parcel mem => writes_push (fits parcel mem)
  exact plain.bind rest

variable (arrive : List.Forall₂ (ArrivesAs processId) parcels contents)
include arrive

theorem survey_arrivedWords : ∃ handles, survey (arrivedWords parcels contents) = .ok handles ∧
    handles.map Prod.snd = contents.flatMap Content.handleList := by
  induction arrive with
  | nil => exact ⟨[], survey_nil, rfl⟩
  | @cons parcel content _ _ first _ ih =>
    obtain ⟨handles, surveyed, same⟩ := ih fun parcel mem => fits parcel (by simp [mem])
    have decoded := Descriptor.decode_word (fits parcel (by simp))
    refine ⟨parcel.descriptor.handles content.payload ++ handles, ?_, ?_⟩
    · rw [arrivedWords, survey_cons decoded first.length_payload, surveyed]
      rfl
    · rw [List.map_append, same, first.handles_payload, List.flatMap_cons]

theorem reads_mapM_pop :
    RequestReader.Reads ((parcels.map kind).mapM pop) (arrivedWords parcels contents) contents := by
  induction arrive with
  | nil => exact RequestReader.reads_pure
  | cons first _ ih =>
    rw [List.map_cons, List.mapM_cons]
    have others := ih fun parcel mem => fits parcel (by simp [mem])
    exact (first.reads (fits _ (by simp))).bind (others.bind_pure _)

theorem reads_popAll : RequestReader.Reads (popAll (params.map Param.kind) (parcels.map kind))
    (params.flatMap Param.toWords ++ arrivedWords parcels contents) (params, contents) := by
  have plain : RequestReader.Reads ((params.map Param.kind).mapM RequestReader.pop)
      (params.flatMap Param.toWords) params := by
    have taken := RequestReader.Reads.mapM fun param (_ : param ∈ params) =>
      RequestReader.reads_pop param
    rw [List.map_id'] at taken
    rw [List.mapM_map]
    exact taken
  exact plain.bind ((reads_mapM_pop fits arrive).bind_pure _)

end Parcel

end MicrokernelIpc
