import MicrokernelIpc.Proofs.Delivery.Arrival
import MicrokernelIpc.Proofs.Delivery.Forecast
import MicrokernelIpc.Proofs.Wire.Messages

/-!
# From the sender's values to the receiver's

A command that is written value by value, delivered to another process and read there gives the
receiver what the sender put in: plain values and buffers as they were, the sender's process id, and
handles of the receiver's own for what the sender's handles named.
-/

namespace MicrokernelIpc

/-- Store a command in the command buffer of one thread, deliver it to another and load what arrived
in that one's. -/
def convey (source target : Key Thread) (buffer : CommandBuffer) :
    Attempt DeliveryError CommandBuffer := do
  (storeCommandBuffer source buffer).adapt .memory
  deliverBetween source target
  (loadCommandBuffer target).adapt .memory

namespace Route

variable {route : Route} {ledger final : Ledger} {w w' : World} {process : Process}
variable {parcel : Parcel} {parcels : List Parcel} {new : List UInt32}

/-- What has become of a parcel's payload once it was carried over. -/
theorem CarriesPayload.arrives (sending : w.processes.get? route.sender.owner = some process)
    (carries : route.CarriesPayload parcel.descriptor ledger parcel.payload w new final w') :
    ∃ content, parcel.ArrivesAs process.processId content ∧ new = content.payload := by
  cases parcel with
  | handles moving row =>
    cases carries with
    | handles announced handed =>
      have length : new.length = row.length := handed.length.trans (List.length_map Handle.raw)
      refine ⟨.handles (new.map Handle.mk), .handles (by rw [List.length_map, length]), ?_⟩
      rw [Content.payload, List.map_map]
      exact (List.map_id new).symm
    | callingPid announced => cases moving <;> cases announced
    | buffer other => cases moving <;> cases other
  | callingPid =>
    cases carries with
    | handles announced => cases announced
    | callingPid announced found =>
      obtain rfl := Option.some.inj (sending.symm.trans found)
      exact ⟨.processId _, .callingPid, rfl⟩
    | buffer _ plain => exact absurd rfl plain
  | staticBuffer buffer =>
    cases carries with
    | handles announced => cases announced
    | callingPid announced => cases announced
    | buffer => exact ⟨.staticBuffer buffer, .staticBuffer buffer, rfl⟩
  | mappedBuffer buffer =>
    cases carries with
    | handles announced => cases announced
    | callingPid announced => cases announced
    | buffer => exact ⟨.mappedBuffer buffer, .mappedBuffer buffer, rfl⟩

/-- What has become of a row of parcels once it was walked. -/
theorem Walks.arrive (sending : w.processes.get? route.sender.owner = some process)
    (fits : ∀ parcel ∈ parcels, parcel.descriptor.Fits)
    (walks : route.Walks ledger (parcels.flatMap Parcel.words) w new final w') :
    ∃ contents, List.Forall₂ (Parcel.ArrivesAs process.processId) parcels contents ∧
      new = Parcel.arrivedWords parcels contents := by
  induction parcels generalizing ledger w new process with
  | nil =>
    cases walks with
    | nil => exact ⟨[], .nil, rfl⟩
  | cons parcel rest ih =>
    -- the descriptor that is decoded is the parcel's, and so its payload ends where the parcel does
    generalize same : (parcel :: rest).flatMap Parcel.words = row at walks
    rw [List.flatMap_cons, Parcel.words, List.cons_append] at same
    cases walks with
    | nil => cases same
    | cons decoded length first others =>
      obtain ⟨rfl, tail⟩ := List.cons.inj same
      obtain rfl := Except.ok.inj ((Descriptor.decode_word (fits parcel (by simp))).symm.trans decoded)
      obtain ⟨rfl, rfl⟩ := List.append_inj tail (Parcel.length_payload.trans length.symm)
      obtain ⟨content, arrives, rfl⟩ := first.arrives sending
      obtain ⟨handings, -, -, each⟩ := first.handsEach
      obtain ⟨f, processes⟩ := each.get?_processes route.sender.owner
      rw [sending] at processes
      obtain ⟨contents, all, rfl⟩ := ih processes (fun parcel mem => fits parcel (by simp [mem])) others
      exact ⟨content :: contents, .cons arrives all, rfl⟩

end Route

theorem Route.find?_of_writes (route : Route) {w w' : World} {key : Key Process} {address : UInt32}
    {words : List UInt32} (writes : w.Writes key address words (.ok ()) w') :
    route.find? w' = route.find? w := by
  refine find?_congr ?_ (writes.table?_eq _)
  cases writes with
  | @written process found =>
    by_cases same : key = route.sender.owner
    · subst same
      simp [World.setProcess, Roster.get?_modify, found]
    · simp [World.setProcess, Roster.get?_modify, same]

/-- The words of a buffer that was loaded. -/
theorem AddressSpace.range_ofList_wordsAt {space : AddressSpace} {address count : Nat}
    (bound : count ≤ 64) : (CommandBuffer.ofList
        (space.wordsAt address CommandBuffer.size)).range 0 count = space.wordsAt address count := by
  have length : (space.wordsAt address CommandBuffer.size).length = 64 := length_wordsAt
  rw [CommandBuffer.range_ofList (Nat.le_of_eq length) (bound.trans_eq length.symm), List.drop_zero]
  exact take_wordsAt bound

/-- A message that was composed in a buffer stands where the buffer was stored. -/
theorem FillsRegions.stored {params : List Param} {parcels : List Parcel} {normal transfer : Nat}
    (fills : FillsRegions params parcels normal transfer) (command : UInt16) {space : AddressSpace}
    {address : UInt32} {buffer : CommandBuffer}
    (words : buffer.range 0 (1 + normal + transfer) = fills.words command)
    (mapped : space.checkMapped address (CommandBuffer.size * 4) = .ok ()) :
    (space.setWords address.toNat buffer.toList).headerAt address = fills.header command ∧
      (space.setWords address.toNat buffer.toList).plainAt address
        = (fills.header command).toWord :: params.flatMap Param.toWords ∧
      (space.setWords address.toNat buffer.toList).regionAt address
        = parcels.flatMap Parcel.words := by
  have there : ∀ i < buffer.toList.length * 4, (space.byte? (address.toNat + i)).isSome := by
    rw [buffer.length_toList]
    exact (AddressSpace.checkMapped_eq_ok_iff.1 mapped).2
  have written := AddressSpace.wordsAt_setWords there
  rw [buffer.length_toList] at written
  generalize space.setWords address.toNat buffer.toList = memory at written
  have stands : memory.wordsAt address.toNat (fills.header command).totalSize
      = fills.words command := by
    rw [fills.totalSize, ← AddressSpace.take_wordsAt fills.bound, written, ← words]
    rfl
  obtain ⟨header, all⟩ := AddressSpace.commandAt_eq (Header.ofWord_toWord _) stands
  refine ⟨header, ?_, ?_⟩
  · rw [AddressSpace.plainAt, header, all, fills.plainSize, List.take_succ_cons,
      List.take_left' fills.plain]
  · rw [AddressSpace.regionAt, header, all, fills.plainSize, List.drop_succ_cons,
      List.drop_left' fills.plain]

section

variable {route : Route} {w w' : World} {sender receiver : Process} {source target : Key Thread}
variable {sourceAddress targetAddress : UInt32} {params : List Param} {parcels : List Parcel}
variable {normal transfer : Nat} {command : UInt16}

/-- A command with nothing wrong about it arrives. -/
theorem forecast_eq_ok {handles : List (Bool × Handle)}
    (total : (sender.memory.headerAt sourceAddress).totalSize ≤ CommandBuffer.size)
    (mapped : sender.memory.checkMapped sourceAddress (CommandBuffer.size * 4) = .ok ())
    (surveyed : survey (sender.memory.regionAt sourceAddress) = .ok handles)
    (room : receiver.handles.live + (names (route.find? w) [] handles).countP Option.isSome
      ≤ HandleTable.maxCount)
    (there : receiver.memory.checkMapped targetAddress (CommandBuffer.size * 4) = .ok ()) :
    forecast route w sender receiver sourceAddress targetAddress = .ok () := by
  have head : sender.memory.checkMapped sourceAddress 4 = .ok () :=
    AddressSpace.checkMapped_of_le (by decide) mapped
  have read := AddressSpace.checkMapped_of_le (Nat.mul_le_mul_right 4 total) mapped
  have write := AddressSpace.checkMapped_of_le (Nat.mul_le_mul_right 4 total) there
  have short : ¬ CommandBuffer.size < (sender.memory.headerAt sourceAddress).totalSize :=
    Nat.not_lt.2 total
  have fetched : sender.fetch? sourceAddress = .ok (sender.memory.headerAt sourceAddress,
      .ofList (sender.memory.commandAt sourceAddress)) := by
    rw [AddressSpace.headerAt] at read short
    simp only [Process.fetch?, head, if_neg short, read]
    rfl
  rw [← (Process.ranges_of_fetch? fetched).2] at surveyed
  rw [forecast_of_fetched fetched surveyed, if_neg (Nat.not_lt.2 room), write]
  rfl

/-- A message has arrived at an address of a process. The handles there name the objects. -/
structure FillsRegions.ArrivedAt (fills : FillsRegions params parcels normal transfer) (command : UInt16)
    (processId : UInt32) (objects : List (Option ObjectRef)) (process : Process) (address : UInt32)
    (contents : List Content) : Prop where
  arrive : List.Forall₂ (Parcel.ArrivesAs processId) parcels contents
  named : List.Forall₂ process.handles.Names objects (contents.flatMap Content.handleList)
  mapped : process.memory.checkMapped address (CommandBuffer.size * 4) = .ok ()
  words : process.memory.wordsAt address.toNat (1 + normal + transfer)
    = (fills.header command).toWord ::
      (params.flatMap Param.toWords ++ Parcel.arrivedWords parcels contents)

section

variable (fills : FillsRegions params parcels normal transfer)
variable (apart : route.sender.owner ≠ route.receiver.owner)
variable (sends : w.threads.get? source = some route.sender)
variable (receives : w.threads.get? target = some route.receiver)
variable (sending : w.processes.get? route.sender.owner = some sender)
variable (receiving : w.processes.get? route.receiver.owner = some receiver)
include apart sends receives sending receiving

/-- What has become of a message that was delivered to another process. -/
theorem Delivers.arrivedAt (wf : receiver.handles.WellFormed)
    (loads : receiver.memory.checkMapped targetAddress (CommandBuffer.size * 4) = .ok ())
    (header : sender.memory.headerAt sourceAddress = fills.header command)
    (plain : sender.memory.plainAt sourceAddress
      = (fills.header command).toWord :: params.flatMap Param.toWords)
    (region : sender.memory.regionAt sourceAddress = parcels.flatMap Parcel.words)
    (delivers : Delivers source target sourceAddress targetAddress w (.ok ()) w') :
    w'.threads = w.threads ∧ ∃ contents last,
      w'.processes.get? route.receiver.owner = some last ∧
      fills.ArrivedAt command sender.processId
        (names (route.find? w) [] (parcels.flatMap Parcel.handleList)) last targetAddress
        contents := by
  have tables := Route.senderTable_ne apart
  obtain ⟨new, ledger, held, arrives⟩ := delivers.arrives sends receives
    (show w.memory? route.sender.owner = some sender.memory by simp [World.memory?, sending])
    (show w.memory? route.receiver.owner = some receiver.memory by simp [World.memory?, receiving])
  have walks := arrives.walks
  rw [region] at walks
  obtain ⟨contents, arrive, rfl⟩ := walks.arrive sending fills.fits
  obtain ⟨handings, sent, received, each⟩ := walks.handsEach
  have objects : names (route.find? w) [] (parcels.flatMap Parcel.handleList)
      = handings.map Handing.object := by
    have surveyed := Except.ok.inj ((Parcel.survey_words fills.fits).symm.trans sent)
    have named := each.names_eq tables []
    rwa [← surveyed, List.append_nil, names, List.append_nil] at named
  have issued : contents.flatMap Content.handleList = handings.map Handing.issued := by
    obtain ⟨handles, surveyed, same⟩ := Parcel.survey_arrivedWords fills.fits arrive
    rw [← same, Except.ok.inj (surveyed.symm.trans received), List.map_map]
    rfl
  obtain ⟨table, there, named⟩ := each.issued_names (World.table?_receiverTable receiving) wf
  rw [← arrives.others _ tables] at there
  obtain ⟨last, found, rfl⟩ := Option.map_eq_some_iff.1 there
  have memory : last.memory = receiver.memory.setWords targetAddress.toNat _ :=
    Option.some.inj ((congrArg (Option.map Process.memory) found).symm.trans arrives.memory)
  refine ⟨arrives.threads, contents, last, found, arrive, ?_, ?_, ?_⟩
  · rw [objects, issued]
    exact named
  · rw [memory, AddressSpace.checkMapped_setWords]
    exact loads
  · have words := arrives.wordsAt
    rw [← memory, header, fills.totalSize, plain, List.cons_append] at words
    exact words

variable {past : World} {inserted : Nat} {held : Multiset ObjectRef}
variable (sound : World.Sound True past inserted held w)
variable (stores : sender.memory.checkMapped route.sender.commandBufferAddress
  (CommandBuffer.size * 4) = .ok ())
variable (loads : receiver.memory.checkMapped route.receiver.commandBufferAddress
  (CommandBuffer.size * 4) = .ok ())
variable (room : receiver.handles.live
    + (names (route.find? w) [] (parcels.flatMap Parcel.handleList)).countP Option.isSome
  ≤ HandleTable.maxCount)
include sound stores loads room

/-- A message that stands in the sender's command buffer arrives in the receiver's. -/
theorem leads_deliverBetween_of_fills
    (header : sender.memory.headerAt route.sender.commandBufferAddress = fills.header command)
    (plain : sender.memory.plainAt route.sender.commandBufferAddress
      = (fills.header command).toWord :: params.flatMap Param.toWords)
    (region : sender.memory.regionAt route.sender.commandBufferAddress
      = parcels.flatMap Parcel.words) :
    Leads w (deliverBetween source target).run
      (fun outcome next => outcome = .ok () ∧ next.threads = w.threads ∧ ∃ contents last,
        next.processes.get? route.receiver.owner = some last ∧
        fills.ArrivedAt command sender.processId
          (names (route.find? w) [] (parcels.flatMap Parcel.handleList)) last
          route.receiver.commandBufferAddress contents) fun _ => False := by
  have wf : receiver.handles.WellFormed :=
    sound.tables route.receiverTable _ (World.table?_receiverTable receiving)
  have promised : forecast route w sender receiver route.sender.commandBufferAddress
      route.receiver.commandBufferAddress = .ok () := by
    refine forecast_eq_ok ?_ stores ?_ room loads
    · rw [header]
      exact fills.bound
    · rw [region]
      exact Parcel.survey_words fills.fits
  have delivers := leads_deliverBetween sound sends receives (by simp [sending])
    (by simp [receiving])
  refine delivers.mono (fun outcome next delivers => ?_) fun _ h => h
  obtain rfl := (delivers.outcome_eq apart sends receives sending receiving wf).trans promised
  exact ⟨rfl, delivers.arrivedAt fills apart sends receives sending receiving wf loads header plain
    region⟩

/-- A message that was composed is stored, arrives and is interpreted. -/
theorem leads_convey (within : World.Within held w) {buffer : CommandBuffer}
    (words : buffer.range 0 (1 + normal + transfer) = fills.words command) :
    Leads w (convey source target buffer).run
      (fun outcome next => ∃ arrived contents reader last, outcome = .ok arrived ∧
        interpret arrived command normal transfer (params.map Param.kind) (parcels.map Parcel.kind)
          = .ok ((params, contents), reader) ∧
        reader.index = 1 + normal + transfer ∧
        next.processes.get? route.receiver.owner = some last ∧
        fills.ArrivedAt command sender.processId
          (names (route.find? w) [] (parcels.flatMap Parcel.handleList)) last
          route.receiver.commandBufferAddress contents) fun _ => False := by
  unfold convey
  have store : Leads w (storeCommandBuffer source buffer).run _ _ :=
    leads_storeCommandBuffer_of_mapped sends sending stores
  refine (store.adapt DeliveryError.memory).bindRun ?_ ?_
  · rintro ⟨⟩ stored ⟨outcome, -, rfl, writes⟩
    -- storing changes the sender's memory alone, so nothing else has to be looked at again
    rw [← route.find?_of_writes writes] at room ⊢
    rw [← writes.threads_eq] at sends receives
    rw [← writes.get?_processes_of_ne apart] at receiving
    obtain ⟨header, plain, region⟩ := fills.stored command words stores
    have delivers := leads_deliverBetween_of_fills fills apart sends receives
      (writes.get?_processes sending) receiving (writes.sound sound fun _ => within).1
      (AddressSpace.checkMapped_setWords.trans stores) loads room header plain region
    refine delivers.bindRun ?_ ?_
    · rintro ⟨⟩ delivered ⟨-, threads, contents, last, there, arrived⟩
      rw [← threads] at receives
      have load := leads_loadCommandBuffer_of_mapped receives there arrived.mapped
      refine (load.adapt DeliveryError.memory).mono ?_ fun _ h => h
      rintro outcome next ⟨first, rfl, rfl, rfl⟩
      have whole := (AddressSpace.range_ofList_wordsAt fills.bound).trans arrived.words
      obtain ⟨reader, interpreted, index⟩ := fills.interpret_eq_ok command arrived.arrive whole
      exact ⟨_, contents, reader, last, rfl, interpreted, index, there, arrived⟩
    · rintro error delivered ⟨refused, -⟩
      cases refused
  · rintro error stored ⟨outcome, refused, rfl, -⟩
    cases refused

end

/-- **What a sender puts in is what the receiver takes out.** Plain values and parcels that fill a
command exactly are composed, arrive in the command buffer of another process that has room for
their handles, and are interpreted there, all without a fault or a refusal. Plain values and buffers
are as they were, the process id is the sender's, and handles are zero or name in the receiver's
table what the sender's named. -/
theorem convey_marshals (route : Route) {s : Situation} (run : Run Situation.WithinLimits .new s)
    (sends : s.machine.world.threads.get? source = some route.sender)
    (receives : s.machine.world.threads.get? target = some route.receiver)
    (sending : s.machine.world.processes.get? route.sender.owner = some sender)
    (receiving : s.machine.world.processes.get? route.receiver.owner = some receiver)
    (apart : route.sender.owner ≠ route.receiver.owner)
    (stores : sender.memory.checkMapped route.sender.commandBufferAddress
      (CommandBuffer.size * 4) = .ok ())
    (loads : receiver.memory.checkMapped route.receiver.commandBufferAddress
      (CommandBuffer.size * 4) = .ok ())
    (fills : FillsRegions params parcels normal transfer)
    (room : receiver.handles.live + (names (route.find? s.machine.world) []
        (parcels.flatMap Parcel.handleList)).countP Option.isSome ≤ HandleTable.maxCount)
    (command : UInt16) (buffer : CommandBuffer) :
    ∃ writer arrived machine contents reader last,
      compose buffer command normal transfer params parcels = .ok writer ∧
      (convey source target writer.buffer).run s.machine = .ok (.ok arrived) machine ∧
      interpret arrived command normal transfer (params.map Param.kind) (parcels.map Parcel.kind)
        = .ok ((params, contents), reader) ∧
      reader.index = 1 + normal + transfer ∧
      List.Forall₂ (Parcel.ArrivesAs sender.processId) parcels contents ∧
      machine.world.processes.get? route.receiver.owner = some last ∧
      List.Forall₂ last.handles.Names
        (names (route.find? s.machine.world) [] (parcels.flatMap Parcel.handleList))
        (contents.flatMap Content.handleList) := by
  obtain ⟨sound, within⟩ := run.sound_of_new
  obtain ⟨writer, composed, -, words⟩ := fills.compose_eq_ok command buffer
  obtain ⟨outcome, machine, returned, arrived, contents, reader, last, rfl, interpreted, index, there,
      stands⟩ :=
    (leads_convey fills apart sends receives sending receiving sound stores loads room within.1
      words).returns
  exact ⟨writer, arrived, machine, contents, reader, last, composed, returned, interpreted, index,
    stands.arrive, there, stands.named⟩

/-- A client and a server, each with a thread. The client has a handle to an event. -/
def Situation.introduced : Situation :=
  performAll [.createProcess "client", .createProcess "server", .createThread ⟨0⟩ "client",
    .createThread ⟨1⟩ "server", .createEvent "event" .oneShot,
    .create (.process ⟨0⟩) ⟨⟨0⟩, ⟨5⟩⟩]

theorem Situation.run_introduced : Run WithinLimits .new introduced :=
  run_performAll (by decide) (by decide +kernel)

/-- The server is asked with a number, a handle and the client's process id. -/
theorem convey_marshals_introduced : ∃ writer arrived machine received reader,
    compose .zero 5 1 4 [.uint32 7] [.handles true [⟨1⟩], .callingPid] = .ok writer ∧
      (convey ⟨0⟩ ⟨1⟩ writer.buffer).run Situation.introduced.machine = .ok (.ok arrived) machine ∧
      interpret arrived 5 1 4 [.uint32] [.handles, .callingPid]
        = .ok (([.uint32 7], [.handles [received], .processId 0]), reader) ∧
      received ≠ .invalid := by
  have parties : ∃ (route : Route) (sender receiver : Process),
      Situation.introduced.machine.world.threads.get? ⟨0⟩ = some route.sender ∧
        Situation.introduced.machine.world.threads.get? ⟨1⟩ = some route.receiver ∧
        Situation.introduced.machine.world.processes.get? route.sender.owner = some sender ∧
        Situation.introduced.machine.world.processes.get? route.receiver.owner = some receiver ∧
        route.sender.owner ≠ route.receiver.owner ∧
        sender.memory.checkMapped route.sender.commandBufferAddress 256 = .ok () ∧
        receiver.memory.checkMapped route.receiver.commandBufferAddress 256 = .ok () ∧
        sender.processId = 0 ∧ receiver.handles.live = 0 ∧
        names (route.find? Situation.introduced.machine.world) [] [(true, ⟨1⟩)]
          = [some ⟨⟨0⟩, ⟨5⟩⟩] :=
    ⟨⟨_, _⟩, _, _, rfl, rfl, rfl, rfl, by decide +kernel, by decide +kernel, by decide +kernel,
      by decide +kernel, by decide +kernel, by decide +kernel⟩
  obtain ⟨route, sender, receiver, sends, receives, sending, receiving, apart, stores, loads, id, live,
    named⟩ := parties
  have fills : FillsRegions [.uint32 7] [.handles true [⟨1⟩], .callingPid] 1 4 :=
    ⟨rfl, rfl, by simp [Parcel.Sendable], by decide⟩
  have handles : [Parcel.handles true [⟨1⟩], .callingPid].flatMap Parcel.handleList
      = [(true, ⟨1⟩)] := rfl
  have room : receiver.handles.live + (names (route.find? Situation.introduced.machine.world) []
      ([Parcel.handles true [⟨1⟩], .callingPid].flatMap Parcel.handleList)).countP Option.isSome
        ≤ HandleTable.maxCount := by
    rw [live, handles, named]
    decide
  obtain ⟨writer, arrived, machine, contents, reader, last, composed, conveyed, interpreted, -, arrive,
      -, names⟩ :=
    convey_marshals route Situation.run_introduced sends receives sending receiving apart stores loads
      fills room 5 .zero
  rw [handles, named] at names
  rw [id] at arrive
  rcases arrive with _ | ⟨⟨length⟩, _ | ⟨⟨⟩, ⟨⟩⟩⟩
  obtain ⟨received, rfl⟩ := List.length_eq_one_iff.1 length
  obtain _ | ⟨⟨valid, -⟩, -⟩ := names
  exact ⟨writer, arrived, machine, received, reader, composed, conveyed, interpreted, valid⟩

end

end MicrokernelIpc
