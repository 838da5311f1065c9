import MicrokernelIpc.Proofs.Delivery.Names
import MicrokernelIpc.Proofs.Delivery.Returning
import MicrokernelIpc.Proofs.HandleTable.FiniteMap
import MicrokernelIpc.Proofs.Memory.ReadBack

/-!
# How a delivery ends

How a delivery between two processes ends is settled when it begins. It ends with the first thing
that is wrong, in this order: the command's memory, its length, its transfer region, the room in
the receiver's handle table, the receiver's memory.
-/

namespace MicrokernelIpc

/-- How a delivery between two processes ends, told from the world in which it begins. -/
def forecast (route : Route) (w : World) (sender receiver : Process)
    (sourceAddress targetAddress : UInt32) : Except DeliveryError Unit := do
  (sender.memory.checkMapped sourceAddress 4).mapError .memory
  let header := Header.ofWord (sender.memory.wordAt sourceAddress.toNat)
  if CommandBuffer.size < header.totalSize then throw .commandTooLarge
  (sender.memory.checkMapped sourceAddress (header.totalSize * 4)).mapError .memory
  let words := sender.memory.wordsAt sourceAddress.toNat header.totalSize
  let handles ← survey (words.drop header.plainSize)
  let naming := (names (route.find? w) [] handles).countP Option.isSome
  if HandleTable.maxCount < receiver.handles.live + naming then throw .outOfHandles
  (receiver.memory.checkMapped targetAddress (header.totalSize * 4)).mapError .memory

variable {route : Route} {w w' held : World} {sender receiver : Process} {header : Header}
variable {sourceAddress targetAddress : UInt32} {source target : Key Thread}
variable {command : CommandBuffer} {error : DeliveryError}

/-- A command is surveyed first. -/
theorem forecast_eq : forecast route w sender receiver sourceAddress targetAddress
    = (sender.survey? sourceAddress).bind fun handles =>
        let header := Header.ofWord (sender.memory.wordAt sourceAddress.toNat)
        let naming := (names (route.find? w) [] handles).countP Option.isSome
        if HandleTable.maxCount < receiver.handles.live + naming then .error .outOfHandles
        else (receiver.memory.checkMapped targetAddress (header.totalSize * 4)).mapError .memory := by
  unfold forecast Process.survey? Process.fetch?
  cases sender.memory.checkMapped sourceAddress 4 with
  | error => rfl
  | ok =>
    generalize Header.ofWord (sender.memory.wordAt sourceAddress.toNat) = header
    by_cases long : CommandBuffer.size < header.totalSize
    · simp only [Except.mapError, if_pos long]
      rfl
    · cases mapped : sender.memory.checkMapped sourceAddress (header.totalSize * 4) with
      | error =>
        simp only [Except.mapError, if_neg long, mapped]
        rfl
      | ok =>
        have region : (CommandBuffer.ofList
            (sender.memory.wordsAt sourceAddress.toNat header.totalSize)).range header.plainSize
              header.totalSize
            = (sender.memory.wordsAt sourceAddress.toNat header.totalSize).drop header.plainSize := by
          rw [CommandBuffer.range_ofList (by simpa [CommandBuffer.size] using long) (by simp),
            List.take_of_length_le (by simp)]
        simp only [Except.mapError, if_neg long, mapped, ← region]
        rfl

section

variable {handings : List Handing} {ledger last : Ledger} {moving : Bool} {handle : Handle}

variable (apart : route.senderTable ≠ route.receiverTable)
variable (receiving : w.processes.get? route.receiver.owner = some receiver)
variable (wf : receiver.handles.WellFormed)
include apart receiving wf

/-- Where all handles were handed over there was room for those that name something. -/
theorem Route.HandsEach.room (each : route.HandsEach .empty handings w ledger held) :
    receiver.handles.live
        + (names (route.find? w) [] (handings.map Handing.sent)).countP Option.isSome
      ≤ HandleTable.maxCount := by
  obtain ⟨table, -, extended⟩ := each.extends (World.table?_receiverTable receiving) wf.extends
  have named := each.names_eq apart []
  rw [List.append_nil, names, List.append_nil] at named
  have bound := extended.wellFormed.live_le
  rw [extended.live, List.nil_append, Handing.length_grants, ← named] at bound
  exact bound

/-- Where a handle was not handed over there was no room for it. -/
theorem Route.StopsAt.no_room (rest : List (Bool × Handle))
    (stops : route.StopsAt .empty handings moving handle w held last w') :
    HandleTable.maxCount < receiver.handles.live
      + (names (route.find? w) [] (handings.map Handing.sent ++ (moving, handle) :: rest)).countP
          Option.isSome := by
  obtain ⟨before, full⟩ := stops
  obtain ⟨table, found, extended⟩ := before.extends (World.table?_receiverTable receiving) wf.extends
  have named := before.names_eq apart ((moving, handle) :: rest)
  have live := extended.live
  rw [List.nil_append, Handing.length_grants] at live
  cases full with
  | full looked retained found' refused released =>
    obtain rfl := Option.some.inj (found.symm.trans found')
    have full := extended.wellFormed.allocate_eq_none_iff.1 refused
    have looks : (if last.moved.contains handle then none else route.find? held handle)
        = some _ := looked
    rw [show ([] : List Handle) = Ledger.empty.moved from rfl, named, names, looks,
      List.countP_append, List.countP_cons_of_pos rfl]
    omega

end

section

variable {ledger : Ledger} {items : List RegionItem} {after : CommandBuffer}
variable {outcome : Except DeliveryError Unit} {words : List UInt32}

/-- What is forecast depends on what handles name, on how many handles the receiver has and on its
memory. -/
theorem forecast_congr {other : Process} (find : route.find? w' = route.find? w)
    (live : other.handles.live = receiver.handles.live) (memory : other.memory = receiver.memory) :
    forecast route w' sender other sourceAddress targetAddress
      = forecast route w sender receiver sourceAddress targetAddress := by
  unfold forecast
  rw [find, live, memory]

/-- Where the receiver's table is another, the rest of what a delivery starts from is the same. -/
theorem parties_of_setTable {next : HandleTable} {arenas : Roster Arena}
    (apart : route.sender.owner ≠ route.receiver.owner)
    (sending : w.processes.get? route.sender.owner = some sender)
    (receiving : w.processes.get? route.receiver.owner = some receiver)
    (left : w' = (w.setTable next route.receiverTable).withArenas arenas) :
    w'.threads = w.threads ∧ w'.processes.get? route.sender.owner = some sender ∧
      w'.processes.get? route.receiver.owner = some { receiver with handles := next } ∧
      route.find? w' = route.find? w := by
  have tables : route.receiverTable ≠ route.senderTable := (Route.senderTable_ne apart).symm
  have processes : ∀ place, w'.processes.get? place = (w.processes.get? place).map fun process =>
      if route.receiverTable = .process place then { process with handles := next } else process :=
    fun place => left ▸ World.get?_processes_setTable place
  have sending' : w'.processes.get? route.sender.owner = some sender := by
    rw [processes, sending, Option.map_some]
    exact congrArg some (if_neg tables)
  refine ⟨left ▸ World.threads_setTable, sending', ?_, Route.find?_congr ?_ ?_⟩
  · rw [processes, receiving, Option.map_some]
    exact congrArg some (if_pos rfl)
  · rw [sending', sending]
  · rw [left, World.table?_withArenas, World.table?_setTable, if_neg tables]

/-- What is forecast for a command that can be carried. -/
theorem forecast_of_fetched (fetched : sender.fetch? sourceAddress = .ok (header, command))
    {handles : List (Bool × Handle)}
    (surveyed : survey (command.range header.plainSize header.totalSize) = .ok handles) :
    forecast route w sender receiver sourceAddress targetAddress
      = if HandleTable.maxCount < receiver.handles.live
            + (names (route.find? w) [] handles).countP Option.isSome then .error .outOfHandles
        else (receiver.memory.checkMapped targetAddress (header.totalSize * 4)).mapError .memory := by
  obtain ⟨rfl, -, -⟩ := Process.of_fetch? fetched
  have survey? : sender.survey? sourceAddress = .ok handles := by
    rw [Process.survey?, fetched]
    exact surveyed
  rw [forecast_eq, survey?]
  rfl

/-- A delivery between two processes ends as was forecast. -/
theorem Delivers.outcome_eq (apart : route.sender.owner ≠ route.receiver.owner)
    (sends : w.threads.get? source = some route.sender)
    (receives : w.threads.get? target = some route.receiver)
    (sending : w.processes.get? route.sender.owner = some sender)
    (receiving : w.processes.get? route.receiver.owner = some receiver)
    (wf : receiver.handles.WellFormed)
    (delivers : Delivers source target sourceAddress targetAddress w outcome w') :
    outcome = forecast route w sender receiver sourceAddress targetAddress := by
  cases delivers with
  | refused picks =>
    cases picks with
    | @refused other process error receives' sends' owner reason =>
      obtain rfl := Route.eq_of_threads sends receives sends' receives'
      obtain rfl := Option.some.inj (sending.symm.trans owner)
      rw [forecast_eq, reason]
      rfl
  | @settled _ _ held _ picks settles =>
    cases picks with
    | @carried other process header command buffer items ledger _ sends' receives' owner fetched
        tiles carries =>
      obtain rfl := Route.eq_of_threads sends receives sends' receives'
      obtain rfl := Option.some.inj (sending.symm.trans owner)
      obtain ⟨-, -, bound⟩ := Process.of_fetch? fetched
      obtain ⟨handings, surveyed, -, each⟩ := (carries.walks bound tiles fun _ _ _ => rfl).1.handsEach
      -- all handles were handed over, so there was room for them, and only the write is left
      have room := each.room (Route.senderTable_ne apart) receiving wf
      have memory : held.memory? other.receiver.owner = some receiver.memory := by
        rw [each.memory?_eq, World.memory?, receiving]
        rfl
      have length : (buffer.range 0 header.totalSize).length = header.totalSize :=
        CommandBuffer.length_range bound
      rw [forecast_of_fetched fetched surveyed, if_neg (by omega), ← length]
      cases settles with
      | full unfinished => cases unfinished
      | unwritten finished refused =>
        obtain rfl := Option.some.inj finished
        rw [refused.checkMapped_eq memory]
        rfl
      | delivered finished wrote =>
        obtain rfl := Option.some.inj finished
        rw [wrote.checkMapped_eq memory]
        rfl
    | @full other process header command items ledger held sends' receives' owner fetched tiles
        carries =>
      obtain rfl := Route.eq_of_threads sends receives sends' receives'
      obtain rfl := Option.some.inj (sending.symm.trans owner)
      obtain ⟨-, -, bound⟩ := Process.of_fetch? fetched
      obtain ⟨handings, moving, handle, rest, before, surveyed, stops⟩ :=
        carries.stopsAt bound tiles fun _ _ _ => rfl
      have full := stops.no_room (Route.senderTable_ne apart) receiving wf rest
      rw [forecast_of_fetched fetched surveyed, if_pos full]
      cases settles with
      | full => rfl
      | unwritten finished => cases finished
      | delivered finished => cases finished

/-- **A delivery ends with the first thing that is wrong.** Between two processes it ends, if it
ends, as was forecast, and in every situation that a run within the limits reaches it ends. -/
theorem deliver_eq_forecast (route : Route) {s : Situation} (reachable : s.Reachable)
    (sends : s.machine.world.threads.get? source = some route.sender)
    (receives : s.machine.world.threads.get? target = some route.receiver)
    (sending : s.machine.world.processes.get? route.sender.owner = some sender)
    (receiving : s.machine.world.processes.get? route.receiver.owner = some receiver)
    (apart : route.sender.owner ≠ route.receiver.owner) :
    (∀ outcome machine,
      (deliver source target sourceAddress targetAddress).run s.machine = .ok outcome machine →
        outcome = forecast route s.machine.world sender receiver sourceAddress targetAddress) ∧
    (Run Situation.WithinLimits .new s → ∃ machine,
      (deliver source target sourceAddress targetAddress).run s.machine
        = .ok (forecast route s.machine.world sender receiver sourceAddress targetAddress)
            machine) := by
  have wf : receiver.handles.WellFormed :=
    reachable.sound.tables route.receiverTable _ (World.table?_receiverTable receiving)
  refine ⟨fun outcome machine returned => ?_, fun run => ?_⟩
  · exact (delivers_of_ok returned).outcome_eq apart sends receives sending receiving wf
  · obtain ⟨sound, -⟩ := run.sound_of_new
    obtain ⟨outcome, machine, returned, delivers⟩ :=
      (leads_deliver sound sends receives (by simp [sending]) (by simp [receiving])).returns
    refine ⟨machine, ?_⟩
    rw [← delivers.outcome_eq apart sends receives sending receiving wf]
    exact returned

/-- Two processes with a thread each, and a handle for an event each. The memory of the first holds a
command that copies the handle and then moves it, and one that moves it and then copies it. -/
def Situation.crowding : Situation :=
  performAll [.createProcess "sender", .createProcess "receiver", .createThread ⟨0⟩ "sender",
    .createThread ⟨1⟩ "receiver", .createEvent "event" .oneShot,
    .create (.process ⟨0⟩) ⟨⟨0⟩, ⟨5⟩⟩, .createEvent "other" .oneShot,
    .create (.process ⟨1⟩) ⟨⟨0⟩, ⟨6⟩⟩,
    .runGuest ⟨0⟩ ((AddressSpace.empty.map 0 4096).setWords 0
      [0x10004, 0, 1, 0x10, 1, 0x10004, 0x10, 1, 0, 1])]

theorem Situation.run_crowding : Run WithinLimits .new crowding :=
  run_performAll (by decide) (by decide +kernel)

/-- The receiver copies its handle until its table has one slot left. Then a command is told from each
address of the sender's memory: from one that is not mapped, from one where no descriptor follows the
header, from one where a payload passes the end, and from those of the two commands. There is no room
for both of the handles of the first, but for the one that the second hands over, which arrives or has
no page to arrive at. -/
theorem deliver_eq_forecast_crowded : ∃ (t : Situation) (route : Route) (sender receiver : Process),
    Run Situation.WithinLimits .new t ∧ receiver.handles.live = 4095 ∧
    t.machine.world.processes.get? route.receiver.owner = some receiver ∧
    (∀ sourceAddress targetAddress, ∃ machine,
      (deliver ⟨0⟩ ⟨1⟩ sourceAddress targetAddress).run t.machine
        = .ok (forecast route t.machine.world sender receiver sourceAddress targetAddress) machine) ∧
    [(0x1000, 0), (12, 0), (8, 0), (0, 0), (20, 0), (20, 0x1FF82080)].map (fun addresses =>
        forecast route t.machine.world sender receiver addresses.1 addresses.2)
      = [.error (.memory (.unmapped 0x1000)), .error (.unsupportedDescriptor ⟨1⟩),
        .error .commandTooLarge, .error .outOfHandles, .error (.memory (.unmapped 0)), .ok ()] := by
  have parties : ∃ (route : Route) (sender receiver : Process),
      Situation.crowding.machine.world.threads.get? ⟨0⟩ = some route.sender ∧
        Situation.crowding.machine.world.threads.get? ⟨1⟩ = some route.receiver ∧
        Situation.crowding.machine.world.processes.get? route.sender.owner = some sender ∧
        Situation.crowding.machine.world.processes.get? route.receiver.owner = some receiver ∧
        route.sender.owner ≠ route.receiver.owner ∧
        receiver.handles.resolve ⟨1⟩ = some ⟨⟨0⟩, ⟨6⟩⟩ ∧ receiver.handles.live = 1 ∧
        [(0x1000, 0), (12, 0), (8, 0), (0, 0), (20, 0), (20, 0x1FF82080)].map (fun addresses =>
            forecast route Situation.crowding.machine.world sender
              { receiver with handles := { receiver.handles with live := 4095 } }
              addresses.1 addresses.2)
          = [.error (.memory (.unmapped 0x1000)), .error (.unsupportedDescriptor ⟨1⟩),
            .error .commandTooLarge, .error .outOfHandles, .error (.memory (.unmapped 0)), .ok ()] :=
    ⟨⟨_, _⟩, _, _, rfl, rfl, rfl, rfl, by decide +kernel, by decide +kernel, by decide +kernel,
      by decide +kernel⟩
  obtain ⟨route, sender, receiver, sends, receives, sending, receiving, apart, named, live, told⟩ :=
    parties
  have few : ∀ ref, Situation.crowding.references ref + 4094 < 2 ^ 32 := fun ref =>
    (Nat.add_le_add_right (Situation.references_le _ ref) 4094).trans_lt (by decide +kernel)
  obtain ⟨t, filled, run, full, -, ⟨arenas, left⟩, -⟩ :=
    Situation.run_crowding.exists_filled (World.table?_receiverTable receiving) named
      (by rw [live]; decide) few
  obtain ⟨threads, sending', receiving', find⟩ := parties_of_setTable apart sending receiving left
  have crowded : filled.live = 4095 := by rw [full, live]
  refine ⟨t, route, sender, _, run, crowded, receiving', fun sourceAddress targetAddress => ?_, ?_⟩
  · exact (deliver_eq_forecast route run.reachable (threads ▸ sends) (threads ▸ receives) sending'
      receiving' apart).2 run
  · rw [← told]
    exact List.map_congr_left fun addresses _ => forecast_congr find crowded rfl

end

end MicrokernelIpc
