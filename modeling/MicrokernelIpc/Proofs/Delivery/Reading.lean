import MicrokernelIpc.Proofs.Delivery.RoundTrip
import MicrokernelIpc.Proofs.Wire.ReaderCalls

/-!
# Commands are read as they were translated

The kernel cuts the transfer region of a command once, in the sender's words, and a receiver cuts it
again when it takes parcel after parcel out of its buffer. The two agree, whatever words were sent:
what is put in the place of payloads is as long as they were, and the words of descriptors are left
alone, so that the tiles of the region are the same in both buffers (`Route.Walks.tiles`). A reader
takes a region by its tiles (`RegionItem.Tiles.reads`).
-/

namespace MicrokernelIpc

namespace RegionItem

variable {buffer : CommandBuffer} {size index : Nat} {items : List RegionItem}

/-- What is taken for an item: the fields of its descriptor and the words behind it. -/
def content (buffer : CommandBuffer) (item : RegionItem) : Content :=
  item.descriptor.content (buffer.range (item.index + 1) item.stop)

/-- Take parcels of the kinds of items, one after the other. -/
def popEach (items : List RegionItem) : Reading (List Content) :=
  items.mapM fun item => Parcel.pop item.descriptor.kind

/-- A region is taken by its tiles, to its last word. -/
theorem Tiles.reads (tiles : Tiles buffer size index items) (bound : size ≤ 64) :
    RequestReader.Reads (popEach items) (buffer.range index size) (items.map (content buffer)) := by
  induction tiles with
  | nil done =>
    rw [CommandBuffer.range_of_le done]
    exact RequestReader.reads_pure
  | @cons index descriptor rest begun decoded fits after ih =>
    have length : (buffer.range (index + 1) (⟨index, descriptor⟩ : RegionItem).stop).length
        = descriptor.payloadWords := length_payload (Nat.le_trans fits bound)
    have first := Parcel.reads_pop decoded length
    rw [CommandBuffer.range_eq_cons_append begun (succ_le_stop index descriptor) fits bound,
      ← List.cons_append, popEach, List.mapM_cons]
    exact first.bind (ih.bind_pure _)

end RegionItem

/-- The items of a region that was walked cut what came of it. -/
theorem Route.Walks.tiles {route : Route} {command loaded : CommandBuffer} {size index : Nat}
    {items : List RegionItem} {words new : List UInt32} {ledger final : Ledger} {w w' : World}
    (walks : route.Walks ledger words w new final w') (bound : size ≤ 64)
    (tiles : RegionItem.Tiles command size index items) (sent : words = command.range index size)
    (received : new = loaded.range index size) : RegionItem.Tiles loaded size index items := by
  induction tiles generalizing ledger words w new with
  | nil done => exact .nil done
  | @cons index descriptor rest begun decoded fits after ih =>
    have further := RegionItem.succ_le_stop index descriptor
    have payload (buffer : CommandBuffer) :
        (buffer.range (index + 1) (⟨index, descriptor⟩ : RegionItem).stop).length
          = descriptor.payloadWords := RegionItem.length_payload (Nat.le_trans fits bound)
    rw [CommandBuffer.range_eq_cons_append begun further fits bound] at sent received
    cases walks with
    | nil => cases sent
    | cons decoded' length first others =>
      obtain ⟨head, sentRow⟩ := List.cons.inj sent
      obtain ⟨head', receivedRow⟩ := List.cons.inj received
      rw [head] at decoded' head'
      obtain rfl := Except.ok.inj (decoded.symm.trans decoded')
      obtain ⟨-, behind⟩ := List.append_inj sentRow (length.trans (payload command).symm)
      obtain ⟨-, behind'⟩ :=
        List.append_inj receivedRow ((first.length length).trans (payload loaded).symm)
      exact .cons begun (head' ▸ decoded) fits (ih others behind behind')

/-- Open the command in a buffer with the sizes of its header, skip the plain words and take parcels of
the kinds of items. -/
def readRegion (loaded : CommandBuffer) (items : List RegionItem) :
    Except Fault (List Content × RequestReader) := do
  let header := loaded.header
  let reader ← RequestReader.start loaded header.command header.normal header.transfer
  Effect.runFrom (do RequestReader.skip header.normal false; RegionItem.popEach items) reader

/-- Where the items cut the region of a command, they are read, up to the end of the command. -/
theorem readRegion_eq_ok {loaded : CommandBuffer} {items : List RegionItem}
    (tiles : RegionItem.Tiles loaded loaded.header.totalSize loaded.header.plainSize items)
    (bound : loaded.header.totalSize ≤ 64) :
    readRegion loaded items
      = .ok (items.map (RegionItem.content loaded), ⟨loaded, loaded.header, loaded.header.totalSize⟩) := by
  have inside := Header.plainSize_le_totalSize loaded.header
  have within : RequestReader.Within ⟨loaded, loaded.header, 1⟩ :=
    ⟨Nat.le_trans (Nat.le_add_right 1 _) inside, bound⟩
  have skipped : RequestReader.skip loaded.header.normal false ⟨loaded, loaded.header, 1⟩
      = .ok () (RequestReader.passed ⟨loaded, loaded.header, 1⟩ loaded.header.normal) :=
    ReaderCall.skip_eq_ok within inside
  -- what is ahead then is the whole region
  have length : loaded.header.plainSize
      + (loaded.range loaded.header.plainSize loaded.header.totalSize).length
        = loaded.header.totalSize := by
    rw [CommandBuffer.length_range bound, Nat.add_sub_cancel' inside]
  have ahead : RequestReader.Ahead
      (RequestReader.passed ⟨loaded, loaded.header, 1⟩ loaded.header.normal)
      (loaded.range loaded.header.plainSize loaded.header.totalSize) := by
    refine ⟨Nat.le_of_eq length, bound, ?_⟩
    show loaded.range loaded.header.plainSize (loaded.header.plainSize + _) = _
    rw [length]
  have taken := tiles.reads bound _ ahead
  rw [readRegion, RequestReader.start_self]
  show Effect.runFrom _ _ = _
  rw [Effect.runFrom, Effect.bind_of_ok skipped, taken]
  refine congrArg (fun stop => Except.ok (_, RequestReader.mk loaded loaded.header stop)) ?_
  exact length

/-! ## The command in the receiver's buffer -/

section

variable {w w' : World} {route : Route} {source target : Key Thread}
variable {sourceAddress targetAddress : UInt32}

/-- A buffer that was made of some words and others behind them begins with the first. -/
theorem CommandBuffer.range_ofList_append {words rest : List UInt32} {size : Nat}
    (fits : (words ++ rest).length ≤ 64) (length : words.length = size) :
    (CommandBuffer.ofList (words ++ rest)).range 0 size = words := by
  subst length
  have inside : words.length ≤ (words ++ rest).length := by
    rw [List.length_append]
    exact Nat.le_add_right _ _
  rw [CommandBuffer.range_ofList fits inside]
  exact List.take_left

/-- The words of a command at the beginning of a buffer are those of its header, its plain words and
its region. -/
theorem CommandBuffer.regions_of_range {loaded : CommandBuffer} {space : AddressSpace}
    {address : UInt32} {new : List UInt32} (bound : (space.headerAt address).totalSize ≤ 64)
    (row : loaded.range 0 (space.headerAt address).totalSize = space.plainAt address ++ new) :
    loaded.header = space.headerAt address ∧
      loaded.range (space.headerAt address).plainSize (space.headerAt address).totalSize = new := by
  have inside := Header.plainSize_le_totalSize (space.headerAt address)
  constructor
  · obtain ⟨rest, plain⟩ := space.plainAt_eq_cons address
    have some : 0 < (space.headerAt address).totalSize :=
      Nat.lt_of_lt_of_le (Nat.lt_add_right _ Nat.one_pos) inside
    rw [plain, List.cons_append, CommandBuffer.range_cons (by decide) some] at row
    exact congrArg Header.ofWord (List.cons.inj row).1
  · rw [← CommandBuffer.range_append (Nat.zero_le _) inside bound] at row
    refine (List.append_inj row ?_).2
    rw [CommandBuffer.length_range (Nat.le_trans inside bound), AddressSpace.length_plainAt]
    rfl

/-- The kernel fetches a command that it delivers, and finds items in it that cut its region. -/
theorem leads_items {process : Process} {header : Header} {command : CommandBuffer}
    {new : List UInt32} {ledger : Ledger} {held : World} {machine : Machine}
    (owner : machine.world.processes.get? route.sender.owner = some process)
    (fetched : process.fetch? sourceAddress = .ok (header, command))
    (walks : route.Walks .empty (process.memory.regionAt sourceAddress) w new ledger held) :
    ∃ items next last,
      (fetchCommand route.sender sourceAddress).run machine = .ok (.ok (header, command)) next ∧
      (cutRegion header command).run next = .ok (.ok items) last ∧
      RegionItem.Tiles command header.totalSize header.plainSize items := by
  obtain ⟨-, -, bound⟩ := Process.of_fetch? fetched
  obtain ⟨-, region⟩ := Process.ranges_of_fetch? fetched
  obtain ⟨handings, surveyed, -, -⟩ := walks.handsEach
  have fetches : Leads machine.world (fetchCommand route.sender sourceAddress).run _ fun _ => False :=
    leads_fetchCommand fun lost => by cases owner.symm.trans lost
  obtain ⟨outcome, next, ran, -, process', owner', rfl⟩ := fetches.returns
  obtain rfl := Option.some.inj (owner.symm.trans owner')
  rw [fetched] at ran
  have cuts : Leads next.world (cutRegion header command).run _ fun _ => False := leads_cutRegion bound
  obtain ⟨outcome, last, cut, -, how⟩ := cuts.returns
  cases how with
  | @cut items tiles => exact ⟨items, next, last, ran, cut, tiles⟩
  | refused reason =>
    rw [region] at reason
    cases surveyed.symm.trans reason

end

/-- **A command is read as it was translated.** Whatever words a command has that is delivered to a
thread's command buffer, the buffer that the thread loads has its header, and a reader is opened
with the sizes of that. After the plain words it takes a parcel for each item that the kernel found
in the region, in order and each of its descriptor's kind: the fields of the descriptor and the
words that were put behind it. Nothing of this stops on a fault, and in the end the reader stands
at the end of the command. -/
theorem delivered_is_read {s : Situation} {route : Route} {source target : Key Thread}
    {sourceAddress : UInt32} {machine : Machine} (reachable : s.Reachable)
    (sends : s.machine.world.threads.get? source = some route.sender)
    (receives : s.machine.world.threads.get? target = some route.receiver)
    (delivered : (deliver source target sourceAddress route.receiver.commandBufferAddress).run s.machine
      = .ok (.ok ()) machine) :
    ∃ header command items fetched cut loaded opened,
      (fetchCommand route.sender sourceAddress).run s.machine = .ok (.ok (header, command)) fetched ∧
      (cutRegion header command).run fetched = .ok (.ok items) cut ∧
      (loadCommandBuffer target).run machine = .ok (.ok loaded) opened ∧
      loaded.header = header ∧
      readRegion loaded items
        = .ok (items.map (RegionItem.content loaded), ⟨loaded, header, header.totalSize⟩) := by
  have delivers := delivers_of_ok delivered
  obtain ⟨process, memory, owner, receiving⟩ := delivers.parties sends receives
  obtain ⟨slotted, -⟩ := Run.slotted reachable World.slotted_new
  have sending : s.machine.world.memory? route.sender.owner = some process.memory := by
    simp [World.memory?, owner]
  obtain ⟨new, ledger, held, old, walks, length, rewrites, serving⟩ :=
    delivers.lands sends receives slotted sending receiving reachable.sound.tables
  obtain ⟨header, command, fetches⟩ := delivers.fetched sends receives owner
  obtain ⟨items, fetched, cut, fetching, cutting, tiles⟩ := leads_items owner fetches walks
  obtain ⟨-, region⟩ := Process.ranges_of_fetch? fetches
  obtain ⟨read, -, bound⟩ := Process.of_fetch? fetches
  obtain rfl : header = process.memory.headerAt sourceAddress := read
  -- the words of the command stand at the beginning of the receiver's buffer
  have arrived := rewrites.buffered serving
  obtain ⟨outcome, opened, loading, -, rfl⟩ := arrived.leads_load.returns
  have row := CommandBuffer.range_ofList_append arrived.length.le length
  obtain ⟨same, received⟩ := CommandBuffer.regions_of_range bound row
  have cuts := walks.tiles bound tiles region.symm received.symm
  rw [← same] at cuts
  have taken := readRegion_eq_ok cuts (same ▸ bound)
  rw [same] at taken
  exact ⟨_, command, items, fetched, cut, _, opened, fetching, cutting, loading, same, taken⟩

/-- Two processes with a thread each, as in `Situation.sending`. The command in the first has bits set
that carry nothing, in its header and in both descriptors: two copied handles, one of them a
pseudo-handle, and the sender's identifier behind a plain word. -/
def Situation.untidy : Situation :=
  performAll [.createProcess "sender", .createProcess "receiver", .createThread ⟨0⟩ "sender",
    .createThread ⟨1⟩ "receiver", .createEvent "event" .oneShot,
    .create (.process ⟨0⟩) ⟨⟨0⟩, ⟨5⟩⟩,
    .runGuest ⟨0⟩ ((AddressSpace.empty.map 0 4096).setWords 0
      [0x1F045, 7, 0x7FFFFC0, 1, 0xFFFF8001, 0xFFFFFFE0, 9])]

/-- The padding of the words keeps neither the kernel nor the receiver from taking them. -/
theorem delivered_is_read_untidy : ∃ machine loaded opened items,
    (deliver ⟨0⟩ ⟨1⟩ 0 0x1FF82080).run Situation.untidy.machine = .ok (.ok ()) machine ∧
      (loadCommandBuffer ⟨1⟩).run machine = .ok (.ok loaded) opened ∧
      loaded.header = ⟨1, 1, 5⟩ ∧ items = [⟨2, .copyHandle 2⟩, ⟨5, .callingPid⟩] ∧
      readRegion loaded items
        = .ok (items.map (RegionItem.content loaded), ⟨loaded, ⟨1, 1, 5⟩, 7⟩) := by
  have arrives : (Effect.runFrom (deliver ⟨0⟩ ⟨1⟩ 0 0x1FF82080).run Situation.untidy.machine).map
      Prod.fst = .ok (.ok ()) := by decide +kernel
  have parties : ∃ route : Route,
      Situation.untidy.machine.world.threads.get? ⟨0⟩ = some route.sender ∧
        Situation.untidy.machine.world.threads.get? ⟨1⟩ = some route.receiver ∧
        route.receiver.commandBufferAddress = 0x1FF82080 ∧
        (Effect.runFrom (fetchCommand route.sender 0 >>= fun fetched =>
          cutRegion fetched.1 fetched.2 >>= fun items => pure (fetched.1, items)).run
            Situation.untidy.machine).map Prod.fst
          = .ok (.ok (⟨1, 1, 5⟩, [⟨2, .copyHandle 2⟩, ⟨5, .callingPid⟩])) :=
    ⟨⟨_, _⟩, rfl, rfl, by decide +kernel, by decide +kernel⟩
  obtain ⟨_, machine, delivered, rfl⟩ := exists_of_runFrom arrives
  obtain ⟨route, sends, receives, address, cuts⟩ := parties
  have reachable : Situation.untidy.Reachable := Situation.reachable_performAll _
  obtain ⟨header, command, items, fetched, cut, loaded, opened, fetching, cutting, loading, same,
    taken⟩ := delivered_is_read reachable sends receives (address ▸ delivered)
  obtain ⟨_, _, cuts, rfl⟩ := exists_of_runFrom cuts
  rw [run_bind_of_ok fetching, run_bind_of_ok cutting] at cuts
  cases cuts
  exact ⟨machine, loaded, opened, _, delivered, loading, same, rfl, taken⟩

end MicrokernelIpc
