import MicrokernelIpc.Proofs.Delivery.Moving

/-!
# Requests that are sent back

A server that sends a request back as it got it gives the client back what the request took. The
words say the same, and the handles in them name the same objects, under whatever values the
client's table has for them by then. All that remains is how the two handle tables are laid out.
-/

namespace MicrokernelIpc

namespace AddressSpace

variable {space other : AddressSpace} {address : UInt32}

/-- The command at an address is told by as many words as a buffer has. -/
theorem command_congr (same : other.wordsAt address.toNat CommandBuffer.size
      = space.wordsAt address.toNat CommandBuffer.size)
    (fits : (space.headerAt address).totalSize ≤ CommandBuffer.size) :
    other.headerAt address = space.headerAt address ∧
      other.plainAt address = space.plainAt address ∧
      other.regionAt address = space.regionAt address := by
  have first : other.wordAt address.toNat = space.wordAt address.toNat :=
    (List.cons.inj (wordsAt_succ.symm.trans (same.trans wordsAt_succ))).1
  have header : other.headerAt address = space.headerAt address :=
    congrArg Header.ofWord first
  have command : other.commandAt address = space.commandAt address := by
    rw [commandAt, commandAt, header, ← take_wordsAt fits, same, take_wordsAt fits]
  exact ⟨header, by rw [plainAt, plainAt, command, header], by rw [regionAt, regionAt, command, header]⟩

theorem Repeats.of_wordsAt {first : AddressSpace} {elsewhere : UInt32} {marks : List UInt32}
    {handles : List Handle} (repeats : space.Repeats address first elsewhere marks handles)
    (same : other.wordsAt address.toNat CommandBuffer.size
      = space.wordsAt address.toNat CommandBuffer.size)
    (fits : (first.headerAt elsewhere).totalSize ≤ CommandBuffer.size) :
    other.Repeats address first elsewhere marks handles := by
  obtain ⟨header, plain, region⟩ := command_congr same (repeats.header ▸ fits)
  exact ⟨header.trans repeats.header, plain.trans repeats.plain, region ▸ repeats.region⟩

end AddressSpace

/-- There is one count that agrees with a number. -/
theorem Agrees.unique {number : Nat} {counted counted' : Option UInt32}
    (agrees : Agrees True number counted) (agrees' : Agrees True number counted') :
    counted' = counted := by
  cases counted with
  | none =>
    cases counted' with
    | none => rfl
    | some => exact absurd (agrees trivial) agrees'.pos.ne'
  | some =>
    cases counted' with
    | none => exact absurd (agrees' trivial) agrees.pos.ne'
    | some =>
      obtain ⟨k, -, -, rfl, number⟩ := agrees
      obtain ⟨k', -, -, rfl, number'⟩ := agrees'
      rw [number trivial, number' trivial]

/-- Where there are as many references as before they are counted as before. -/
theorem World.Sound.refs?_eq {past past' w w' : World} {inserted inserted' : Nat}
    {held : Multiset ObjectRef} (sound : Sound True past inserted held w)
    (sound' : Sound True past' inserted' held w') {ref : ObjectRef}
    (counts : w'.count ref = w.count ref) : w'.refs? ref = w.refs? ref := by
  have agrees := sound'.counts ref
  rw [references, counts] at agrees
  exact (sound.counts ref).unique agrees

/-- The way back. -/
def Route.back (route : Route) : Route := ⟨route.receiver, route.sender⟩

section

variable {route : Route} {client server : Key Thread} {marks : List UInt32} {w mid stored w' : World}
variable {entries issued replies : List (Handle × ObjectRef)}
variable {sender receiver sent received served settled : Process}

/-- A request that arrived is ready to be sent back, once it was stored where it stands. -/
theorem Route.Crossed.ready_back {words : List UInt32}
    (crossed : route.Crossed marks entries issued sender receiver sent received w mid)
    (ready : route.Ready client server marks entries sender receiver w)
    (apart : route.sender.owner ≠ route.receiver.owner) (wf : sender.handles.WellFormed)
    (stands : received.memory.wordsAt route.receiver.commandBufferAddress.toNat CommandBuffer.size
      = words)
    (writes : mid.Writes route.receiver.owner route.receiver.commandBufferAddress words (.ok ())
      stored) :
    ∃ served, route.back.Ready server client marks issued served sent stored ∧
      served.handles = received.handles ∧
      served.memory.Repeats route.receiver.commandBufferAddress sender.memory
        route.sender.commandBufferAddress marks (issued.map Prod.fst) := by
  have length : words.length = CommandBuffer.size := by
    rw [← stands]
    exact AddressSpace.length_wordsAt
  have mapped := (AddressSpace.checkMapped_eq_ok_iff.1 crossed.mapped).2
  have same : (received.memory.setWords route.receiver.commandBufferAddress.toNat words).wordsAt
      route.receiver.commandBufferAddress.toNat CommandBuffer.size
      = received.memory.wordsAt route.receiver.commandBufferAddress.toNat CommandBuffer.size := by
    rw [stands, ← length] at *
    exact AddressSpace.wordsAt_setWords mapped
  have repeats := crossed.repeats.of_wordsAt same ready.fits
  have lengths := congrArg List.length crossed.objects
  rw [List.length_map, List.length_map] at lengths
  refine ⟨_, ⟨?_, ?_, writes.get?_processes crossed.receiving, ?_, ?_, ?_, ?_, repeats.region,
    crossed.gains.distinct, crossed.gains.named, ?_⟩, rfl, repeats⟩
  · rw [writes.threads_eq, crossed.threads]
    exact ready.receives
  · rw [writes.threads_eq, crossed.threads]
    exact ready.sends
  · exact (writes.get?_processes_of_ne apart.symm).trans crossed.sending
  · exact AddressSpace.checkMapped_setWords.trans crossed.mapped
  · rw [crossed.memory]
    exact ready.stores
  · exact (congrArg Header.totalSize repeats.header).trans_le ready.fits
  · have := crossed.sheds.live wf
    have := wf.live_le
    omega

end

/-- A request was sent back to where it was sent from, and nothing was lost over it. -/
structure Route.Echoed (route : Route) (marks : List UInt32) (entries : List (Handle × ObjectRef))
    (sender receiver sent received : Process) (w w' : World) : Prop where
  sending : w'.processes.get? route.sender.owner = some sent
  receiving : w'.processes.get? route.receiver.owner = some received
  /-- The reply says what the request said, and its handles name the same objects. -/
  reply : ∃ replies : List (Handle × ObjectRef),
    sent.memory.Repeats route.sender.commandBufferAddress sender.memory
      route.sender.commandBufferAddress marks (replies.map Prod.fst) ∧
    replies.map Prod.snd = entries.map Prod.snd ∧
    ∀ entry ∈ replies, sent.handles.resolve entry.1 = some entry.2
  others : ∀ handle object, handle ∉ entries.map Prod.fst →
    sender.handles.resolve handle = some object → sent.handles.resolve handle = some object
  live : sent.handles.live = sender.handles.live
  restored : ∀ handle, received.handles.resolve handle = receiver.handles.resolve handle
  counts : ∀ ref, w'.refs? ref = w.refs? ref

section

variable {route : Route} {client server : Key Thread} {marks : List UInt32} {w mid stored w' : World}
variable {entries issued replies : List (Handle × ObjectRef)}
variable {sender receiver sent received served settled answered : Process}

/-- A command that went there and back has brought back what it took. -/
theorem Route.Crossed.echoed (wf : sender.handles.WellFormed)
    (there : route.Crossed marks entries issued sender receiver sent received w mid)
    (handles : served.handles = received.handles)
    (stands : served.memory.Repeats route.receiver.commandBufferAddress sender.memory
      route.sender.commandBufferAddress marks (issued.map Prod.fst))
    (back : route.back.Crossed marks issued replies served sent settled answered stored w')
    (counts : ∀ ref, w'.refs? ref = w.refs? ref) :
    route.Echoed marks entries sender receiver answered settled w w' where
  sending := back.receiving
  receiving := back.sending
  reply := by
    refine ⟨replies, ⟨?_, ?_, back.repeats.region⟩, back.objects.trans there.objects, back.gains.named⟩
    · exact back.repeats.header.trans stands.header
    · exact back.repeats.plain.trans stands.plain
  others handle object absent named := by
    refine back.gains.resolve_eq_some_iff.2 (.inl ?_)
    rw [there.sheds.resolve, if_neg absent, named]
  live := by
    have lost := there.sheds.live wf
    have got := back.gains.live
    have lengths := congrArg List.length (back.objects.trans there.objects)
    rw [List.length_map, List.length_map] at lengths
    omega
  restored handle := by
    rw [back.sheds.resolve, handles]
    split
    · next mem =>
      obtain ⟨entry, inside, rfl⟩ := List.mem_map.1 mem
      exact (there.gains.fresh entry inside).symm
    · next absent => exact there.gains.others handle absent
  counts := counts

end

/-- **A request that is sent back brings back what it took.** -/
theorem sendRequest_echoes (route : Route) {s : Situation} {client server : Key Thread}
    {marks : List UInt32} {entries : List (Handle × ObjectRef)} {sender receiver : Process}
    {α : Type} {handler : RequestContext → CommandBuffer → Action (α × CommandBuffer)}
    (run : Run Situation.WithinLimits .new s) (few : ∀ ref, s.references ref < 2 ^ 31)
    (apart : route.sender.owner ≠ route.receiver.owner)
    (ready : route.Ready client server marks entries sender receiver s.machine.world)
    (idle : ∀ context request machine, ∃ answer,
      handler context request machine = .ok (answer, request) machine) :
    ∃ answer machine sent received,
      sendRequest client server handler s.machine = .ok ⟨some answer, .ok ()⟩ machine ∧
      route.Echoed marks entries sender receiver sent received s.machine.world machine.world := by
  obtain ⟨sound, within⟩ := run.sound_of_new
  have outbox : sender.handles.WellFormed :=
    sound.tables route.senderTable _ (World.table?_of_process ready.sending)
  -- the request goes to the server
  have asks := leads_deliverBetween_of_ready ready apart sound
  obtain ⟨_, arrived, asked, rfl, issued, sent, received, there⟩ := asks.returns
  have carried := (carried_deliverBetween sound within.1 fun _ _ _ _ reaches =>
    sound.within_of_few few reaches).of_ok asked
  have serving : arrived.world.Buffered server _ := ⟨route.receiver, received.memory,
    there.threads ▸ ready.receives, World.memory?_of_process there.receiving, there.mapped, rfl⟩
  obtain ⟨request, opened, opens, same, words⟩ := openRequest_of_delivered asked serving
    (by simp [there.threads, ready.sends])
  obtain ⟨answer, handled⟩ := idle ⟨client, server⟩ request opened
  -- it is stored where it stands
  have stores : Leads arrived.world (storeCommandBuffer server request).run _ fun _ => False :=
    leads_storeCommandBuffer_of_mapped (there.threads ▸ ready.receives) there.receiving there.mapped
  rw [← same] at stores
  obtain ⟨_, stored, stores, rfl, writes⟩ := stores.returns
  rw [same] at writes
  obtain ⟨soundStored, withinStored⟩ := writes.sound carried.sound fun _ => carried.within
  obtain ⟨served, ready', handles, stands⟩ := there.ready_back ready apart outbox words.symm writes
  have fewStored : ∀ ref, stored.world.references s.held ref < 2 ^ 31 := by
    intro ref
    rw [World.references, writes.count_eq, there.counts]
    exact few ref
  -- it goes back
  have replies := leads_deliverBetween_of_ready ready' apart.symm soundStored
  obtain ⟨_, last, replied, rfl, replies, settled, answered, back⟩ := replies.returns
  have carriedBack := (carried_deliverBetween soundStored (withinStored trivial)
    fun _ _ _ _ reaches => soundStored.within_of_few fewStored reaches).of_ok replied
  refine ⟨answer, last, answered, settled, ?_, there.echoed outbox handles stands back fun ref => ?_⟩
  · have closes : (closeRequest client server request).run opened = .ok (.ok ()) last :=
      (run_bind_of_ok (run_adapt_of_ok stores)).trans replied
    rw [sendRequest_of_opened handler opens]
    exact bind_eq_ok_iff.2 ⟨_, _, handled, bind_eq_ok_iff.2 ⟨_, _, closes, rfl⟩⟩
  · refine sound.refs?_eq carriedBack.sound ?_
    rw [back.counts, writes.count_eq, there.counts]

/-- A client with handles to two events and a server. A request that moves both handles stands in the
client's command buffer. -/
def Situation.lending : Situation :=
  performAll [.createProcess "client", .createProcess "server", .createThread ⟨0⟩ "client",
    .createThread ⟨1⟩ "server", .createEvent "first" .oneShot, .create (.process ⟨0⟩) ⟨⟨0⟩, ⟨5⟩⟩,
    .createEvent "second" .oneShot, .create (.process ⟨0⟩) ⟨⟨0⟩, ⟨6⟩⟩,
    .runGuest ⟨0⟩ ((AddressSpace.empty.map 0x1FF82000 4096).setWords 0x1FF82080
      [0x10043, 0xBEEF, 0x4000010, 1, 0x8002])]

/-- Both handles are lent and come back under other values. -/
theorem sendRequest_echoes_lending : ∃ (route : Route) (sender receiver sent received : Process)
    (machine : Machine),
    sendRequest ⟨0⟩ ⟨1⟩ (fun _ request => (pure ((), request) : Action (Unit × CommandBuffer)))
      Situation.lending.machine = .ok ⟨some (), .ok ()⟩ machine ∧
    route.Echoed [0x4000010] [(⟨1⟩, ⟨⟨0⟩, ⟨5⟩⟩), (⟨0x8002⟩, ⟨⟨0⟩, ⟨6⟩⟩)] sender receiver sent received
      Situation.lending.machine.world machine.world := by
  have run : Run Situation.WithinLimits .new Situation.lending :=
    Situation.run_performAll (by decide) (by decide +kernel)
  have few : ∀ ref, Situation.lending.references ref < 2 ^ 31 :=
    Situation.references_lt (by decide +kernel)
  have moves : Moves [0x4000010] [0x4000010, 1, 0x8002] [⟨1⟩, ⟨0x8002⟩] :=
    .cons (show Descriptor.decode 0x4000010 = .ok (.moveHandle 2) by rfl)
      (show [1, 0x8002].length = 2 from rfl) .nil
  have parties : ∃ (route : Route) (sender receiver : Process),
      Situation.lending.machine.world.threads.get? ⟨0⟩ = some route.sender ∧
        Situation.lending.machine.world.threads.get? ⟨1⟩ = some route.receiver ∧
        Situation.lending.machine.world.processes.get? route.sender.owner = some sender ∧
        Situation.lending.machine.world.processes.get? route.receiver.owner = some receiver ∧
        route.sender.owner ≠ route.receiver.owner ∧
        sender.memory.checkMapped route.sender.commandBufferAddress 256 = .ok () ∧
        receiver.memory.checkMapped route.receiver.commandBufferAddress 256 = .ok () ∧
        (sender.memory.headerAt route.sender.commandBufferAddress).totalSize ≤ 64 ∧
        sender.memory.regionAt route.sender.commandBufferAddress = [0x4000010, 1, 0x8002] ∧
        sender.handles.resolve ⟨1⟩ = some ⟨⟨0⟩, ⟨5⟩⟩ ∧
        sender.handles.resolve ⟨0x8002⟩ = some ⟨⟨0⟩, ⟨6⟩⟩ ∧ receiver.handles.live = 0 :=
    ⟨⟨_, _⟩, _, _, rfl, rfl, rfl, rfl, by decide +kernel, by decide +kernel, by decide +kernel,
      by decide +kernel, by decide +kernel, by decide +kernel, by decide +kernel, by decide +kernel⟩
  obtain ⟨route, sender, receiver, sends, receives, sending, receiving, apart, stores, loads, fits,
    region, first, second, live⟩ := parties
  have ready : route.Ready ⟨0⟩ ⟨1⟩ [0x4000010] [(⟨1⟩, ⟨⟨0⟩, ⟨5⟩⟩), (⟨0x8002⟩, ⟨⟨0⟩, ⟨6⟩⟩)] sender
      receiver Situation.lending.machine.world :=
    ⟨sends, receives, sending, receiving, stores, loads, fits, region ▸ moves, by decide,
      by simp [first, second], by rw [live]; decide⟩
  obtain ⟨⟨⟩, machine, sent, received, returned, echoed⟩ :=
    sendRequest_echoes route run few apart ready fun _ _ _ => ⟨(), rfl⟩
  exact ⟨route, sender, receiver, sent, received, machine, returned, echoed⟩

end MicrokernelIpc
