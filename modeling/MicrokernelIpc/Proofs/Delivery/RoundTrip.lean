import MicrokernelIpc.Proofs.Delivery.AllOrNothing
import MicrokernelIpc.Proofs.Delivery.Confinement
import MicrokernelIpc.Proofs.Delivery.Returning
import MicrokernelIpc.Proofs.Kernel.ThreadBuffers

/-!
# Requests go there and back

A request is two deliveries with a handler between them. The handler runs once, on the request as it
arrived, and only if it arrived. Since the two command buffers lie beside each other, whether or not
the threads share a process, the client's buffer holds the request until the reply has arrived.
-/

namespace MicrokernelIpc

section

variable {past before w : World} {inserted : Nat} {held : Multiset ObjectRef}
variable {source target : Key Thread} {sourceAddress targetAddress : UInt32}

/-! ## Within the limits -/

/-- No object has 2^32 references while the operation is on its way. -/
def Situation.Carries (s : Situation) (op : Operation) : Prop :=
  ∀ moment, op.Passes s.machine.world moment → World.Within s.held moment

/-- Where counts are exact, references can be added as long as no object has 2^32. -/
theorem World.Sound.withstands (sound : Sound True past inserted held before)
    (within : Within held w) : before.Withstands w := by
  intro issued _ counted ref entry found
  have agrees := sound.counts ref
  rw [refs?_eq_map, found] at agrees
  have counts := within ref
  rw [references, counted] at counts
  have exact := agrees.toNat trivial (by rw [references]; omega)
  have some := agrees.pos
  rw [references] at exact some
  simp only [Option.map_some, Option.getD_some] at exact
  rw [Multiset.coe_count]
  omega

/-- What a delivery comes to if no object has 2^32 references on the way. -/
structure World.Carried (past : World) (inserted : Nat) (held : Multiset ObjectRef)
    (target : Key Thread) (w : World) (outcome : Except DeliveryError Unit) (w' : World) :
    Prop where
  sound : Sound True past inserted held w'
  within : Within held w'
  refused : ∀ error, outcome = .error error →
    ∃ receiver, w.threads.get? target = some receiver ∧ w.SameBut (.process receiver.owner) w'

theorem carried_deliver (sound : World.Sound True past inserted held w)
    (within : World.Within held w)
    (moment : ∀ carriage next,
      Reaches w (pickUp source target sourceAddress).run (.ok carriage) next →
        World.Within held next) :
    Leads w (deliver source target sourceAddress targetAddress).run
      (World.Carried past inserted held target w) fun _ => True := by
  refine (Leads.reaches ((sound_pickUp sound).mono (fun _ _ h => h) fun _ _ => trivial)).bindRun
    (fun carriage mid picked => ?_) fun error next picked => ?_
  · obtain ⟨picks, reaches⟩ := picked
    have limit := moment carriage mid reaches
    obtain ⟨receiver, issues⟩ :=
      picks.issues_of_withstands sound.tables (sound.withstands limit)
    have settle : Leads mid (carriage.settle targetAddress).run _ (Excused True) := excused_settle
    refine settle.mono (fun outcome next settles => ?_) fun _ _ => trivial
    obtain ⟨sound', within'⟩ := settles.sound (picks.sound sound fun _ => limit) fun _ => limit
    refine ⟨sound', within' trivial, ?_⟩
    rintro error rfl
    exact ⟨_, receiver, settles.sameBut_of_withstands issues (sound.withstands limit)⟩
  · obtain ⟨picks, -⟩ := picked
    cases picks with
    | refused receiver =>
      exact ⟨sound, within, fun _ _ =>
        ⟨_, receiver, (World.issued_refl (sound.tables _)).sameBut⟩⟩

theorem carried_deliverBetween (sound : World.Sound True past inserted held w)
    (within : World.Within held w)
    (moment : ∀ sender carriage next, w.threads.get? source = some sender →
      Reaches w (pickUp source target sender.commandBufferAddress).run (.ok carriage) next →
        World.Within held next) :
    Leads w (deliverBetween source target).run (World.Carried past inserted held target w)
      fun _ => True :=
  leads_deliverBetween_of (fun _ => trivial) (fun _ => trivial) fun route found _ =>
    carried_deliver sound within fun carriage next => moment route.sender carriage next found

/-- With few references to each object there is nothing to fear of a request. -/
theorem Situation.Reachable.carries {s : Situation} {client server : Key Thread}
    (reachable : s.Reachable) (few : ∀ ref, s.references ref < 2 ^ 31) :
    s.Carries (.openRequest client server) := by
  rintro moment ⟨sender, carriage, -, reaches⟩
  exact reachable.sound.within_of_few few reaches

end

/-! ## From buffer to buffer -/

/-- The words that arrive of the command in the sender's buffer: the plain ones as they are, and its
region with the handles that were issued. -/
def Route.Translates (route : Route) (w : World) (words : List UInt32) : Prop :=
  ∃ sender new ledger held, w.memory? route.sender.owner = some sender ∧
    words = sender.plainAt route.sender.commandBufferAddress ++ new ∧
    words.length = (sender.headerAt route.sender.commandBufferAddress).totalSize ∧
    route.Walks .empty (sender.regionAt route.sender.commandBufferAddress) w new ledger held

theorem Process.mapped_of_fetch? {process : Process} {address : UInt32} {header : Header}
    {command : CommandBuffer} (fetched : process.fetch? address = .ok (header, command)) :
    process.memory.checkMapped address 4 = .ok () := by
  unfold fetch? at fetched
  split at fetched
  · cases fetched
  · assumption

section

variable {w w' : World} {route : Route} {client server : Key Thread} {process : Process}
variable {sourceAddress targetAddress : UInt32} {memory : AddressSpace}
variable (sends : w.threads.get? client = some route.sender)
variable (receives : w.threads.get? server = some route.receiver)
include sends receives

/-- A command that was delivered was fetched. -/
theorem Delivers.fetched (owner : w.processes.get? route.sender.owner = some process)
    (delivers : Delivers client server sourceAddress targetAddress w (.ok ()) w') :
    ∃ header command, process.fetch? sourceAddress = .ok (header, command) := by
  cases delivers with
  | settled picks settles =>
    cases picks with
    | full =>
      cases settles with
      | delivered finished => cases finished
    | carried sends' receives' owner' fetched =>
      obtain rfl := Route.eq_of_threads sends receives sends' receives'
      obtain rfl := Option.some.inj (owner.symm.trans owner')
      exact ⟨_, _, fetched⟩

variable (slotted : w.Slotted)
include slotted

/-- A delivery to the receiver's buffer finds it mapped. It replaces the first words of it by those of
the command, and leaves every other memory alone. -/
theorem Delivers.lands {space : AddressSpace} (sending : w.memory? route.sender.owner = some space)
    (receiving : w.memory? route.receiver.owner = some memory)
    (wf : ∀ key table, w.table? key = some table → table.WellFormed)
    (delivers : Delivers client server sourceAddress route.receiver.commandBufferAddress w (.ok ()) w') :
    ∃ new ledger held old, route.Walks .empty (space.regionAt sourceAddress) w new ledger held ∧
      (space.plainAt sourceAddress ++ new).length = (space.headerAt sourceAddress).totalSize ∧
      w.Rewrites server (space.plainAt sourceAddress ++ new) w' ∧ w.Buffered server old := by
  obtain ⟨new, ledger, held, arrives⟩ := delivers.arrives sends receives sending receiving
  have length : (space.plainAt sourceAddress ++ new).length
      = (space.headerAt sourceAddress).totalSize := by
    rw [List.length_append, AddressSpace.length_plainAt, arrives.length, Header.totalSize]
  -- the delivery reached the first words of the buffer, and the others lie in the same page
  have some : 0 < (space.headerAt sourceAddress).totalSize * 4 := by
    rw [Header.totalSize, Header.plainSize]
    omega
  have stores := AddressSpace.checkMapped_of_one_page
    (slotted.reserved server _ receives).commandBuffer.2 some arrives.mapped
  obtain ⟨process, owner, rfl⟩ := Option.map_eq_some_iff.1 sending
  obtain ⟨header, command, fetched⟩ := delivers.fetched sends receives owner
  obtain ⟨rfl, -, bound⟩ := Process.of_fetch? fetched
  obtain ⟨other, sends', receives', confines⟩ := delivers.confines wf
  obtain rfl := Route.eq_of_threads sends receives sends' receives'
  refine ⟨new, ledger, held, _, arrives.walks, length, ⟨?_, ?_, ?_⟩,
    ⟨_, _, receives, receiving, stores, rfl⟩⟩
  · rw [length]
    exact bound
  · exact arrives.threads
  · exact ⟨_, _, receives, receiving, arrives.memory, confines.memories⟩

variable (owner : w.processes.get? route.sender.owner = some process)
variable (receiving : w.memory? route.receiver.owner = some memory)
variable (wf : ∀ key table, w.table? key = some table → table.WellFormed)
variable (delivers : Delivers client server route.sender.commandBufferAddress
  route.receiver.commandBufferAddress w (.ok ()) w')
include owner receiving wf delivers

/-- A delivery from buffer to buffer finds both of them mapped. It replaces the first words of the
receiver's by those of the command, and leaves every other memory alone. -/
theorem Delivers.rewrites : ∃ words asked old, route.Translates w words ∧
    w.Rewrites server words w' ∧ w.Buffered client asked ∧ w.Buffered server old := by
  have sending : w.memory? route.sender.owner = some process.memory := by simp [World.memory?, owner]
  obtain ⟨header, command, fetched⟩ := delivers.fetched sends receives owner
  obtain ⟨new, ledger, held, old, walks, length, rewrites, serving⟩ :=
    delivers.lands sends receives slotted sending receiving wf
  -- the first word of the sender's buffer was read, and the others lie in the same page
  have asked := AddressSpace.checkMapped_of_one_page
    (slotted.reserved client _ sends).commandBuffer.2 (by decide) (Process.mapped_of_fetch? fetched)
  exact ⟨_, _, old, ⟨_, new, ledger, held, sending, rfl, length, walks⟩, rewrites,
    ⟨_, _, sends, sending, asked, rfl⟩, serving⟩

end

/-! ## A request -/

section

variable {α : Type} {client server : Key Thread} {machine opened : Machine}
variable (handler : RequestContext → CommandBuffer → Action (α × CommandBuffer))

/-- The handler of a request that does not arrive is not run. -/
theorem sendRequest_of_refused {error : DeliveryError} {start : Machine}
    (refused : (deliverBetween client server).run start = .ok (.error error) machine) :
    sendRequest client server handler start = .ok ⟨none, .error error⟩ machine := by
  have opens : (openRequest client server).run start = .ok (.error error) machine :=
    run_bind_of_error refused
  exact bind_eq_ok_iff.2 ⟨_, _, opens, rfl⟩

/-- The handler of a request that arrived is run, and its reply is sent back. -/
theorem sendRequest_of_opened {request : CommandBuffer} {start : Machine}
    (opens : (openRequest client server).run start = .ok (.ok request) opened) :
    sendRequest client server handler start = (do
      let (answer, reply) ← handler ⟨client, server⟩ request
      return ⟨some answer, ← (closeRequest client server reply).run⟩ : Action (Exchange α)) opened := by
  show EStateM.bind (openRequest client server).run _ start = _
  rw [EStateM.bind, opens]
  rfl

theorem run_adapt_of_ok {ε δ σ : Type} {computation : Refusable ε σ α} {rename : ε → δ} {value : α}
    {start next : σ} (returned : computation.run start = .ok (.ok value) next) :
    (computation.adapt rename).run start = .ok (.ok value) next := by
  show EStateM.map _ computation.run start = _
  rw [EStateM.map, returned]
  rfl

/-- Once the request has arrived, the server's buffer is read, and nothing else is done. -/
theorem openRequest_of_delivered {start : Machine} {words : List UInt32}
    (delivered : (deliverBetween client server).run start = .ok (.ok ()) machine)
    (buffered : machine.world.Buffered server words)
    (there : machine.world.threads.get? client ≠ none) :
    ∃ request opened, (openRequest client server).run start = .ok (.ok request) opened ∧
      opened.world = machine.world ∧ request.toList = words := by
  have ⟨receiver, _, found, _⟩ := buffered
  have rest : Leads machine.world (do
      let request ← (loadCommandBuffer server).adapt DeliveryError.memory
      note (.requestReceived (← threadAt client).threadId (← threadAt server).threadId
        request.header.command)
      return request : Attempt DeliveryError CommandBuffer).run
      (fun outcome next => next = machine.world ∧ ∃ request, outcome = .ok request ∧
        request.toList = words) fun _ => False := by
    refine (buffered.leads_load.adapt DeliveryError.memory).bindRun ?_ ?_
    · rintro request next ⟨first, renamed, rfl, rfl⟩
      obtain rfl := Except.ok.inj renamed
      simp only [run_lift_bind]
      refine leads_threadAt_bind (fun _ _ => ?_) fun none => there none
      refine leads_threadAt_bind (fun _ _ => ?_) fun none => by cases found.symm.trans none
      exact leads_note_bind
        (leads_run_pure ⟨rfl, _, rfl, CommandBuffer.toList_ofList buffered.length⟩)
    · rintro error next ⟨first, renamed, -, rfl⟩
      cases renamed
  obtain ⟨outcome, opened, returned, same, request, rfl, words⟩ := rest.returns
  exact ⟨request, opened, (run_bind_of_ok delivered).trans returned, same, words⟩

end

/-- What a handler did: it made calls on the kernel, after which its reply can be sent, and left the
two threads and the memories of their processes alone. -/
structure Route.Handled (route : Route) (client server : Key Thread) (reply : CommandBuffer)
    (opened handled : Situation) : Prop where
  run : Run Situation.WithinLimits opened handled
  carries : handled.Carries (.closeRequest client server reply)
  client : handled.machine.world.threads.get? client ≠ none
  server : handled.machine.world.threads.get? server ≠ none
  asking : handled.machine.world.memory? route.sender.owner
    = opened.machine.world.memory? route.sender.owner
  serving : handled.machine.world.memory? route.receiver.owner
    = opened.machine.world.memory? route.receiver.owner

/-- What becomes of a reply that was stored in the server's buffer. -/
inductive Replies (client server : Key Thread) (asked : List UInt32) (reply : CommandBuffer)
    (w stored : World) : Except DeliveryError Unit → World → Prop
  /-- The client's buffer holds the request still, and every handle names what it named. -/
  | refused {error : DeliveryError} {w' : World} (buffer : w'.Buffered client asked)
      (tables : ∀ key, Option.Rel (fun old new : HandleTable =>
        ∀ handle, new.resolve handle = old.resolve handle) (w.table? key) (w'.table? key)) :
      Replies client server asked reply w stored (.error error) w'
  /-- The client's buffer begins with the translated reply and goes on as it was. -/
  | arrived {back : Route} {words : List UInt32} {w' : World}
      (sends : stored.threads.get? server = some back.sender)
      (receives : stored.threads.get? client = some back.receiver)
      (translated : back.Translates stored words)
      (buffer : w'.Buffered client (words ++ asked.drop words.length))
      (kept : w'.Buffered server reply.toList) :
      Replies client server asked reply w stored (.ok ()) w'

/-- How a request between two threads goes, by the outcome of its delivery. -/
inductive Route.Requests (route : Route) (client server : Key Thread) (s : Situation) :
    Except DeliveryError Unit → Machine → Prop
  /-- No handler is run, and nothing has changed but how a table is laid out. -/
  | refused {error : DeliveryError} {machine : Machine}
      (unheard : ∀ {α : Type} (handler : RequestContext → CommandBuffer → Action (α × CommandBuffer)),
        sendRequest client server handler s.machine = .ok ⟨none, .error error⟩ machine)
      (unchanged : s.machine.world.SameBut (.process route.receiver.owner) machine.world) :
      Requests route client server s (.error error) machine
  /-- The handler is run once, on the request as it arrived, and its reply is sent back. -/
  | heard {machine opened : Machine} {asked old words : List UInt32} {request : CommandBuffer}
      (asking : s.machine.world.Buffered client asked)
      (serving : s.machine.world.Buffered server old)
      (translated : route.Translates s.machine.world words)
      (arrived : request.toList = words ++ old.drop words.length)
      (heard : ∀ {α : Type} (handler : RequestContext → CommandBuffer → Action (α × CommandBuffer)),
        sendRequest client server handler s.machine = (do
          let (answer, reply) ← handler ⟨client, server⟩ request
          return ⟨some answer, ← (closeRequest client server reply).run⟩ : Action (Exchange α)) opened)
      (answered : ∀ {α : Type} (handler : RequestContext → CommandBuffer → Action (α × CommandBuffer))
        (answer : α) (reply : CommandBuffer) (handled : Situation),
        handler ⟨client, server⟩ request opened = .ok (answer, reply) handled.machine →
        route.Handled client server reply ⟨opened, s.held, s.inserted⟩ handled →
        ∃ stored outcome last,
          sendRequest client server handler s.machine = .ok ⟨some answer, outcome⟩ last ∧
          (storeCommandBuffer server reply).run handled.machine = .ok (.ok ()) stored ∧
          (deliverBetween server client).run stored = .ok outcome last ∧
          Replies client server asked reply handled.machine.world stored.world outcome last.world) :
      Requests route client server s (.ok ()) machine

section

variable {past w w' : World} {client server : Key Thread} {route : Route} {asked words : List UInt32}
variable {reply : CommandBuffer} {opened handled : Situation}

theorem World.SameBut.memory?_eq {key : TableKey} (same : w.SameBut key w') (place : Key Process) :
    w'.memory? place = w.memory? place := by
  have kept := same.processes place
  unfold memory?
  generalize w.processes.get? place = before at kept
  generalize w'.processes.get? place = after at kept
  cases kept with
  | none => rfl
  | some kept =>
    have memory := congrArg Process.memory kept
    exact congrArg some memory

theorem World.SameBut.buffered {key : TableKey} {thread : Key Thread} (same : w.SameBut key w')
    (buffered : w.Buffered thread words) : w'.Buffered thread words := by
  obtain ⟨owner, memory, found, holds, mapped, rfl⟩ := buffered
  exact ⟨owner, memory, same.threads ▸ found, (same.memory?_eq _).trans holds, mapped, rfl⟩

theorem World.SameBut.resolve {key : TableKey} (same : w.SameBut key w') (other : TableKey) :
    Option.Rel (fun old new : HandleTable => ∀ handle, new.resolve handle = old.resolve handle)
      (w.table? other) (w'.table? other) := by
  by_cases here : key = other
  · subst here
    have kept := same.table
    generalize w.table? key = before at kept
    generalize w'.table? key = after at kept
    cases kept with
    | none => exact .none
    | some kept => exact .some kept.2
  · rw [same.tables other here]
    cases w.table? other with
    | none => exact .none
    | some table => exact .some fun _ => rfl

/-- A reply that is stored rewrites the server's buffer. -/
theorem World.Writes.rewrites {owner : Thread} {memory : AddressSpace}
    (found : w.threads.get? server = some owner) (holds : w.memory? owner.owner = some memory)
    (writes : w.Writes owner.owner owner.commandBufferAddress reply.toList (.ok ()) w') :
    w.Rewrites server reply.toList w' where
  fits := (CommandBuffer.length_toList reply).le
  threads := writes.threads_eq
  written := by
    refine ⟨owner, memory, found, holds, writes.memory?_eq holds, fun place apart => ?_⟩
    rw [World.memory?, writes.get?_processes_of_ne apart, World.memory?]

/-- After a handler that left threads and memories alone the reply is stored, and what becomes of it
is what becomes of its delivery. -/
theorem Route.Handled.replies (done : route.Handled client server reply opened handled)
    (apart : client ≠ server) (sound : opened.Sound True past) (within : opened.WithinLimits)
    (slotted : opened.machine.world.Slotted)
    (sends : opened.machine.world.threads.get? client = some route.sender)
    (receives : opened.machine.world.threads.get? server = some route.receiver)
    (asking : opened.machine.world.Buffered client asked)
    (serving : opened.machine.world.Buffered server words) :
    ∃ stored outcome last,
      (storeCommandBuffer server reply).run handled.machine = .ok (.ok ()) stored ∧
      (deliverBetween server client).run stored = .ok outcome last ∧
      Replies client server asked reply handled.machine.world stored.world outcome last.world := by
  obtain ⟨sound, within⟩ := done.run.sound True (fun _ _ h => h) sound fun _ => within
  obtain ⟨slotted, places⟩ := done.run.slotted slotted
  have asking := asking.of_keepsPlaces places done.client fun thread found => by
    obtain rfl := Option.some.inj (sends.symm.trans found)
    exact done.asking
  have serving := serving.of_keepsPlaces places done.server fun thread found => by
    obtain rfl := Option.some.inj (receives.symm.trans found)
    exact done.serving
  have full := serving.length
  obtain ⟨sender, memory, sends, holds, mapped, -⟩ := id serving
  obtain ⟨process, owner, rfl⟩ := Option.map_eq_some_iff.1 holds
  have stores : Leads handled.machine.world (storeCommandBuffer server reply).run _ fun _ => False :=
    leads_storeCommandBuffer_of_mapped sends owner mapped
  obtain ⟨_, stored, stores, rfl, writes⟩ := stores.returns
  -- the reply stands in the server's buffer, and the client's is as it was
  have rewrites := writes.rewrites sends holds
  have asking := rewrites.buffered_of_ne slotted apart.symm asking
  have serving := rewrites.buffered serving
  rw [List.drop_eq_nil_of_le (full.trans_le (reply.length_toList).ge), List.append_nil] at serving
  obtain ⟨soundStored, withinStored⟩ := writes.sound sound fun _ => (within trivial).1
  have slottedStored := slotted.keep writes.keepsSlots
  obtain ⟨receiver, memory', receives, holds', -⟩ := id asking
  obtain ⟨process', owner', rfl⟩ := Option.map_eq_some_iff.1 holds'
  let back : Route := ⟨sender, receiver⟩
  have sends : stored.world.threads.get? server = some back.sender := rewrites.threads ▸ sends
  have written := writes.get?_processes owner
  have ends : Leads stored.world (deliverBetween server client).run _ fun _ => False :=
    leads_deliverBetween soundStored sends receives (by simp [back, written]) (by simp [back, owner'])
  obtain ⟨outcome, last, delivered, delivers⟩ := ends.returns
  refine ⟨stored, outcome, last, stores, delivered, ?_⟩
  cases outcome with
  | error error =>
    have carried := carried_deliverBetween soundStored (withinStored trivial)
      fun sender carriage next found reaches =>
        done.carries next ⟨stored.world, sender, carriage, ⟨_, _, stores, rfl⟩, found, reaches⟩
    obtain ⟨_, -, same⟩ := (carried.of_ok delivered).refused error rfl
    exact .refused (same.buffered asking) fun key => writes.table?_eq key ▸ same.resolve key
  | ok =>
    obtain ⟨words, -, -, translated, arrived, -, -⟩ := delivers.rewrites sends receives
      slottedStored written holds' soundStored.tables
    exact .arrived sends receives translated (arrived.buffered asking)
      (arrived.buffered_of_ne slottedStored apart serving)

/-- **Requests go there and back.** The handler of a request between two threads is run exactly if the
request arrives, and then once; before that nothing that was asked for is lost, and what goes wrong
on the way back leaves the request in the client's buffer. -/
theorem request_round_trip (route : Route) {s : Situation} (run : Run Situation.WithinLimits .new s)
    (carries : s.Carries (.openRequest client server)) (apart : client ≠ server)
    (sends : s.machine.world.threads.get? client = some route.sender)
    (receives : s.machine.world.threads.get? server = some route.receiver)
    (sender : s.machine.world.processes.get? route.sender.owner ≠ none)
    (receiver : s.machine.world.processes.get? route.receiver.owner ≠ none) :
    ∃ outcome machine, (deliverBetween client server).run s.machine = .ok outcome machine ∧
      route.Requests client server s outcome machine := by
  obtain ⟨sound, within⟩ := run.sound_of_new
  obtain ⟨slotted, -⟩ := run.slotted World.slotted_new
  have ends : Leads s.machine.world (deliverBetween client server).run _ fun _ => False :=
    leads_deliverBetween sound sends receives sender receiver
  obtain ⟨outcome, machine, returned, delivers⟩ := ends.returns
  have carried := (carried_deliverBetween sound within.1 fun sender carriage next found reaches =>
    carries next ⟨sender, carriage, found, reaches⟩).of_ok returned
  refine ⟨outcome, machine, returned, ?_⟩
  cases outcome with
  | error error =>
    obtain ⟨thread, found, same⟩ := carried.refused error rfl
    obtain rfl := Option.some.inj (receives.symm.trans found)
    exact .refused (fun handler => sendRequest_of_refused handler returned) same
  | ok =>
    obtain ⟨process, owner⟩ := Option.ne_none_iff_exists'.1 sender
    obtain ⟨process', owner'⟩ := Option.ne_none_iff_exists'.1 receiver
    have receiving : s.machine.world.memory? route.receiver.owner = some process'.memory := by
      simp [World.memory?, owner']
    obtain ⟨words, asked, old, translated, rewrites, asking, serving⟩ :=
      delivers.rewrites sends receives slotted owner receiving sound.tables
    have arrived := rewrites.buffered serving
    have sends' : machine.world.threads.get? client = some route.sender := rewrites.threads ▸ sends
    have receives' : machine.world.threads.get? server = some route.receiver :=
      rewrites.threads ▸ receives
    obtain ⟨request, opened, opens, same, read⟩ :=
      openRequest_of_delivered returned arrived (by simp [sends'])
    refine .heard asking serving translated read (fun handler => sendRequest_of_opened handler opens)
      fun handler answer reply handled returns done => ?_
    have soundOpened := carried.sound
    have withinOpened := carried.within
    have asking := rewrites.buffered_of_ne slotted apart.symm asking
    have slotted := slotted.keep delivers.keepsSlots
    rw [← same] at soundOpened withinOpened slotted asking arrived sends' receives'
    obtain ⟨stored, outcome, last, stores, delivered, replies⟩ :=
      done.replies apart soundOpened ⟨withinOpened, within.2⟩ slotted sends' receives' asking arrived
    refine ⟨stored, outcome, last, ?_, stores, delivered, replies⟩
    have closes : (closeRequest client server reply).run handled.machine = .ok outcome last :=
      (run_bind_of_ok (run_adapt_of_ok stores)).trans delivered
    rw [sendRequest_of_opened handler opens]
    exact bind_eq_ok_iff.2 ⟨_, _, returns, bind_eq_ok_iff.2 ⟨_, _, closes, rfl⟩⟩

/-- A process with a thread that asks and one that serves. A request that copies a handle stands in
the first thread's command buffer. -/
def Situation.asking : Situation :=
  performAll [.createProcess "process", .createThread ⟨0⟩ "client", .createThread ⟨0⟩ "server",
    .createEvent "event" .oneShot, .create (.process ⟨0⟩) ⟨⟨0⟩, ⟨4⟩⟩,
    .runGuest ⟨0⟩ ((AddressSpace.empty.map 0x1FF82000 4096).setWords 0x1FF82080 [0x10002, 0, 1])]

/-- Client and server are threads of one process. -/
theorem request_round_trip_of_asking : ∃ (route : Route) (machine : Machine),
    (deliverBetween ⟨0⟩ ⟨1⟩).run Situation.asking.machine = .ok (.ok ()) machine ∧
      route.sender.owner = route.receiver.owner ∧
      route.Requests ⟨0⟩ ⟨1⟩ Situation.asking (.ok ()) machine := by
  have run : Run Situation.WithinLimits .new Situation.asking :=
    Situation.run_performAll (by decide) (by decide +kernel)
  have few : ∀ ref, Situation.asking.references ref < 2 ^ 31 :=
    Situation.references_lt (by decide +kernel)
  have carries : Situation.asking.Carries (.openRequest ⟨0⟩ ⟨1⟩) :=
    (Situation.reachable_performAll _).carries few
  have parties : ∃ route : Route,
      Situation.asking.machine.world.threads.get? ⟨0⟩ = some route.sender ∧
        Situation.asking.machine.world.threads.get? ⟨1⟩ = some route.receiver ∧
        route.sender.owner = route.receiver.owner ∧
        Situation.asking.machine.world.processes.get? route.sender.owner ≠ none :=
    ⟨⟨_, _⟩, rfl, rfl, by decide +kernel, Option.isSome_iff_ne_none.1 (by decide +kernel)⟩
  have arrives : (Effect.runFrom (deliverBetween ⟨0⟩ ⟨1⟩).run Situation.asking.machine).map Prod.fst
      = .ok (.ok ()) := by decide +kernel
  obtain ⟨_, _, arrived, rfl⟩ := exists_of_runFrom arrives
  obtain ⟨route, sends, receives, same, owner⟩ := parties
  obtain ⟨outcome, machine, returned, requests⟩ :=
    request_round_trip route run carries (by decide) sends receives owner (same ▸ owner)
  cases arrived.symm.trans returned
  exact ⟨route, _, returned, same, requests⟩

end

end MicrokernelIpc
