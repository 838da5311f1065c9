import MicrokernelIpc.Proofs.Delivery.AllOrNothing
import MicrokernelIpc.Proofs.Delivery.Confinement
import MicrokernelIpc.Proofs.Delivery.Senders
import MicrokernelIpc.Proofs.Kernel.Identities

/-!
# Whom the kernel tells of

Wherever a trail leads, as long as no object has 2^32 references and fewer than 2^32 things of each
kind are made, processes and threads are on record as who they are, identifiers are not shared, and a
command tells who sent it.
-/

namespace MicrokernelIpc

/-- No object has 2^32 references. -/
def Situation.Bounded (s : Situation) : Prop := ∀ ref, s.references ref < 2 ^ 32

/-- What is kept by operations: references are counted and so are identifiers, and everyone is on
record. -/
structure Situation.Orderly (ops : List Operation) (s : Situation) : Prop where
  sound : s.Sound True World.new
  bounded : s.Bounded
  inserted : s.inserted ≤ 2 * creations ops
  slotted : s.machine.world.Slotted
  recorded : s.machine.world.Recorded
  numbered : s.machine.world.Numbered fun counter => created ops (.counted counter)

/-- The identifiers of objects stand for the same objects as then or for none. -/
structure World.Remembers (w w' : World) : Prop where
  outlives : w.Outlives w'
  keeps : w.KeepsObjects w'

theorem World.Remembers.refl (w : World) : w.Remembers w :=
  ⟨.refl w, keepsObjects_of_imp fun _ _ there => there⟩

theorem World.Remembers.trans {w next w' : World} (first : w.Remembers next)
    (second : next.Remembers w') : w.Remembers w' :=
  ⟨first.outlives.trans second.outlives, first.keeps.trans first.outlives second.keeps⟩

theorem World.recorded_new : World.new.Recorded where
  processes key process found := by simp [World.new, Roster.empty, Roster.get?] at found
  threads key thread found := by simp [World.new, Roster.empty, Roster.get?] at found

theorem Situation.orderly_new : Orderly [] new :=
  ⟨sound_new True, withinLimits_new.1, Nat.zero_le _, World.slotted_new, World.recorded_new,
    World.numbered_new⟩

section

variable {s t : Situation} {op : Operation} {ops more : List Operation}

/-- An operation keeps the order. -/
theorem Situation.Orderly.step {gained : Multiset ObjectRef} {machine : Machine}
    (orderly : s.Orderly ops) (few : Few (ops ++ [op])) (lawful : op.Lawful s.machine.world)
    (allowed : op.Allowed s.held) (returned : op.run s.machine = .ok gained machine)
    (moments : ∀ moment : Machine, op.Passes s.machine.world moment.world →
      Bounded { s with machine := moment })
    (reached : (s.after op gained machine).Bounded) :
    (s.after op gained machine).Orderly (ops ++ [op]) ∧
      s.machine.world.Remembers machine.world := by
  have does := op.does_run.of_ok returned
  have inserted : s.inserted + op.inserts ≤ 2 * creations (ops ++ [op]) := by
    have := orderly.inserted
    have := op.inserts_le
    have all : creations (ops ++ [op]) = creations ops + creations [op] := List.countP_append
    omega
  have limit : s.inserted + op.inserts < 2 ^ 64 := by
    have := few.creations_lt
    omega
  have steps {past : World} (sound : s.Sound True past) : (s.after op gained machine).Sound True past :=
    (op.sound_run sound (fun _ => orderly.bounded) (fun _ => limit) allowed
      fun _ moment passes => moments ⟨moment, #[]⟩ passes).of_ok returned
  have sound := steps orderly.sound
  have outlives := (steps (World.Sound.now orderly.sound)).since trivial
  have keeps := does.keepsObjects lawful orderly.sound limit
  have numbered := does.numbered (fun counter => few.of_append _) orderly.numbered
  simp only [← created_append] at numbered
  exact ⟨⟨sound, reached, inserted, (does.slotted orderly.slotted).1,
    does.recorded keeps orderly.sound sound orderly.slotted orderly.recorded, numbered⟩,
    outlives, keeps⟩

namespace Trail

variable (trail : Trail Situation.Bounded Operation.Lawful s more t) (few : Few (ops ++ more))
include trail few

/-- A trail keeps the order, and what is known of before. -/
theorem orderly (orderly : s.Orderly ops) :
    t.Orderly (ops ++ more) ∧ s.machine.world.Remembers t.machine.world := by
  induction trail with
  | refl => exact ⟨ops.append_nil.symm ▸ orderly, .refl _⟩
  | step _ lawful allowed returned moments reached ih =>
    rw [← List.append_assoc] at few ⊢
    obtain ⟨orderly, remembers⟩ := ih few.of_append
    obtain ⟨orderly, remembered⟩ := orderly.step few lawful allowed returned moments reached
    exact ⟨orderly, remembers.trans remembered⟩

variable {counter : Counter} {index : Nat} {place : Key Arena} {id : UInt32}

theorem claims
    (claims : s.machine.world.Claims counter (created ops (.counted counter)) index place id) :
    t.machine.world.Claims counter (created (ops ++ more) (.counted counter)) index place id := by
  induction trail with
  | refl => rwa [List.append_nil]
  | @step _ _ op _ _ _ _ _ returned _ _ ih =>
    rw [← List.append_assoc] at few ⊢
    rw [created_append]
    exact (op.does_run.of_ok returned).claims (few.of_append _) (ih few.of_append)

omit few

theorem spent
    (spent : s.machine.world.Spent counter (created ops (.counted counter)) place id) :
    t.machine.world.Spent counter (created (ops ++ more) (.counted counter)) place id := by
  induction trail with
  | refl => rwa [List.append_nil]
  | @step _ _ op _ _ _ _ _ returned _ _ ih =>
    rw [← List.append_assoc, created_append]
    exact (op.does_run.of_ok returned).spent ih

end Trail

end

/-! ## Sessions -/

/-- The two ends of a session are there, with its identifier. -/
structure World.Joins (w : World) (server client : ObjectRef) (name : String) (id : UInt32) :
    Prop where
  server : w.object? server = some (.session ⟨name, id, .server⟩)
  client : w.object? client = some (.session ⟨name, id, .client⟩)

theorem World.AddsSessionPair.joins {w w' past : World} {inserted : Nat} {held : Multiset ObjectRef}
    {name : String} {server client : ObjectRef} (adds : w.AddsSessionPair name server client w')
    (sound : Sound True past inserted held w) (limit : inserted + 2 < 2 ^ 64) :
    w'.Joins server client name w.kernel.nextSessionId := by
  have apart : server ≠ client := by
    cases adds with
    | intro first second =>
      have one : inserted + 1 < 2 ^ 64 := by omega
      have sound := first.sound (sound.setKernel _) one
      rintro rfl
      exact second.not_known sound limit (sound.known_of_object first.object?_self)
  exact ⟨by rw [adds.object?_eq, if_neg apart, if_pos rfl], by rw [adds.object?_eq, if_pos rfl]⟩

/-- The ends of a session are what they are for as long as they are there, and no other pair that
their kernel makes has their identifier. -/
structure Situation.Distinguishes (t : Situation) (server client : ObjectRef) (name : String)
    (id : UInt32) : Prop where
  served : ∀ object, t.machine.world.object? server = some object →
    object = .session ⟨name, id, .server⟩
  asked : ∀ object, t.machine.world.object? client = some object →
    object = .session ⟨name, id, .client⟩
  others : ∀ name server' client' machine,
    createSessionPair name t.machine = .ok (server', client') machine →
      server'.arena = server.arena → ∃ other, machine.world.Joins server' client' name other ∧ other ≠ id

/-! ## Senders -/

/-- What the record says that a pseudo-handle stands for at the sender. -/
def Route.ownRecord (route : Route) (process : Process) : PseudoHandle → KernelObject
  | .currentThread => route.sender.record process.processId
  | .currentProcess => process.record

/-- Where a command stands that was delivered, and the objects of its handles. -/
structure Route.Identifies (route : Route) (process : Process) (sourceAddress targetAddress : UInt32)
    (memory : AddressSpace) (table : HandleTable) (w' : World) : Prop where
  holds : w'.memory? route.receiver.owner = some memory
  found : w'.table? route.receiverTable = some table
  attests : route.Attests process (process.memory.regionAt sourceAddress)
    (memory.regionAt targetAddress) table
  records : ∀ pseudo, w'.object? (route.own process pseudo) = some (route.ownRecord process pseudo)

section

variable {route : Route} {w w' : World} {source target : Key Thread} {process : Process}
variable {sourceAddress targetAddress : UInt32}

/-- A delivery leaves its sender there. -/
theorem Delivers.process_same {gained : Multiset ObjectRef}
    (delivers : Delivers source target sourceAddress targetAddress w (.ok ()) w')
    (does : (Operation.deliver source target sourceAddress targetAddress).Does w gained w')
    (wf : ∀ key table, w.table? key = some table → table.WellFormed)
    (sends : w.threads.get? source = some route.sender)
    (receives : w.threads.get? target = some route.receiver)
    (owner : w.processes.get? route.sender.owner = some process) :
    ∃ after, w'.processes.get? route.sender.owner = some after ∧ process.Same after := by
  have memory : ∃ memory, w'.memory? route.sender.owner = some memory := by
    have sending := World.memory?_of_process owner
    obtain ⟨_, receiver, -, receiving⟩ := delivers.parties sends receives
    obtain ⟨_, _, _, arrives⟩ := delivers.arrives sends receives sending receiving
    obtain ⟨other, sends', receives', confines⟩ := delivers.confines wf
    obtain rfl := Route.eq_of_threads sends receives sends' receives'
    by_cases same : other.receiver.owner = other.sender.owner
    · exact ⟨_, same ▸ arrives.memory⟩
    · exact ⟨_, (confines.memories _ same).trans sending⟩
  obtain ⟨_, holds⟩ := memory
  obtain ⟨after, there, -⟩ := Option.map_eq_some_iff.1 holds
  rcases does.process_cases there with ⟨before, here, same⟩ | ⟨made, -⟩
  · obtain rfl := Option.some.inj (owner.symm.trans here)
    exact ⟨after, there, same⟩
  · cases made

end

/-! ## Every trail -/

/-- Where a trail leads, and from there on, identities stay consistent. -/
structure Identified (ops : List Operation) (s : Situation) : Prop where
  /-- Every process and every thread is in the arena as a record of who it is. -/
  recorded : s.machine.world.Recorded
  /-- No two processes that a kernel makes have the same identifier, whether or not the first is
  still there when the other is made. -/
  processes : ∀ more t, Trail Situation.Bounded Operation.Lawful s more t → Few (ops ++ more) →
    ∀ key process other another, s.machine.world.processes.get? key = some process →
      t.machine.world.processes.get? other = some another → key ≠ other →
        process.object.arena = another.object.arena → process.processId ≠ another.processId
  threads : ∀ more t, Trail Situation.Bounded Operation.Lawful s more t → Few (ops ++ more) →
    ∀ key thread other another, s.machine.world.threads.get? key = some thread →
      t.machine.world.threads.get? other = some another → key ≠ other →
        thread.object.arena = another.object.arena → thread.threadId ≠ another.threadId
  sessions : ∀ name server client u more t,
    Trail Situation.Bounded Operation.Lawful s [.createSessionPair name] u →
      createSessionPair name s.machine = .ok (server, client) u.machine →
        Trail Situation.Bounded Operation.Lawful u more t →
          Few (ops ++ .createSessionPair name :: more) →
            ∃ id, u.machine.world.Joins server client name id ∧ t.Distinguishes server client name id
  /-- A command tells who sent it, and the records of the sender are there. A request and its reply
  are commands that go from buffer to buffer, the reply after a write to the server's memory. -/
  senders : ∀ source target sourceAddress targetAddress t (route : Route) process,
    Trail Situation.Bounded Operation.Lawful s
        [.deliver source target sourceAddress targetAddress] t →
      (deliver source target sourceAddress targetAddress).run s.machine = .ok (.ok ()) t.machine →
        s.machine.world.threads.get? source = some route.sender →
          s.machine.world.threads.get? target = some route.receiver →
            s.machine.world.processes.get? route.sender.owner = some process →
              ∃ memory table, route.Identifies process sourceAddress targetAddress memory table
                t.machine.world

namespace Situation.Orderly

variable {ops more : List Operation} {s t u : Situation}

theorem distinguishes {name : String} {server client : ObjectRef} (orderly : s.Orderly ops)
    (made : Trail Situation.Bounded Operation.Lawful s [.createSessionPair name] u)
    (returned : createSessionPair name s.machine = .ok (server, client) u.machine)
    (trail : Trail Situation.Bounded Operation.Lawful u more t)
    (few : Few (ops ++ .createSessionPair name :: more)) :
    ∃ id, u.machine.world.Joins server client name id ∧ t.Distinguishes server client name id := by
  rw [List.append_cons] at few
  have adds {name : String} {start machine : Machine} {server client : ObjectRef}
      (returned : createSessionPair name start = .ok (server, client) machine) :
      start.world.AddsSessionPair name server client machine.world := by
    have leads : Leads start.world (createSessionPair name) _ fun _ => True :=
      leads_createSessionPair fun _ => trivial
    exact leads.of_ok returned
  have room {ops : List Operation} {s : Situation} (orderly : s.Orderly ops) (few : Few ops) :
      s.inserted + 2 < 2 ^ 64 := by
    have := orderly.inserted
    have := few.creations_lt
    omega
  obtain ⟨opened, -⟩ := made.orderly few.of_append orderly
  obtain ⟨later, remembers⟩ := trail.orderly few opened
  have first := adds returned
  have joins := first.joins orderly.sound (room orderly few.of_append.of_append)
  obtain ⟨issues, -⟩ := first.issues
  refine ⟨_, joins, ⟨fun object there => ?_, fun object there => ?_, ?_⟩⟩
  · exact remembers.keeps.eq_of_isFixed opened.sound joins.server rfl there
  · exact remembers.keeps.eq_of_isFixed opened.sound joins.client rfl there
  · intro name' server' client' machine returned' here
    have second := adds returned'
    refine ⟨_, second.joins later.sound (room later few), ?_⟩
    have advanced : s.machine.world.kernel.arena.index < u.machine.world.arenas.next :=
      issues.here ▸ issues.arena.trans_le (Operation.Does.sessions first).arenas_next
    have spent := (orderly.numbered.counts .session).spent advanced issues.advanced
    rw [← issues.here] at spent
    have one : created ops (.counted .session) + 1
        = created (ops ++ [.createSessionPair name]) (.counted .session) := by
      rw [created_append]
      rfl
    rw [one] at spent
    exact (trail.spent spent).ne_next (few _) (second.issues.1.here.symm.trans here)

/-- Nobody bears the identifier of another. -/
theorem alone {counter : Counter} {index other : Nat} {place place' : Key Arena} {id another : UInt32}
    (orderly : s.Orderly ops) (trail : Trail Situation.Bounded Operation.Lawful s more t)
    (few : Few (ops ++ more)) (bears : s.machine.world.IdOf counter index place id)
    (later : t.machine.world.IdOf counter other place' another) (here : place = place')
    (apart : index ≠ other) : id ≠ another := by
  subst here
  have claims := trail.claims few (orderly.numbered.claims counter index place id bears)
  exact (claims.alone other another later apart.symm).symm

theorem identifies {route : Route} {process : Process} {source target : Key Thread}
    {sourceAddress targetAddress : UInt32} (orderly : s.Orderly ops) (few : Few ops)
    (trail : Trail Situation.Bounded Operation.Lawful s
      [.deliver source target sourceAddress targetAddress] t)
    (delivered : (deliver source target sourceAddress targetAddress).run s.machine
      = .ok (.ok ()) t.machine)
    (sends : s.machine.world.threads.get? source = some route.sender)
    (receives : s.machine.world.threads.get? target = some route.receiver)
    (owner : s.machine.world.processes.get? route.sender.owner = some process) :
    ∃ memory table,
      route.Identifies process sourceAddress targetAddress memory table t.machine.world := by
  have few : Few (ops ++ [.deliver source target sourceAddress targetAddress]) := by
    intro kind
    rw [created_append]
    exact few kind
  obtain ⟨later, remembers⟩ := trail.orderly few orderly
  have delivers := delivers_of_ok delivered
  have returned : (Operation.deliver source target sourceAddress targetAddress).run s.machine
      = .ok 0 t.machine := bind_eq_ok_iff.2 ⟨_, _, delivered, rfl⟩
  have does := (Operation.does_run _).of_ok returned
  have sending := World.memory?_of_process owner
  obtain ⟨_, receiver, -, receiving⟩ := delivers.parties sends receives
  obtain ⟨new, ledger, held, arrives⟩ := delivers.arrives sends receives sending receiving
  obtain ⟨memory, holds, -, -, region⟩ := arrives.readBack
  obtain ⟨inbox, table⟩ : ∃ inbox, s.machine.world.table? route.receiverTable = some inbox := by
    obtain ⟨receiving, there, -⟩ := Option.map_eq_some_iff.1 receiving
    exact ⟨receiving.handles, World.table?_receiverTable there⟩
  obtain ⟨last, found, attests⟩ := arrives.attests owner table (orderly.sound.tables _ _ table)
  -- the sender and its process are still there
  have thread : t.machine.world.threads.get? source = some route.sender := arrives.threads ▸ sends
  obtain ⟨after, still, same⟩ : ∃ after,
      t.machine.world.processes.get? route.sender.owner = some after ∧ process.Same after :=
    delivers.process_same does orderly.sound.tables sends receives owner
  refine ⟨memory, last, holds, found, region ▸ attests, fun pseudo => ?_⟩
  cases pseudo with
  | currentThread =>
    obtain ⟨processId, record, owners⟩ := later.recorded.threads source _ thread
    rw [← owners after still, same.processId] at record
    exact record
  | currentProcess =>
    have record := later.recorded.processes _ after still
    rw [same.object, same.record] at record
    exact record

end Situation.Orderly

/-- **Identities stay consistent** wherever a trail leads. -/
theorem Trail.identified {ops : List Operation} {s : Situation}
    (trail : Trail Situation.Bounded Operation.Lawful .new ops s) (few : Few ops) :
    Identified ops s := by
  obtain ⟨orderly, -⟩ := trail.orderly (show Few ([] ++ ops) from few) Situation.orderly_new
  refine ⟨orderly.recorded, ?_, ?_, ?_, ?_⟩
  · intro more t later few key process other another found there apart here
    exact orderly.alone later few (.process found) (.process there) here fun same =>
      apart (congrArg Key.mk same)
  · intro more t later few key thread other another found there apart here
    exact orderly.alone later few (.thread found) (.thread there) here fun same =>
      apart (congrArg Key.mk same)
  · intro name server client u more t made returned later few
    exact orderly.distinguishes made returned later few
  · intro source target sourceAddress targetAddress t route process step delivered sends receives owner
    exact orderly.identifies few step delivered sends receives owner

/-- A process with a thread, and one with two threads and a handle to one end of a session. A command
at the beginning of the second one's memory copies the pseudo-handle of its thread, moves the handle
and asks for its sender. -/
def presenting : List Operation :=
  [.createProcess "one", .createThread ⟨0⟩ "a", .createProcess "two", .createThread ⟨1⟩ "b",
    .createThread ⟨1⟩ "c", .createSessionPair "port", .create (.process ⟨1⟩) ⟨⟨0⟩, ⟨6⟩⟩,
    .runGuest ⟨1⟩ ((AddressSpace.empty.map 0 4096).setWords 0
      [0x10006, 0, 0xFFFF8000, 0x10, 1, 0x20, 0xDEAD])]

namespace Situation

theorem trail_presenting : Trail Bounded Operation.Lawful .new presenting (performAll presenting) := by
  have quiet : ∀ op ∈ presenting, op.isDelivery = false := by decide
  exact .performs .refl (by simp [Operation.Lawful])
    (fun op mem _ _ passes => (Operation.not_passes (quiet op mem) passes).elim)
    (fun _ _ reached => (withinLimits_take (by decide +kernel) reached).1)
    (foldlM_perform?_new (by decide +kernel))

theorem presenting_delivers : ∃ machine memory,
    (deliver ⟨1⟩ ⟨2⟩ 0 0x100).run (performAll presenting).machine = .ok (.ok ()) machine ∧
    machine.world.memory? ⟨1⟩ = some memory ∧
    memory.regionAt 0x100 = [0, 0x8002, 0x10, 0x10003, 0x20, 1] ∧
    (performAll presenting).held.card + machine.world.size < 2 ^ 32 := by
  have arrives : (Effect.runFrom (deliver ⟨1⟩ ⟨2⟩ 0 0x100).run (performAll presenting).machine).map
      (fun (outcome, machine) =>
        (outcome, (machine.world.memory? ⟨1⟩).map fun memory => memory.regionAt 0x100,
          decide ((performAll presenting).held.card + machine.world.size < 2 ^ 32)))
      = .ok (.ok (), some [0, 0x8002, 0x10, 0x10003, 0x20, 1], true) := by decide +kernel
  obtain ⟨_, machine, delivered, read⟩ := exists_of_runFrom arrives
  simp only [Prod.mk.injEq, Option.map_eq_some_iff, decide_eq_true_eq] at read
  obtain ⟨rfl, ⟨memory, holds, region⟩, small⟩ := read
  exact ⟨machine, memory, delivered, holds, region, small⟩

end Situation

/-- Between two threads of one process the handle that arrives for the pseudo-handle names the record
of the thread that sent it, though another handle of the command is moved, and the id that arrives is
that of its process. -/
theorem identified_with_delivery : ∃ (s t : Situation) (route : Route) (process : Process)
    (memory : AddressSpace) (table : HandleTable),
    Trail Situation.Bounded Operation.Lawful .new presenting s ∧ Few presenting ∧
    Identified presenting s ∧
    (deliver ⟨1⟩ ⟨2⟩ 0 0x100).run s.machine = .ok (.ok ()) t.machine ∧
    route.Identifies process 0 0x100 memory table t.machine.world ∧
    memory.regionAt 0x100 = [0, 0x8002, 0x10, 0x10003, 0x20, 1] ∧
    table.resolve ⟨0x8002⟩ = some route.sender.object ∧ process.processId = 1 ∧
    t.machine.world.object? route.sender.object
      = some (.thread ⟨"b", route.sender.threadId, 1⟩) := by
  have trail := Situation.trail_presenting
  have few : Few presenting := fun _ => List.countP_le_length.trans_lt (by decide)
  have identified := Trail.identified trail few
  obtain ⟨machine, memory, delivered, holds, region, small⟩ := Situation.presenting_delivers
  have parties : ∃ (route : Route) (process : Process),
      (Situation.performAll presenting).machine.world.threads.get? ⟨1⟩ = some route.sender ∧
        (Situation.performAll presenting).machine.world.threads.get? ⟨2⟩ = some route.receiver ∧
        (Situation.performAll presenting).machine.world.processes.get? route.sender.owner
          = some process ∧
        route.receiver.owner = ⟨1⟩ ∧ route.sender.name = "b" ∧
        survey (process.memory.regionAt 0) = .ok ([] ++ (false, ⟨0xFFFF8000⟩) :: [(true, ⟨1⟩)]) ∧
        callerIds (process.memory.regionAt 0) = [0xDEAD] :=
    ⟨⟨_, _⟩, _, rfl, rfl, rfl, by decide +kernel, by decide +kernel, by decide +kernel,
      by decide +kernel⟩
  obtain ⟨route, process, sends, receives, owner, place, name, asked, caller⟩ := parties
  have sound := (Situation.reachable_performAll presenting).sound
  have roomy : ∀ ref, (Situation.performAll presenting).references ref < 2 ^ 31 :=
    Situation.references_lt (by decide +kernel)
  let op : Operation := .deliver ⟨1⟩ ⟨2⟩ 0 0x100
  have step : Trail Situation.Bounded Operation.Lawful (Situation.performAll presenting) [op]
      ((Situation.performAll presenting).after op 0 machine) := by
    refine .step .refl trivial (Multiset.zero_le _) (bind_eq_ok_iff.2 ⟨_, _, delivered, rfl⟩) ?_ ?_
    · rintro moment ⟨carriage, reaches⟩
      exact sound.within_of_few roomy reaches
    · refine Situation.references_lt ?_
      simpa [Situation.after, op, Operation.gives] using small
  obtain ⟨memory', table, identifies⟩ :=
    identified.senders _ _ _ _ _ route process step delivered sends receives owner
  obtain rfl : memory' = memory := by
    have holds' := identifies.holds
    rw [place] at holds'
    exact Option.some.inj (holds'.symm.trans holds)
  have pid : process.processId = 1 := by
    have ids := identifies.attests.ids
    have arrived : callerIds [0, 0x8002, 0x10, 0x10003, 0x20, 1] = [1] := by decide +kernel
    rw [region, arrived, caller] at ids
    exact (List.cons.inj ids).1.symm
  have record := identifies.records .currentThread
  refine ⟨_, _, route, process, memory', table, trail, few, identified, delivered, identifies, region,
    ?_, pid, ?_⟩
  · have arrived : survey (memory'.regionAt 0x100)
        = .ok ([] ++ (false, ⟨0x8002⟩) :: [(true, ⟨0x10003⟩)]) := by
      rw [region]
      decide +kernel
    exact identifies.attests.resolve_issued asked arrived rfl rfl (by decide)
  · rw [← pid, ← name]
    exact record

end MicrokernelIpc
