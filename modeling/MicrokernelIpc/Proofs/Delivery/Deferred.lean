import MicrokernelIpc.Proofs.Delivery.AllOrNothing
import MicrokernelIpc.Proofs.Delivery.Eager
import MicrokernelIpc.Proofs.Delivery.Handings

/-!
# Deliveries agree with the eager translator

While a command is carried the kernel trails behind the eager translator by what the sender is
still to lose: those handles are open at the sender and each has one reference more. All else is
the same in both worlds, so both hand out the same handles, and once the sender's handles are
closed in the order in which they were moved nothing is owed any more.
-/

namespace MicrokernelIpc

namespace World

/-- The first world is ahead of the second by handles that are taken out of one table there
already, in this order, and have no reference any more. -/
structure Owes (key : TableKey) (owed : List (Handle × ObjectRef)) (v w : World) : Prop where
  gained : Gained (owed.map Prod.snd : List ObjectRef) v w
  table : ∃ table rest, w.table? key = some table ∧ table.Sheds owed rest ∧
    v = (w.setTable rest key).withArenas v.arenas

variable {v w w' : World} {key other : TableKey} {owed : List (Handle × ObjectRef)}
variable {table next : HandleTable} {handle : Handle} {object : ObjectRef} {place : Key Process}

theorem owes_refl (found : w.table? key = some table) : Owes key [] w w :=
  ⟨.refl w, table, table, found, .nil, by rw [setTable_self found, withArenas_self]⟩

theorem Owes.table?_of_ne (owes : Owes key owed v w) (h : key ≠ other) :
    v.table? other = w.table? other := by
  obtain ⟨table, rest, found, sheds, same⟩ := owes.table
  rw [same, table?_withArenas, table?_setTable, if_neg h]

/-- What a process is ahead of time differs from what it is in its handles only. -/
theorem Owes.get?_processes (owes : Owes key owed v w) (place : Key Process) :
    ∃ f : Process → HandleTable, v.processes.get? place
      = (w.processes.get? place).map fun process => { process with handles := f process } := by
  obtain ⟨table, rest, found, sheds, same⟩ := owes.table
  refine ⟨fun process => if key = .process place then rest else process.handles, ?_⟩
  have processes : v.processes = (w.setTable rest key).processes := by rw [same]; rfl
  rw [processes, get?_processes_setTable]
  congr 1
  funext process
  split <;> rfl

theorem Owes.get?_processes_of_ne (owes : Owes key owed v w) (h : key ≠ .process place) :
    v.processes.get? place = w.processes.get? place := by
  obtain ⟨table, rest, found, sheds, same⟩ := owes.table
  have processes : v.processes = (w.setTable rest key).processes := by rw [same]; rfl
  simp [processes, get?_processes_setTable, h]

/-- A handle that is taken out ahead of time is owed from then on. -/
theorem Owes.take {rest : HandleTable} (owes : Owes key owed v w)
    (found : v.table? key = some rest) (taken : rest.take handle = some (object, next))
    (retained : w.retain? object = some w') :
    Owes key (owed ++ [(handle, object)]) (v.setTable next key) w' := by
  obtain ⟨table, current, there, sheds, same⟩ := owes.table
  have current_eq : v.table? key = some current := by
    rw [same, table?_withArenas, table?_setTable_self there]
  obtain rfl := Option.some.inj (current_eq.symm.trans found)
  refine ⟨?_, table, next, (table?_of_retain? retained).trans there, sheds.concat taken, ?_⟩
  · have perm := List.perm_append_singleton object (owed.map Prod.snd)
    rw [List.map_append, List.map_singleton, Multiset.coe_eq_coe.2 perm]
    exact (owes.gained.retain retained).of_before (arenas_setTable next)
  · rw [same, of_retain? retained]
    simp

/-- A reference that is taken is taken in both worlds. -/
theorem Owes.retain (owes : Owes key owed v w) (retained : w.retain? object = some w') :
    ∃ v', v.retain? object = some v' ∧ Owes key owed v' w' := by
  obtain ⟨table, rest, found, sheds, same⟩ := owes.table
  obtain ⟨v', retained'⟩ := owes.gained.exists_retain? retained
  have gained := owes.gained.of_both (gained_of_retain? retained') (gained_of_retain? retained)
  refine ⟨v', retained', gained, table, rest, (table?_of_retain? retained).trans found, sheds, ?_⟩
  rw [of_retain? retained', same, of_retain? retained]
  simp

/-- A change to another table is made in both worlds. -/
theorem Owes.setTable (owes : Owes key owed v w) (h : key ≠ other) (table : HandleTable) :
    Owes key owed (v.setTable table other) (w.setTable table other) := by
  obtain ⟨current, rest, found, sheds, same⟩ := owes.table
  refine ⟨(owes.gained.of_arenas (arenas_setTable table)).of_before (arenas_setTable table),
    current, rest, ?_, sheds, ?_⟩
  · rw [table?_setTable, if_neg h.symm, found]
  · rw [arenas_setTable]
    nth_rewrite 1 [same]
    rw [setTable_withArenas, setTable_comm h]

/-- A change to a process with another table is made in both worlds. -/
theorem Owes.setProcess (owes : Owes key owed v w) (h : key ≠ .process place) (process : Process) :
    Owes key owed (v.setProcess place process) (w.setProcess place process) := by
  obtain ⟨current, rest, found, sheds, same⟩ := owes.table
  refine ⟨(owes.gained.of_arenas (arenas_setProcess place process)).of_before
    (arenas_setProcess place process), current, rest, ?_, sheds, ?_⟩
  · rw [table?_setProcess h, found]
  · rw [setProcess_setTable h]
    nth_rewrite 1 [same]
    rfl

/-- The handle that was owed first is closed. -/
theorem Owes.close {outcome : Except HandleTableError Unit}
    (owes : Owes key ((handle, object) :: owed) v w) (roomy : v.Roomy (owed.length + 1))
    (closes : w.Closes key handle outcome w') : Owes key owed v w' := by
  obtain ⟨table, rest, found, sheds, same⟩ := owes.table
  cases sheds with
  | @cons _ next _ _ _ _ first after =>
    cases closes with
    | unknown there unresolved =>
      obtain rfl := Option.some.inj (found.symm.trans there)
      simp [first] at unresolved
    | closed there taken released =>
      obtain rfl := Option.some.inj (found.symm.trans there)
      obtain ⟨rfl, rfl⟩ := Prod.mk.inj (Option.some.inj (first.symm.trans taken))
      have gained : Gained _ v (w.setTable next key) :=
        owes.gained.of_arenas (arenas_setTable next)
      refine ⟨Gained.release gained (roomy.bears (by simp)) released, next, rest, ?_, after, ?_⟩
      · rw [table?_of_release? released, table?_setTable_self found]
      · rw [of_release? released, same]
        simp

/-- Once the handles that were owed are closed, the worlds are the same. -/
theorem Owes.closeAll (owes : Owes key owed v w) (roomy : v.Roomy owed.length)
    (closes : ClosesAll key (owed.map Prod.fst) w w') : w' = v := by
  induction owed generalizing w with
  | nil =>
    obtain ⟨table, rest, found, sheds, same⟩ := owes.table
    cases closes
    cases sheds
    rw [same, setTable_self found, ← owes.gained.arenas_eq, withArenas_self]
  | cons entry owed ih =>
    cases closes with
    | cons first after =>
      exact ih (owes.close (by simpa using roomy) first) (roomy.mono (by simp)) after

end World

/-! ## Handle by handle -/

/-- The kernel trails behind the eager translator by what the ledger says that the sender is to
lose. For every handle that the receiver has got there is still room for a reference. -/
structure Route.Trails (route : Route) (ledger : Ledger) (owed : List (Handle × ObjectRef))
    (v w : World) : Prop where
  moved : owed.map Prod.fst = ledger.moved
  real : ∀ handle ∈ ledger.moved, handle.isPseudo = false
  owes : World.Owes route.senderTable owed v w
  room : ∀ table, w.table? route.receiverTable = some table →
    table.WellFormed ∧ owed.length ≤ table.live ∧ v.Roomy (2 ^ 31 - table.live)

namespace Route

variable {route : Route} {ledger entered : Ledger} {owed : List (Handle × ObjectRef)}
variable {v w w' : World} {handle : Handle} {object : ObjectRef} {moving : Bool} {word : UInt32}

/-- A handle that was moved names nothing any more where it was taken out at once, and every
other one names what it named. -/
theorem Trails.named_eq (trails : route.Trails ledger owed v w) (handle : Handle) :
    route.named w ledger handle = route.find? v handle := by
  obtain ⟨table, rest, found, sheds, same⟩ := trails.owes.table
  obtain ⟨f, processes⟩ := trails.owes.get?_processes route.sender.owner
  have ahead : v.table? route.senderTable = some rest := by
    rw [same, World.table?_withArenas, World.table?_setTable_self found]
  unfold named find?
  simp only [List.contains_iff_mem]
  cases pseudo : handle.pseudo? with
  | some kind =>
    have kept : handle ∉ ledger.moved := by
      intro mem
      have := trails.real handle mem
      simp [Handle.isPseudo, pseudo] at this
    rw [if_neg kept]
    cases kind with
    | currentThread => rfl
    | currentProcess =>
      simp only [processes, Option.map_map]
      rfl
  | none =>
    simp only [ahead, found, Option.bind_some, sheds.resolve, trails.moved]
    by_cases mem : handle ∈ ledger.moved <;> simp [mem]

/-- What is found for a handle that is no pseudo-handle can be taken out of the sender's table. -/
theorem exists_take (found : route.find? v handle = some object) (real : handle.isPseudo = false) :
    ∃ rest next, v.table? route.senderTable = some rest ∧
      rest.take handle = some (object, next) := by
  have pseudo : handle.pseudo? = none := by simpa [Handle.isPseudo] using real
  unfold find? at found
  simp only [pseudo] at found
  split at found
  · obtain ⟨rest, there, resolved⟩ := Option.bind_eq_some_iff.1 found
    refine ⟨rest, ?_⟩
    cases taken : rest.take handle with
    | none => simp [HandleTable.take_eq_none_iff.1 taken] at resolved
    | some pair =>
      have named := (HandleTable.drops_of_take (show rest.take handle = some (pair.1, pair.2) from taken)).named
      obtain rfl := Option.some.inj (named.symm.trans resolved)
      exact ⟨pair.2, there, rfl⟩
  · cases found

/-- With the reference for it taken, a handle is issued in both worlds. -/
theorem Trails.issue {table next : HandleTable} {issued : Handle}
    (apart : route.sender.owner ≠ route.receiver.owner)
    (moved : owed.map Prod.fst = ledger.moved)
    (real : ∀ handle ∈ ledger.moved, handle.isPseudo = false)
    (owes : World.Owes route.senderTable owed v w)
    (found : w.table? route.receiverTable = some table) (wf : table.WellFormed)
    (allocated : table.allocate object = some (issued, next))
    (owing : owed.length ≤ table.live + 1) (roomy : v.Roomy (2 ^ 31 - (table.live + 1))) :
    Eager.issue route object v = some (issued.raw, v.setTable next route.receiverTable) ∧
      route.Trails ledger owed (v.setTable next route.receiverTable)
        (w.setTable next route.receiverTable) := by
  have same := (owes.table?_of_ne (senderTable_ne apart)).trans found
  refine ⟨by simp [Eager.issue, same, allocated], moved, real,
    owes.setTable (senderTable_ne apart) next, fun last h => ?_⟩
  rw [World.table?_setTable_self found, Option.some.injEq] at h
  subst h
  obtain ⟨index, -, -, fills⟩ := wf.fills_of_allocate allocated
  rw [fills.live]
  exact ⟨wf.of_allocate allocated, owing, roomy.of_arenas (World.arenas_setTable next)⟩

/-- The eager translator hands a handle over as the kernel does. -/
theorem Trails.hand (apart : route.sender.owner ≠ route.receiver.owner)
    (trails : route.Trails ledger owed v w)
    (hands : route.HandsOver moving ledger handle w (.ok (word, entered)) w') :
    ∃ owed' v', Eager.hand route moving v handle = some (word, v') ∧
      route.Trails entered owed' v' w' := by
  unfold Eager.hand
  cases hands with
  | unresolved named =>
    rw [trails.named_eq] at named
    exact ⟨owed, v, by rw [named], trails⟩
  | @issued object held table next issued named retained found allocated =>
    rw [trails.named_eq] at named
    rw [named]
    obtain ⟨wf, owing, roomy⟩ := trails.room table found
    have there := (World.table?_of_retain? retained).trans found
    have bound := wf.live_le
    dsimp only
    split
    · next moves =>
      have enters := ledger.moved_enter_of_moves issued moves
      simp only [Bool.and_eq_true, Bool.not_eq_true'] at moves
      obtain ⟨rest, shrunk, ahead, taken⟩ := exists_take named moves.2
      have moved : (owed ++ [(handle, object)]).map Prod.fst
          = (ledger.enter issued handle moving).moved := by simp [enters, trails.moved]
      have real : ∀ other ∈ (ledger.enter issued handle moving).moved,
          other.isPseudo = false := by
        intro other mem
        rw [enters, List.mem_append, List.mem_singleton] at mem
        rcases mem with old | rfl
        · exact trails.real other old
        · exact moves.2
      obtain ⟨issues, trails⟩ := Trails.issue apart moved real
        (trails.owes.take ahead taken retained) there wf allocated (by simpa using owing)
        ((roomy.mono (by omega)).of_arenas (World.arenas_setTable shrunk))
      exact ⟨_, _, by simp [ahead, taken, issues], trails⟩
    · next stays =>
      have enters := ledger.moved_enter_of_stays issued stays
      obtain ⟨v', retained', owes⟩ := trails.owes.retain retained
      have gained := World.gained_of_retain? retained'
      have room : ({object} : Multiset ObjectRef).card + (2 ^ 31 - (table.live + 1))
          ≤ 2 ^ 31 - table.live := by
        simp only [HandleTable.maxCount, Multiset.card_singleton] at *
        omega
      obtain ⟨issues, trails⟩ := Trails.issue apart (enters ▸ trails.moved)
        (enters ▸ trails.real) owes there wf allocated (by omega) (gained.roomy (roomy.mono room))
      exact ⟨_, _, by simp [retained', issues], trails⟩

theorem Trails.handAll (apart : route.sender.owner ≠ route.receiver.owner) {words new : List UInt32}
    (trails : route.Trails ledger owed v w)
    (hands : route.HandsOverAll moving ledger words w (.ok (new, entered)) w') :
    ∃ owed' v', Eager.handAll route moving v words = some (new, v') ∧
      route.Trails entered owed' v' w' := by
  generalize same : Except.ok (new, entered) = outcome at hands
  induction hands generalizing new owed v with
  | nil =>
    cases same
    exact ⟨owed, v, rfl, trails⟩
  | cons first _ ih =>
    cases same
    obtain ⟨_, _, handed, trails⟩ := trails.hand apart first
    obtain ⟨owed', v', rest, trails⟩ := ih trails rfl
    exact ⟨owed', v', by simp [Eager.handAll, handed, rest], trails⟩
  | full => cases same
  | later => cases same

/-! ## Word by word -/

/-- The eager translator does with a payload what the kernel does. -/
theorem Trails.carry (apart : route.sender.owner ≠ route.receiver.owner) {descriptor : Descriptor}
    {payload new : List UInt32} (trails : route.Trails ledger owed v w)
    (carries : route.CarriesPayload descriptor ledger payload w new entered w') :
    ∃ owed' v', Eager.carry route descriptor v payload = some (new, v') ∧
      route.Trails entered owed' v' w' := by
  cases carries with
  | handles announced handed =>
    rw [Eager.carry_of_moves? announced]
    exact trails.handAll apart handed
  | callingPid announced found =>
    subst announced
    obtain ⟨f, processes⟩ := trails.owes.get?_processes route.sender.owner
    exact ⟨owed, v, by simp [Eager.carry, processes, found], trails⟩
  | buffer other plain => exact ⟨owed, v, Eager.carry_of_buffer other plain, trails⟩

/-- The eager translator walks a region as the kernel does. -/
theorem Trails.walk (apart : route.sender.owner ≠ route.receiver.owner) {words new : List UInt32}
    (trails : route.Trails ledger owed v w) (walks : route.Walks ledger words w new entered w') :
    ∃ owed' v', Eager.walk route v words = some (new, v') ∧
      route.Trails entered owed' v' w' := by
  induction walks generalizing owed v with
  | nil => exact ⟨owed, v, by rw [Eager.walk], trails⟩
  | cons decoded length first _ ih =>
    obtain ⟨_, _, carried, trails⟩ := trails.carry apart first
    obtain ⟨owed', v', walked, trails⟩ := ih trails
    exact ⟨owed', v', Eager.walk_cons decoded length carried walked, trails⟩

end Route

/-! ## A whole delivery -/

/-- With the receiver's memory written and what the sender is to lose closed, the kernel has
caught up. -/
theorem Route.Trails.commit {route : Route} {ledger : Ledger} {owed : List (Handle × ObjectRef)}
    {v w w' : World} {process : Process} (apart : route.sender.owner ≠ route.receiver.owner)
    (trails : route.Trails ledger owed v w)
    (found : w.processes.get? route.receiver.owner = some process) (changed : Process)
    (closes : World.ClosesAll route.senderTable ledger.moved
      (w.setProcess route.receiver.owner changed) w') :
    w' = v.setProcess route.receiver.owner changed := by
  obtain ⟨wf, owing, roomy⟩ := trails.room process.handles (by
    simp [World.table?, Route.receiverTable, found])
  have bound := wf.live_le
  rw [← trails.moved] at closes
  refine (trails.owes.setProcess (Route.senderTable_ne apart) changed).closeAll ?_ closes
  refine (roomy.mono ?_).of_arenas (World.arenas_setProcess _ changed)
  simp only [HandleTable.maxCount] at bound
  omega

/-- **Deferred and eager translation agree.** A delivery from one process to another that comes
to its end leaves the world that the eager translator leaves. -/
theorem deliver_eq_eager {s : Situation} {machine : Machine} {source target : Key Thread}
    {sender receiver : Thread} {sourceAddress targetAddress : UInt32} (reachable : s.Reachable)
    (few : ∀ ref, s.references ref < 2 ^ 31)
    (sends : s.machine.world.threads.get? source = some sender)
    (receives : s.machine.world.threads.get? target = some receiver)
    (apart : sender.owner ≠ receiver.owner)
    (delivered : (deliver source target sourceAddress targetAddress).run s.machine
      = .ok (.ok ()) machine) :
    Eager.deliver source target sourceAddress targetAddress s.machine.world
      = some machine.world := by
  have sound := reachable.sound
  have roomy := sound.roomy few
  have tables := sound.tables
  have delivers := delivers_of_ok delivered
  generalize s.machine.world = start, machine.world = final at *
  cases delivers with
  | settled picks settles =>
    cases picks with
    | full =>
      cases settles with
      | delivered finished => cases finished
    | @carried route process header command buffer _ ledger held fromSource toTarget owner fetched
        tiles carries =>
      obtain rfl := Option.some.inj (sends.symm.trans fromSource)
      obtain rfl := Option.some.inj (receives.symm.trans toTarget)
      obtain ⟨-, -, bound⟩ := Process.of_fetch? fetched
      have sending : start.table? route.senderTable = some process.handles := by
        simp [World.table?, Route.senderTable, owner]
      have trails : route.Trails .empty [] start start :=
        ⟨rfl, by simp [Ledger.empty], World.owes_refl sending, fun table found =>
          ⟨tables _ _ found, by simp, roomy.mono (by omega)⟩⟩
      obtain ⟨walks, before⟩ := carries.walks bound tiles fun _ _ _ => rfl
      obtain ⟨owed, v, walked, trails⟩ := trails.walk apart walks
      cases settles with
      | delivered finished wrote committed =>
        obtain rfl := Option.some.inj finished
        cases wrote with
        | written found checked =>
          have receiving := trails.owes.get?_processes_of_ne (Route.senderTable_ne apart)
          rw [Eager.deliver_eq sends receives owner fetched walked (receiving.trans found),
            trails.commit apart found _ committed, ← before 0 _ le_rfl,
            CommandBuffer.range_append (Nat.zero_le _) header.plainSize_le_totalSize bound]

/-- The command goes to the receiving thread's command buffer. The handle that is copied and then moved
arrives as two handles for the event and is closed at the sender, and the pseudo-handle as one for the
sender's process. -/
theorem deliver_eq_eager_of_sending : ∃ (machine : Machine) (memory : AddressSpace)
    (outbox inbox : HandleTable),
    (deliver ⟨0⟩ ⟨1⟩ 0 0x1FF82080).run Situation.sending.machine = .ok (.ok ()) machine ∧
    Eager.deliver ⟨0⟩ ⟨1⟩ 0 0x1FF82080 Situation.sending.machine.world = some machine.world ∧
    machine.world.memory? ⟨1⟩ = some memory ∧
    memory.wordsAt 0x1FF82080 6 = [0x10005, 0x4000000, 1, 0x8002, 0x10, 0x10003] ∧
    machine.world.table? (.process ⟨0⟩) = some outbox ∧ outbox.resolve ⟨1⟩ = none ∧
    machine.world.table? (.process ⟨1⟩) = some inbox ∧ inbox.resolve ⟨1⟩ = some ⟨⟨0⟩, ⟨5⟩⟩ ∧
    inbox.resolve ⟨0x8002⟩ = some ⟨⟨0⟩, ⟨1⟩⟩ ∧ inbox.resolve ⟨0x10003⟩ = some ⟨⟨0⟩, ⟨5⟩⟩ := by
  have few : ∀ ref, Situation.sending.references ref < 2 ^ 31 :=
    Situation.references_lt (by decide +kernel)
  have arrives : (Effect.runFrom (deliver ⟨0⟩ ⟨1⟩ 0 0x1FF82080).run Situation.sending.machine).map
      (fun (outcome, machine) =>
        (outcome, (machine.world.memory? ⟨1⟩).map (fun memory => memory.wordsAt 0x1FF82080 6),
          (machine.world.table? (.process ⟨0⟩)).map (fun outbox => outbox.resolve ⟨1⟩),
          (machine.world.table? (.process ⟨1⟩)).map fun inbox => decide
            (inbox.resolve ⟨1⟩ = some ⟨⟨0⟩, ⟨5⟩⟩ ∧ inbox.resolve ⟨0x8002⟩ = some ⟨⟨0⟩, ⟨1⟩⟩ ∧
              inbox.resolve ⟨0x10003⟩ = some ⟨⟨0⟩, ⟨5⟩⟩)))
      = .ok (.ok (), some [0x10005, 0x4000000, 1, 0x8002, 0x10, 0x10003], some none, some true) := by
    decide +kernel
  obtain ⟨_, machine, delivered, read⟩ := exists_of_runFrom arrives
  simp only [Prod.mk.injEq, Option.map_eq_some_iff, decide_eq_true_eq] at read
  obtain ⟨rfl, ⟨memory, holds, words⟩, ⟨outbox, sender, gone⟩, inbox, receiver, named⟩ := read
  have agrees := deliver_eq_eager (Situation.reachable_performAll _) few rfl rfl (by decide +kernel)
    delivered
  exact ⟨machine, memory, outbox, inbox, delivered, agrees, holds, words, sender, gone, receiver,
    named⟩

end MicrokernelIpc
