import MicrokernelIpc.Proofs.Conservation.Runs

/-!
# Deliveries come to an end

A delivery between threads whose processes are there meets no fault: what it takes references to
is there, since it is named somewhere, and what it closes lies in arenas that are there.
-/

namespace MicrokernelIpc

namespace World

/-- The arenas and processes that are there in one world are there in the other. -/
structure Lasts (w w' : World) : Prop where
  arenas : ∀ a, (w'.arenas.get? a).isSome = (w.arenas.get? a).isSome
  processes : ∀ place, (w'.processes.get? place).isSome = (w.processes.get? place).isSome

variable {w next w' : World} {object : ObjectRef} {table : HandleTable} {key : TableKey}

theorem lasts_of_retain? (h : w.retain? object = some w') : w.Lasts w' := by
  obtain ⟨_, _, _, _, rfl⟩ := exists_of_retain? h
  refine ⟨fun a => ?_, fun _ => rfl⟩
  simp only [setArena, Roster.get?_modify]
  split <;> simp

theorem lasts_of_release? (h : w.release? object = some w') : w.Lasts w' := by
  refine ⟨isSome_arena_of_release? h, ?_⟩
  obtain ⟨_, _, rfl⟩ := exists_of_release? h
  exact fun _ => rfl

theorem lasts_setTable : w.Lasts (w.setTable table key) :=
  ⟨fun a => by rw [arenas_setTable], fun place => by simp [get?_processes_setTable]⟩

theorem Writes.lasts {place : Key Process} {address : UInt32} {words : List UInt32}
    {outcome : Except MemoryError Unit} (writes : w.Writes place address words outcome w') :
    w.Lasts w' := by
  cases writes with
  | refused => exact ⟨fun _ => rfl, fun _ => rfl⟩
  | written found checked =>
    refine ⟨fun _ => rfl, fun other => ?_⟩
    simp only [setProcess, Roster.get?_modify]
    split <;> simp

end World

/-- Both processes of a route are there, and every handle table is in order and names objects of
arenas that are there. -/
structure Route.Stands (route : Route) (w : World) : Prop where
  sender : w.processes.get? route.sender.owner ≠ none
  receiver : w.processes.get? route.receiver.owner ≠ none
  tables : ∀ key table, w.table? key = some table → table.WellFormed ∧
    ∀ handle object, table.resolve handle = some object → (w.arenas.get? object.arena).isSome

namespace Route.Stands

variable {route : Route} {w w' : World} {object : ObjectRef} {table next : HandleTable}
variable {key : TableKey} {handle : Handle}

theorem of_lasts (stands : route.Stands w) (lasts : w.Lasts w')
    (tables : ∀ key table, w'.table? key = some table → table.WellFormed ∧
      ∀ handle object, table.resolve handle = some object → (w.arenas.get? object.arena).isSome) :
    route.Stands w' where
  sender := by
    rw [← Option.isSome_iff_ne_none, lasts.processes, Option.isSome_iff_ne_none]
    exact stands.sender
  receiver := by
    rw [← Option.isSome_iff_ne_none, lasts.processes, Option.isSome_iff_ne_none]
    exact stands.receiver
  tables := by
    intro key table found
    obtain ⟨wf, arenas⟩ := tables key table found
    exact ⟨wf, fun handle object resolved => (lasts.arenas _).trans (arenas handle object resolved)⟩

theorem retain (stands : route.Stands w) (h : w.retain? object = some w') : route.Stands w' :=
  stands.of_lasts (World.lasts_of_retain? h) fun key table found =>
    stands.tables key table ((World.table?_of_retain? h).symm.trans found)

theorem release (stands : route.Stands w) (h : w.release? object = some w') : route.Stands w' :=
  stands.of_lasts (World.lasts_of_release? h) fun key table found =>
    stands.tables key table ((World.table?_of_release? h).symm.trans found)

theorem setTable (stands : route.Stands w) (wf : next.WellFormed)
    (arenas : ∀ handle object, next.resolve handle = some object →
      (w.arenas.get? object.arena).isSome) : route.Stands (w.setTable next key) := by
  refine stands.of_lasts World.lasts_setTable fun other table found => ?_
  rw [World.table?_setTable] at found
  split at found
  · obtain ⟨_, -, rfl⟩ := Option.map_eq_some_iff.1 found
    exact ⟨wf, arenas⟩
  · exact stands.tables other table found

theorem allocate (stands : route.Stands w) (found : w.table? key = some table)
    (h : table.allocate object = some (handle, next))
    (there : (w.arenas.get? object.arena).isSome) : route.Stands (w.setTable next key) := by
  obtain ⟨wf, arenas⟩ := stands.tables key table found
  refine stands.setTable (wf.of_allocate h) fun other named resolved => ?_
  rw [(wf.adds_of_allocate h).resolve] at resolved
  split at resolved
  · obtain rfl := Option.some.inj resolved
    exact there
  · exact arenas other named resolved

theorem take (stands : route.Stands w) (found : w.table? key = some table)
    (h : table.take handle = some (object, next)) : route.Stands (w.setTable next key) := by
  obtain ⟨wf, arenas⟩ := stands.tables key table found
  refine stands.setTable (wf.of_take h) fun other named resolved => ?_
  rw [(HandleTable.drops_of_take h).resolve] at resolved
  split at resolved
  · cases resolved
  · exact arenas other named resolved

theorem closes {outcome : Except HandleTableError Unit} (stands : route.Stands w)
    (closes : w.Closes key handle outcome w') : route.Stands w' := by
  cases closes with
  | unknown => exact stands
  | closed found taken released => exact (stands.take found taken).release released

theorem writes {place : Key Process} {address : UInt32} {words : List UInt32}
    {outcome : Except MemoryError Unit} (stands : route.Stands w)
    (writes : w.Writes place address words outcome w') : route.Stands w' :=
  stands.of_lasts writes.lasts fun key table there =>
    stands.tables key table ((writes.table?_eq key).symm.trans there)

/-! ## Through a delivery -/

theorem handsOver {moving : Bool} {ledger : Ledger}
    {outcome : Except Ledger (UInt32 × Ledger)} (stands : route.Stands w)
    (hands : route.HandsOver moving ledger handle w outcome w') : route.Stands w' := by
  cases hands with
  | unresolved => exact stands
  | issued named retained found allocated =>
    have there := World.arena_of_retain? retained
    rw [← Option.isSome_iff_ne_none] at there
    exact (stands.retain retained).allocate ((World.table?_of_retain? retained).trans found)
      allocated there
  | full named retained found refused released => exact (stands.retain retained).release released

theorem of_sound {past : World} {inserted : Nat} {held : Multiset ObjectRef}
    (sound : World.Sound True past inserted held w)
    (sender : w.processes.get? route.sender.owner ≠ none)
    (receiver : w.processes.get? route.receiver.owner ≠ none) : route.Stands w := by
  refine ⟨sender, receiver, fun key table found => ⟨sound.tables key table found, ?_⟩⟩
  intro handle object resolved
  have counted := World.count_pos_of_resolve found resolved
  have there : w.refs? object ≠ none :=
    sound.refs?_ne_none trivial (by rw [World.references]; omega)
  rw [Option.isSome_iff_ne_none]
  intro none
  exact there (by simp [World.refs?, none])

end Route.Stands

section

variable {past w w' : World} {inserted : Nat} {held : Multiset ObjectRef}
variable {source target : Key Thread} {sourceAddress targetAddress : UInt32} {route : Route}

/-- What holds before each handle that is handed over in a delivery that meets no fault. -/
def Standing (past : World) (inserted : Nat) (held : Multiset ObjectRef) (source : Key Thread)
    (route : Route) (ledger : Ledger) (w : World) : Prop :=
  Steady True past inserted held source route ledger w ∧ route.Stands w

theorem Standing.kept (route : Route) : route.Kept (Standing past inserted held source route) :=
  fun moving ledger w handle word entered next ⟨steady, stands⟩ hands =>
    ⟨Steady.kept route moving ledger w handle word entered next steady hands,
      stands.handsOver hands⟩

theorem Standing.safe {ledger : Ledger}
    (standing : Standing past inserted held source route ledger w) :
    route.Safe w fun _ => False where
  sender := standing.2.sender
  receiver := standing.2.receiver
  objects handle object found none := by
    obtain ⟨⟨sound, sender⟩, -⟩ := standing
    have counted := Route.count_pos_of_find? sender found
    exact (sound.refs?_ne_none trivial (by rw [World.references]; omega) none).elim

theorem PicksUp.stands {carriage : Carriage}
    (picks : PicksUp source target sourceAddress w (.ok carriage) w')
    (start : ∀ route : Route, w.threads.get? source = some route.sender →
      w.threads.get? target = some route.receiver →
        Standing past inserted held source route .empty w) :
    carriage.route.Stands w' := by
  cases picks with
  | carried sender receiver owner fetched tiles carries =>
    exact (carries.kept (Standing.kept _) (start _ sender receiver)).2
  | full sender receiver owner fetched tiles carries =>
    obtain ⟨moving, handle, mid, standing, hands⟩ :=
      carries.stopped (Standing.kept _) (start _ sender receiver)
    exact standing.2.handsOver hands

theorem Carriage.leads_settle_of_stands {carriage : Carriage} (stands : carriage.route.Stands w) :
    Leads w (carriage.settle targetAddress).run (carriage.Settles targetAddress w)
      fun _ => False := by
  refine leads_settle carriage.route.Stands stands.receiver (fun key ours handle w stands => ?_)
    (fun _ _ _ _ _ stands closes => stands.closes closes)
    (fun _ _ _ stands writes => stands.writes writes) stands
  refine leads_closeHandle (fun none => ?_) fun table object found resolved none => ?_
  · rcases ours with rfl | rfl
    · exact stands.sender (by simpa [World.table?, Route.senderTable] using none)
    · exact stands.receiver (by simpa [World.table?, Route.receiverTable] using none)
  · have there := (stands.tables key table found).2 handle object resolved
    simp [none] at there

/-- A delivery between threads whose processes are there comes to an end. -/
theorem leads_deliver (sound : World.Sound True past inserted held w)
    (sends : w.threads.get? source = some route.sender)
    (receives : w.threads.get? target = some route.receiver)
    (sender : w.processes.get? route.sender.owner ≠ none)
    (receiver : w.processes.get? route.receiver.owner ≠ none) :
    Leads w (deliver source target sourceAddress targetAddress).run
      (Delivers source target sourceAddress targetAddress w) fun _ => False := by
  have start : ∀ other : Route, w.threads.get? source = some other.sender →
      w.threads.get? target = some other.receiver →
        Standing past inserted held source other .empty w := by
    intro other sends' receives'
    have from' := Option.some.inj (sends.symm.trans sends')
    have to' := Option.some.inj (receives.symm.trans receives')
    exact ⟨⟨sound, sends'⟩, .of_sound sound (from' ▸ sender) (to' ▸ receiver)⟩
  have picks : Leads w (pickUp source target sourceAddress).run _ fun _ => False :=
    leads_pickUp (Standing past inserted held source) (fun none => by simp [sends] at none)
      (fun none => by simp [receives] at none) Standing.kept (fun _ _ _ => Standing.safe) start
  refine picks.bindRun (fun carriage next picks => ?_) fun error next picks => .refused picks
  exact (Carriage.leads_settle_of_stands (picks.stands start)).mono
    (fun _ _ settles => .settled picks settles) fun _ h => h

theorem leads_deliverBetween (sound : World.Sound True past inserted held w)
    (sends : w.threads.get? source = some route.sender)
    (receives : w.threads.get? target = some route.receiver)
    (sender : w.processes.get? route.sender.owner ≠ none)
    (receiver : w.processes.get? route.receiver.owner ≠ none) :
    Leads w (deliverBetween source target).run
      (Delivers source target route.sender.commandBufferAddress
        route.receiver.commandBufferAddress w) fun _ => False := by
  refine leads_deliverBetween_of (fun none => by simp [sends] at none)
    (fun none => by simp [receives] at none) fun other sends' receives' => ?_
  obtain rfl := Route.eq_of_threads sends receives sends' receives'
  exact leads_deliver sound sends receives sender receiver

/-- **No guest stops the kernel.** Whatever stands in memory, and whatever addresses are asked for, a
delivery between two threads ends with a success or with an error: no word that is read, no index
into the command, no address of a word, no page and no reference on the way is a fault. Every handle
table is in order after it. -/
theorem deliver_meets_no_fault (route : Route) {s : Situation}
    (run : Run Situation.WithinLimits .new s)
    (sends : s.machine.world.threads.get? source = some route.sender)
    (receives : s.machine.world.threads.get? target = some route.receiver)
    (sender : s.machine.world.processes.get? route.sender.owner ≠ none)
    (receiver : s.machine.world.processes.get? route.receiver.owner ≠ none) :
    ∃ outcome machine,
      (deliver source target sourceAddress targetAddress).run s.machine = .ok outcome machine ∧
      ∀ key table, machine.world.table? key = some table → table.WellFormed := by
  obtain ⟨sound, -⟩ := run.sound_of_new
  have ends : Leads s.machine.world (deliver source target sourceAddress targetAddress).run _ _ :=
    leads_deliver sound sends receives sender receiver
  obtain ⟨outcome, machine, returned, -⟩ := ends.returns
  refine ⟨outcome, machine, returned, ?_⟩
  -- that the tables are in order does not depend on how many references there are on the way
  have loose := (Run.sound False (fun h => h.elim) run (Situation.sound_new False) fun h => h.elim).1
  exact ((sound_deliver loose fun h => h.elim).of_ok returned).tables

/-- Two processes with a thread each. The first has a handle to an event, and a command of 64 words that
moves the handle over and over, with a pseudo-handle and a word that is no handle after it each
time. -/
def Situation.besieging : Situation :=
  performAll [.createProcess "besieger", .createProcess "besieged", .createThread ⟨0⟩ "besieger",
    .createThread ⟨1⟩ "besieged", .createEvent "event" .oneShot,
    .create (.process ⟨0⟩) ⟨⟨0⟩, ⟨5⟩⟩,
    .runGuest ⟨0⟩ ((AddressSpace.empty.map 0 4096).setWords 0
      (0xFFFF003F :: 0xF4000010 :: 0xFFFFFFFF :: 1 ::
        (List.replicate 20 [1, 0xFFFF8001, 0xFFFFFFFF]).flatten))]

theorem Situation.run_besieging : Run WithinLimits .new besieging :=
  run_performAll (by decide) (by decide +kernel)

/-- The delivery ends from every address of that memory and at every address of either process. The
command arrives at the other thread and over itself. Two bytes later a header announces 127 words, and
at other words no descriptor follows the header or the payload passes the end; at the ends of the page
and of the address space there are words or room for words lacking. -/
theorem deliver_meets_no_fault_besieged :
    (∀ (target : Key Thread) (sourceAddress targetAddress : UInt32), target ∈ [⟨0⟩, ⟨1⟩] →
      ∃ outcome machine, (deliver ⟨0⟩ target sourceAddress targetAddress).run
        Situation.besieging.machine = .ok outcome machine ∧
      ∀ key table, machine.world.table? key = some table → table.WellFormed) ∧
    [(⟨1⟩, 0, 0x1FF82080), (⟨0⟩, 0, 2), (⟨1⟩, 2, 0), (⟨1⟩, 16, 0), (⟨1⟩, 20, 0),
        (⟨1⟩, 0xFFE, 0), (⟨0⟩, 0, 0xF80), (⟨1⟩, 0xFFFFFFFE, 0xFFFFFFFF)].map
      (fun (target, sourceAddress, targetAddress) =>
        (Effect.runFrom (deliver ⟨0⟩ target sourceAddress targetAddress).run
          Situation.besieging.machine).map Prod.fst)
      = [.ok (.ok ()), .ok (.ok ()), .ok (.error .commandTooLarge),
        .ok (.error (.unsupportedDescriptor ⟨0xFFFF8001⟩)), .ok (.error .commandTooLarge),
        .ok (.error (.memory (.unmapped 0x1000))), .ok (.error (.memory (.unmapped 0x1000))),
        .ok (.error (.memory (.unmapped 0x100000000)))] := by
  refine ⟨fun target sourceAddress targetAddress either => ?_, by decide +kernel⟩
  have there : ∀ place ∈ [(⟨0⟩ : Key Process), ⟨1⟩],
      (Situation.besieging.machine.world.processes.get? place).isSome := by decide +kernel
  have parties : ∃ route : Route,
      Situation.besieging.machine.world.threads.get? ⟨0⟩ = some route.sender ∧
        Situation.besieging.machine.world.threads.get? target = some route.receiver ∧
        (Situation.besieging.machine.world.processes.get? route.sender.owner).isSome ∧
        (Situation.besieging.machine.world.processes.get? route.receiver.owner).isSome := by
    simp only [List.mem_cons, List.not_mem_nil, or_false] at either
    rcases either with rfl | rfl
    · exact ⟨⟨_, _⟩, rfl, rfl, there ⟨0⟩ (by decide), there ⟨0⟩ (by decide)⟩
    · exact ⟨⟨_, _⟩, rfl, rfl, there ⟨0⟩ (by decide), there ⟨1⟩ (by decide)⟩
  obtain ⟨route, sends, receives, sender, receiver⟩ := parties
  exact deliver_meets_no_fault route Situation.run_besieging sends receives
    (Option.isSome_iff_ne_none.1 sender) (Option.isSome_iff_ne_none.1 receiver)

end

end MicrokernelIpc
