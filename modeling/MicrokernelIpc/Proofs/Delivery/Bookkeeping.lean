import MicrokernelIpc.Proofs.Delivery.Closing
import MicrokernelIpc.Proofs.Delivery.SharedTable

/-!
# The books of a delivery

While a region is carried over its ledger lists handles of two tables, or twice of one: those that
were issued to the receiver, and those that the sender is to lose. Each of them stands there once
and names an object all the while, whatever words the region repeats and whatever it moves on. So
nothing is missed when the handles are closed in the end.
-/

namespace MicrokernelIpc

/-! ## What the ledger lists -/

/-- What the ledger lists can be closed: it stands there once and names something, the handles that
were issued in the receiver's table and those that are moved in the sender's. -/
structure Route.Balanced (route : Route) (ledger : Ledger) (w : World) : Prop where
  ordered : ∀ table, w.table? route.receiverTable = some table → table.WellFormed
  created_once : ledger.created.Nodup
  created_live : ∀ handle ∈ ledger.created, w.Closable route.receiverTable handle
  moved_once : ledger.moved.Nodup
  moved_real : ∀ handle ∈ ledger.moved, handle.isPseudo = false
  moved_live : ∀ handle ∈ ledger.moved, w.Closable route.senderTable handle

namespace Route

variable {route : Route} {ledger last : Ledger} {w held w' : World} {moving : Bool}
variable {handle issued : Handle} {object : ObjectRef} {table next : HandleTable}

theorem Balanced.of_empty (wf : ∀ key table, w.table? key = some table → table.WellFormed) :
    route.Balanced .empty w where
  ordered := wf _
  created_once := List.nodup_nil
  created_live := by simp [Ledger.empty]
  moved_once := List.nodup_nil
  moved_real := by simp [Ledger.empty]
  moved_live := by simp [Ledger.empty]

theorem Balanced.of_lasts (balanced : route.Balanced ledger w) (lasts : w.Lasts w')
    (same : ∀ key, w'.table? key = w.table? key) : route.Balanced ledger w' where
  ordered table found := balanced.ordered table ((same _).symm.trans found)
  created_once := balanced.created_once
  created_live handle mem := (balanced.created_live handle mem).of_lasts lasts (same _)
  moved_once := balanced.moved_once
  moved_real := balanced.moved_real
  moved_live handle mem := (balanced.moved_live handle mem).of_lasts lasts (same _)

/-- A handle that is to be moved was not moved before and names something at the sender. -/
theorem closable_of_named (named : route.named w ledger handle = some object)
    (real : handle.isPseudo = false) (retained : w.retain? object = some held) :
    handle ∉ ledger.moved ∧ w.Closable route.senderTable handle := by
  unfold Route.named at named
  split at named
  · cases named
  · next unmoved =>
    refine ⟨by simpa using unmoved, ?_⟩
    have pseudo : handle.pseudo? = none := by simpa [Handle.isPseudo] using real
    simp only [find?, pseudo] at named
    split at named
    · obtain ⟨table, found, resolved⟩ := Option.bind_eq_some_iff.1 named
      obtain ⟨_, _, there, -⟩ := World.exists_of_retain? retained
      exact ⟨table, object, found, resolved, by simp [there]⟩
    · cases named

/-- What is moved once a handle has been entered could be closed before that. -/
theorem Balanced.moved_enter (balanced : route.Balanced ledger w)
    (named : route.named w ledger handle = some object) (retained : w.retain? object = some held) :
    (ledger.enter issued handle moving).moved.Nodup ∧
      ∀ other ∈ (ledger.enter issued handle moving).moved,
        other.isPseudo = false ∧ w.Closable route.senderTable other := by
  have old : ∀ other ∈ ledger.moved, other.isPseudo = false ∧ w.Closable route.senderTable other :=
    fun other mem => ⟨balanced.moved_real other mem, balanced.moved_live other mem⟩
  by_cases moves : (moving && !handle.isPseudo) = true
  · have real : handle.isPseudo = false := by simpa using (Bool.and_eq_true_iff.1 moves).2
    obtain ⟨unmoved, live⟩ := closable_of_named named real retained
    rw [ledger.moved_enter_of_moves issued moves]
    refine ⟨List.nodup_append_comm.1 (List.nodup_cons.2 ⟨unmoved, balanced.moved_once⟩), ?_⟩
    intro other mem
    rcases List.mem_append.1 mem with before | new
    · exact old other before
    · exact List.mem_singleton.1 new ▸ ⟨real, live⟩
  · rw [ledger.moved_enter_of_stays issued moves]
    exact ⟨balanced.moved_once, old⟩

/-- What is issued and what is moved for it are entered. -/
theorem Balanced.enter (balanced : route.Balanced ledger w)
    (named : route.named w ledger handle = some object) (retained : w.retain? object = some held)
    (found : w.table? route.receiverTable = some table)
    (allocated : table.allocate object = some (issued, next)) :
    route.Balanced (ledger.enter issued handle moving)
      (held.setTable next route.receiverTable) := by
  have wf := balanced.ordered table found
  have adds := wf.adds_of_allocate allocated
  have there : held.table? route.receiverTable = some table :=
    (World.table?_of_retain? retained).trans found
  have last := World.table?_setTable_self there next
  have fresh {other : Handle} (live : w.Closable route.receiverTable other) : other ≠ issued := by
    rintro rfl
    obtain ⟨old, _, found', resolved, -⟩ := live
    obtain rfl := Option.some.inj (found.symm.trans found')
    cases adds.fresh.symm.trans resolved
  -- in whichever table: if it is the receiver's too, what was live there was not issued now
  have stays {key : TableKey} {other : Handle} (live : w.Closable key other) :
      (held.setTable next route.receiverTable).Closable key other := by
    refine (live.of_lasts (World.lasts_of_retain? retained)
      (World.table?_of_retain? retained)).setTable there fun same => ?_
    subst same
    rw [adds.resolve, if_neg (fresh live)]
  obtain ⟨once, moved⟩ := balanced.moved_enter named retained
  refine ⟨fun table' found' => ?_, ?_, fun other mem => ?_, once,
    fun other mem => (moved other mem).1, fun other mem => stays (moved other mem).2⟩
  · obtain rfl := Option.some.inj (last.symm.trans found')
    exact wf.of_allocate allocated
  · refine List.nodup_append_comm.1 (List.nodup_cons.2 ⟨fun mem => ?_, balanced.created_once⟩)
    exact fresh (balanced.created_live issued mem) rfl
  · rcases List.mem_append.1 mem with old | new
    · exact stays (balanced.created_live other old)
    · obtain rfl := List.mem_singleton.1 new
      have arena := World.arena_of_retain? retained
      exact ⟨next, object, last, by simp [adds.resolve],
        by rwa [World.arenas_setTable, Option.isSome_iff_ne_none]⟩

theorem kept_balanced (route : Route) : route.Kept route.Balanced := by
  rintro moving ledger w handle word entered next balanced hands
  cases hands with
  | unresolved => exact balanced
  | issued named retained found allocated => exact balanced.enter named retained found allocated

/-- A handle that the receiver's table has no room for leaves the books as they are. -/
theorem Stopped.balanced (stopped : route.Stopped route.Balanced last w') :
    route.Balanced last w' := by
  obtain ⟨moving, handle, w, balanced, hands⟩ := stopped
  cases hands with
  | full named retained found refused released =>
    have retains := balanced.of_lasts (World.lasts_of_retain? retained) fun _ =>
      World.table?_of_retain? retained
    exact retains.of_lasts (World.lasts_of_release? released) fun _ =>
      World.table?_of_release? released

end Route

/-! ## While a region is carried over -/

/-- The items of a command's region before the others have been carried over. -/
structure CarriedUpTo (source target : Key Thread) (address : UInt32) (w : World) (route : Route)
    (others : List RegionItem) (buffer : CommandBuffer) (ledger : Ledger) (held : World) :
    Prop where
  sender : w.threads.get? source = some route.sender
  receiver : w.threads.get? target = some route.receiver
  carried : ∃ header command items fetched cut,
    Reaches w (fetchCommand route.sender address).run (.ok (header, command)) fetched ∧
    Reaches fetched (cutRegion header command).run (.ok (items ++ others)) cut ∧
    Reaches cut (route.carryAll command .empty items).run (.ok (buffer, ledger)) held

/-- The moments of a delivery while its region is carried over: between two items, after some words
of the payload of an item, and at a word that the receiver's table has no room for. -/
inductive Midway (source target : Key Thread) (address : UInt32) (w : World) (route : Route) :
    Ledger → World → Prop
  | between {others : List RegionItem} {buffer : CommandBuffer} {ledger : Ledger} {held : World}
      (carried : CarriedUpTo source target address w route others buffer ledger held) :
      Midway source target address w route ledger held
  | within {item : RegionItem} {others : List RegionItem} {buffer : CommandBuffer}
      {ledger entered : Ledger} {held next : World} {moving : Bool} {done ahead words : List UInt32}
      (carried : CarriedUpTo source target address w route (item :: others) buffer ledger held)
      (announced : item.descriptor.moves? = some moving)
      (payload : buffer.slice (item.index + 1) item.stop = .ok (done ++ ahead))
      (handed :
        Reaches held (route.handOverAll moving ledger done).run (.ok (words, entered)) next) :
      Midway source target address w route entered next
  | full {item : RegionItem} {others : List RegionItem} {buffer : CommandBuffer}
      {ledger last : Ledger} {held next : World} {moving : Bool} {done ahead : List UInt32}
      (carried : CarriedUpTo source target address w route (item :: others) buffer ledger held)
      (announced : item.descriptor.moves? = some moving)
      (payload : buffer.slice (item.index + 1) item.stop = .ok (done ++ ahead))
      (handed : Reaches held (route.handOverAll moving ledger done).run (.error last) next) :
      Midway source target address w route last next

section

variable {source target : Key Thread} {address : UInt32} {w held : World} {route : Route}
variable {ledger : Ledger} {buffer : CommandBuffer} {others : List RegionItem}
variable (wf : ∀ key table, w.table? key = some table → table.WellFormed)

include wf in
theorem CarriedUpTo.balanced
    (carried : CarriedUpTo source target address w route others buffer ledger held) :
    route.Balanced ledger held := by
  obtain ⟨header, command, items, fetched, cut, fetches, cuts, carries⟩ := carried.carried
  have fetching : Leads w (fetchCommand route.sender address).run _ fun _ => True :=
    leads_fetchCommand fun _ => trivial
  obtain ⟨rfl, process, owner, same⟩ := fetching.of_reaches fetches
  obtain ⟨-, -, bound⟩ := Process.of_fetch? same.symm
  have cutting : Leads fetched (cutRegion header command).run _ fun _ => True :=
    leads_cutRegion bound
  obtain ⟨rfl, ⟨tiles⟩⟩ := cutting.of_reaches cuts
  have start : route.Balanced .empty cut := .of_empty wf
  have carrying : Leads cut (route.carryAll command .empty items).run _ fun _ => True :=
    Route.leads_carryAll (fun item mem => (tiles.stop_le item (by simp [mem])).trans bound)
      route.kept_balanced (fun _ _ _ => .of_all fun _ => trivial) start
  exact (carrying.of_reaches carries).kept route.kept_balanced start

include wf in
/-- At no moment of a delivery is anything amiss with the ledger. -/
theorem Midway.balanced (midway : Midway source target address w route ledger held) :
    route.Balanced ledger held := by
  have handing {moving : Bool} {start : Ledger} {words : List UInt32} {w : World}
      (balanced : route.Balanced start w) :
      Leads w (route.handOverAll moving start words).run _ fun _ => True :=
    Route.leads_handOverAll route.kept_balanced (fun _ _ _ => .of_all fun _ => trivial) balanced
  cases midway with
  | between carried => exact carried.balanced wf
  | within carried announced payload handed =>
    have balanced := carried.balanced wf
    exact ((handing balanced).of_reaches handed).kept route.kept_balanced balanced
  | full carried announced payload handed =>
    have balanced := carried.balanced wf
    exact (((handing balanced).of_reaches handed).stopped route.kept_balanced balanced).balanced

include wf in
theorem leads_pickUp_balanced : Leads w (pickUp source target address).run
    (fun outcome next => ∀ carriage, outcome = .ok carriage →
      carriage.route.Balanced carriage.ledger next) fun _ => True := by
  refine (leads_pickUp Route.Balanced (fun _ => trivial) (fun _ => trivial) Route.kept_balanced
    (fun _ _ _ _ => .of_all fun _ => trivial) fun _ _ _ => .of_empty wf).mono ?_ fun _ h => h
  rintro outcome next picks carriage rfl
  cases picks with
  | carried sender receiver owner fetched tiles carries =>
    exact carries.kept (Route.kept_balanced _) (.of_empty wf)
  | full sender receiver owner fetched tiles carries =>
    exact (carries.stopped (Route.kept_balanced _) (.of_empty wf)).balanced

end

/-! ## When a carriage is settled -/

/-- Whichever way a carriage is settled, every handle that is then to be closed is closed, and a
commit comes to closing the handles that are moved. -/
structure Carriage.SettlesCleanly (carriage : Carriage) (address : UInt32) (held : World) :
    Prop where
  full : carriage.words = none →
    held.ClosesEach carriage.route.receiverTable carriage.ledger.created
  unwritten : ∀ words error kept, carriage.words = some words →
    Reaches held (accessMemory carriage.route.receiver.owner (.writeWords address words)).run
      (.error error) kept →
      kept.ClosesEach carriage.route.receiverTable carriage.ledger.created
  delivered : ∀ words written, carriage.words = some words →
    Reaches held (accessMemory carriage.route.receiver.owner (.writeWords address words)).run
      (.ok ()) written →
      written.ClosesEach carriage.route.senderTable carriage.ledger.moved ∧
        ∀ journal, carriage.ledger.commit carriage.route.senderTable ⟨written, journal⟩
          = (closeEach carriage.route.senderTable carriage.ledger.moved >>= fun _ => pure ())
            ⟨written, journal⟩

section

variable {held : World} {carriage : Carriage} {address : UInt32} {words : List UInt32}

theorem leads_write_balanced (balanced : carriage.route.Balanced carriage.ledger held) :
    Leads held (accessMemory carriage.route.receiver.owner (.writeWords address words)).run
      (fun _ next => carriage.route.Balanced carriage.ledger next) fun _ => True :=
  (leads_writeWords fun _ => trivial).mono
    (fun _ _ writes => balanced.of_lasts writes.lasts writes.table?_eq) fun _ h => h

theorem Route.Balanced.settlesCleanly (balanced : carriage.route.Balanced carriage.ledger held) :
    carriage.SettlesCleanly address held where
  full _ := World.closesEach balanced.created_once balanced.created_live
  unwritten words error kept _ refused := by
    have balanced := (leads_write_balanced balanced).of_reaches refused
    exact World.closesEach balanced.created_once balanced.created_live
  delivered words written _ wrote := by
    have balanced := (leads_write_balanced balanced).of_reaches wrote
    exact ⟨World.closesEach balanced.moved_once balanced.moved_live,
      carriage.ledger.commit_eq balanced.moved_once balanced.moved_live⟩

theorem missesNothing_settle (balanced : carriage.route.Balanced carriage.ledger held) :
    MissesNothing held (carriage.settle address).run := by
  unfold Carriage.settle
  cases carriage.words with
  | none =>
    simp only [run_lift_bind]
    exact (missesNothing_rollback balanced.created_once balanced.created_live).andThen
      fun _ _ => notes_run_throw
  | some words =>
    simp only [run_lift_bind]
    apply missesNothing_accessMemory.bind (leads_write_balanced balanced)
    intro outcome next balanced
    cases outcome with
    | ok =>
      rw [run_lift]
      exact (missesNothing_commit balanced.moved_once balanced.moved_live).andThen
        fun _ _ => notes_pure
    | error error =>
      simp only [run_lift_bind]
      exact (missesNothing_rollback balanced.created_once balanced.created_live).andThen
        fun _ _ => notes_run_throw

end

/-! ## While a command is taken up -/

section

variable {w : World} {route : Route} {moving : Bool} {ledger : Ledger} {buffer : CommandBuffer}
variable {item : RegionItem} {source target : Key Thread} {address : UInt32}

theorem missesNothing_fetchCommand {sender : Thread} :
    MissesNothing w (fetchCommand sender address).run := by
  refine (missesNothing_accessMemory.adapt _).andThenRun fun word next => ?_
  dsimp only
  split
  · rw [run_lift_bind]
    exact notes_note_bind rfl notes_run_throw
  · refine (missesNothing_accessMemory.adapt _).andThenRun fun words last => ?_
    rw [run_lift_bind]
    exact notes_liftExcept_bind fun _ _ => notes_run_pure

theorem RegionError.missesClose_notice (error : RegionError) :
    error.notice.missesClose = false := by
  cases error <;> rfl

theorem missesNothing_cutRegion {header : Header} :
    MissesNothing w (cutRegion header buffer).run := by
  unfold cutRegion
  rw [run_lift_bind]
  refine notes_liftExcept_bind fun region _ => ?_
  cases region with
  | ok items => exact notes_run_pure
  | error error =>
    rw [run_lift_bind]
    exact notes_note_bind error.missesClose_notice notes_run_throw

namespace Route

theorem missesNothing_lookUp {handle : Handle} : MissesNothing w (route.lookUp ledger handle) := by
  unfold lookUp resolve
  split
  · exact notes_pure
  · split
    · exact missesNothing_retain.andThen fun _ _ => notes_pure
    · refine notes_read_bind (fun w => w.processes.get? route.sender.owner) fun process _ => ?_
      exact missesNothing_retain.andThen fun _ _ => notes_pure
    · split
      · exact missesNothing_acquireHandle
      · exact notes_pure

theorem missesNothing_handOver {handle : Handle} :
    MissesNothing w (route.handOver moving ledger handle).run := by
  unfold handOver
  rw [run_lift_bind]
  refine missesNothing_lookUp.andThen fun found next => ?_
  cases found with
  | none =>
    rw [run_lift_bind]
    exact notes_note_bind rfl notes_run_pure
  | some object =>
    rw [run_lift_bind]
    refine missesNothing_createHandle.andThen fun outcome last => ?_
    cases outcome with
    | ok issued => exact notes_run_pure
    | error error =>
      rw [run_lift_bind]
      exact notes_note_bind rfl notes_run_throw

theorem missesNothing_handOverAll {words : List UInt32} :
    MissesNothing w (route.handOverAll moving ledger words).run := by
  induction words generalizing ledger w with
  | nil => exact notes_run_pure
  | cons word rest ih =>
    refine missesNothing_handOver.andThenRun fun handed next => ?_
    exact ih.andThenRun fun _ _ => notes_run_pure

theorem missesNothing_carry : MissesNothing w (route.carry buffer ledger item).run := by
  have payload {moving : Bool} {w : World} :
      MissesNothing w (route.handOverPayload moving buffer ledger item).run := by
    unfold handOverPayload
    rw [run_lift_bind]
    refine notes_liftExcept_bind fun payload _ => ?_
    refine missesNothing_handOverAll.andThenRun fun handed next => ?_
    rw [run_lift_bind]
    exact notes_liftExcept_bind fun _ _ => notes_run_pure
  unfold carry
  rw [run_lift_bind]
  refine notes_note_bind rfl ?_
  cases item.descriptor with
  | copyHandle => exact payload
  | moveHandle => exact payload
  | callingPid =>
    simp only [run_lift_bind]
    refine notes_read_bind (fun w => w.processes.get? route.sender.owner) fun process _ => ?_
    exact notes_liftExcept_bind fun _ _ => notes_run_pure
  | staticBuffer => exact notes_run_pure
  | mappedBuffer => exact notes_run_pure

theorem missesNothing_carryAll {items : List RegionItem} :
    MissesNothing w (route.carryAll buffer ledger items).run := by
  induction items generalizing buffer ledger w with
  | nil => exact notes_run_pure
  | cons item rest ih => exact missesNothing_carry.andThenRun fun _ _ => ih

end Route

/-- Nothing is closed while a command is taken up. -/
theorem missesNothing_pickUp : MissesNothing w (pickUp source target address).run := by
  unfold pickUp
  rw [run_lift_bind]
  refine notes_read_bind (fun w => w.threads.get? source) fun sender _ => ?_
  rw [run_lift_bind]
  refine notes_read_bind (fun w => w.threads.get? target) fun receiver _ => ?_
  refine missesNothing_fetchCommand.andThenRun fun fetched next => ?_
  refine missesNothing_cutRegion.andThenRun fun items last => ?_
  rw [run_lift_bind]
  refine Route.missesNothing_carryAll.andThen fun outcome held => ?_
  cases outcome with
  | ok carried =>
    rw [run_lift_bind]
    exact notes_liftExcept_bind fun _ _ => notes_run_pure
  | error ledger => exact notes_run_pure

end

/-! ## Deliveries -/

section

variable {source target : Key Thread} {sourceAddress targetAddress : UInt32}

/-- **No close of a delivery fails.** Between any two threads and whatever the command, the handles
that were issued are listed once each and name something at the receiver at every moment, and so do
those that are moved at the sender, of which none is a pseudo-handle. Whether the carriage is rolled
back or committed, each handle is closed without an error, and so no notice tells of a handle that
was gone. -/
theorem deliver_misses_no_close {s : Situation} (reachable : s.Reachable) :
    (∀ route ledger held, Midway source target sourceAddress s.machine.world route ledger held →
      route.Balanced ledger held) ∧
    (∀ carriage held,
      Reaches s.machine.world (pickUp source target sourceAddress).run (.ok carriage) held →
        carriage.route.Balanced carriage.ledger held ∧ carriage.SettlesCleanly targetAddress held) ∧
    MissesNothing s.machine.world (deliver source target sourceAddress targetAddress).run := by
  have wf := reachable.sound.tables
  have picks : Leads s.machine.world (pickUp source target sourceAddress).run _ fun _ => True :=
    leads_pickUp_balanced wf
  refine ⟨fun route ledger held midway => midway.balanced wf, fun carriage held reached => ?_, ?_⟩
  · have balanced := picks.of_reaches reached carriage rfl
    exact ⟨balanced, balanced.settlesCleanly⟩
  · exact missesNothing_pickUp.bindRun picks fun carriage held balanced =>
      missesNothing_settle (balanced carriage rfl)

end

/-- The first word has been handed over, and what was issued for it is the second one. -/
theorem Situation.chaining_midway : ∃ route held,
    Midway ⟨0⟩ ⟨1⟩ 0 chaining.machine.world route ⟨[⟨0x8002⟩], [⟨1⟩]⟩ held := by
  obtain ⟨sender, receiver, header, command, sends, receives, fetching, cutting, payload, handing⟩ :
      ∃ sender receiver header command,
        chaining.machine.world.threads.get? ⟨0⟩ = some sender ∧
        chaining.machine.world.threads.get? ⟨1⟩ = some receiver ∧
        (Effect.runFrom (fetchCommand sender 0).run chaining.machine).map Prod.fst
          = .ok (.ok (header, command)) ∧
        (Effect.runFrom (cutRegion header command).run chaining.machine).map Prod.fst
          = .ok (.ok [⟨1, .moveHandle 2⟩]) ∧
        command.slice 2 4 = .ok ([1] ++ [0x8002]) ∧
        (Effect.runFrom (Route.handOverAll ⟨sender, receiver⟩ true .empty [1]).run
          chaining.machine).map Prod.fst = .ok (.ok ([0x8002], ⟨[⟨0x8002⟩], [⟨1⟩]⟩)) :=
    ⟨_, _, .ofWord 0x10003, .ofList [0x10003, 0x4000010, 1, 0x8002], rfl, rfl, by decide +kernel,
      by decide +kernel, by decide +kernel, by decide +kernel⟩
  obtain ⟨_, fetched, fetches, rfl⟩ := exists_reaches id fetching
  have fetch : Leads chaining.machine.world (fetchCommand sender 0).run _ fun _ => True :=
    leads_fetchCommand fun _ => trivial
  obtain ⟨rfl, process, owner, same⟩ := fetch.of_reaches fetches
  obtain ⟨-, -, bound⟩ := Process.of_fetch? same.symm
  obtain ⟨_, cut, cuts, rfl⟩ := exists_reaches id cutting
  have region : Leads chaining.machine.world (cutRegion header command).run _ fun _ => True :=
    leads_cutRegion bound
  obtain ⟨rfl, -⟩ := region.of_reaches cuts
  obtain ⟨_, held, handed, rfl⟩ := exists_reaches id handing
  have begun : Reaches chaining.machine.world
      (Route.carryAll ⟨sender, receiver⟩ command .empty []).run (.ok (command, .empty))
      chaining.machine.world := ⟨#[], _, rfl, rfl⟩
  have before : CarriedUpTo ⟨0⟩ ⟨1⟩ 0 chaining.machine.world ⟨sender, receiver⟩
      [⟨1, .moveHandle 2⟩] command .empty chaining.machine.world :=
    ⟨sends, receives, header, command, [], _, _, fetches, cuts, begun⟩
  exact ⟨_, held, .within before rfl payload handed⟩

/-- Inside of a process the handle that was issued for the first word is moved by the second. -/
theorem deliver_misses_no_close_chaining : ∃ route first carriage held,
    Midway ⟨0⟩ ⟨1⟩ 0 Situation.chaining.machine.world route ⟨[⟨0x8002⟩], [⟨1⟩]⟩ first ∧
      route.Balanced ⟨[⟨0x8002⟩], [⟨1⟩]⟩ first ∧
      Reaches Situation.chaining.machine.world (pickUp ⟨0⟩ ⟨1⟩ 0).run (.ok carriage) held ∧
      carriage.ledger = ⟨[⟨0x8002⟩, ⟨0x10003⟩], [⟨1⟩, ⟨0x8002⟩]⟩ ∧
      carriage.route.Balanced carriage.ledger held ∧ carriage.SettlesCleanly 0x100 held ∧
      MissesNothing Situation.chaining.machine.world (deliver ⟨0⟩ ⟨1⟩ 0 0x100).run := by
  obtain ⟨moments, carriages, nothing⟩ := deliver_misses_no_close Situation.reachable_chaining
  obtain ⟨route, first, midway⟩ := Situation.chaining_midway
  have taken : (Effect.runFrom (pickUp ⟨0⟩ ⟨1⟩ 0).run Situation.chaining.machine).map
      (fun ended => Except.map Carriage.ledger ended.1)
      = .ok (.ok ⟨[⟨0x8002⟩, ⟨0x10003⟩], [⟨1⟩, ⟨0x8002⟩]⟩) := by decide +kernel
  obtain ⟨outcome, held, reached, ledger⟩ := exists_reaches (Except.map Carriage.ledger) taken
  cases outcome with
  | error => cases ledger
  | ok carriage =>
    obtain ⟨balanced, cleanly⟩ := carriages carriage held reached
    exact ⟨route, first, carriage, held, midway, moments route _ first midway, reached,
      Except.ok.inj ledger, balanced, cleanly, nothing⟩

end MicrokernelIpc
