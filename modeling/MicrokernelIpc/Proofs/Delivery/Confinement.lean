import MicrokernelIpc.Proofs.Delivery.SharedTable
import MicrokernelIpc.Proofs.HandleTable.FiniteMap

/-!
# Objects are confined

A process comes to an object only by what is sent to it. A delivery gives the receiver's table
nothing but what the command offers: what its handles name in the sender's table, and the sending
thread and its process for the pseudo-handles. Whatever words a guest writes into a command, it can
offer nothing else. So along a run in which tables are only emptied and duplicated from, each object
that a table names was there in the beginning, or came to it along a chain of deliveries.
-/

namespace MicrokernelIpc

/-! ## What tables name -/

/-- The table has a handle to the object. -/
def World.Has (w : World) (key : TableKey) (object : ObjectRef) : Prop :=
  ∃ table handle, w.table? key = some table ∧ table.resolve handle = some object

/-- No handle of the table names what it did not name before. -/
def World.Fades (key : TableKey) (w w' : World) : Prop :=
  ∀ table' handle object, w'.table? key = some table' → table'.resolve handle = some object →
    ∃ table, w.table? key = some table ∧ table.resolve handle = some object

namespace World

variable {w next w' : World} {key other : TableKey} {handle : Handle} {object : ObjectRef}
variable {table : HandleTable}

theorem Fades.of_eq (same : w'.table? key = w.table? key) : Fades key w w' :=
  fun _ _ _ found resolved => ⟨_, same ▸ found, resolved⟩

theorem Fades.trans (first : Fades key w next) (second : Fades key next w') : Fades key w w' := by
  intro table' handle object found resolved
  obtain ⟨table, there, resolves⟩ := second table' handle object found resolved
  exact first table handle object there resolves

theorem Fades.has (fades : Fades key w w') (has : w'.Has key object) : w.Has key object := by
  obtain ⟨table', handle, found, resolved⟩ := has
  obtain ⟨table, there, resolves⟩ := fades table' handle object found resolved
  exact ⟨table, handle, there, resolves⟩

theorem Takes.fades {outcome : Option ObjectRef} (takes : w.Takes key handle outcome w')
    (other : TableKey) : Fades other w w' := by
  cases takes with
  | unknown => exact .of_eq rfl
  | @taken table next object found taken =>
    by_cases same : key = other
    · subst same
      intro table' handle' object' there resolved
      rw [table?_setTable_self found] at there
      obtain rfl := Option.some.inj there
      rw [(HandleTable.drops_of_take taken).resolve] at resolved
      split at resolved
      · cases resolved
      · exact ⟨table, found, resolved⟩
    · exact .of_eq (by rw [table?_setTable, if_neg same])

theorem Closes.fades {outcome : Except HandleTableError Unit}
    (closes : w.Closes key handle outcome w') (other : TableKey) : Fades other w w' := by
  cases closes with
  | unknown => exact .of_eq rfl
  | closed found taken released =>
    exact (Takes.taken found taken).fades other |>.trans (.of_eq (table?_of_release? released))

theorem ClosesAll.fades {handles : List Handle} (closes : ClosesAll key handles w w')
    (other : TableKey) : Fades other w w' := by
  induction closes with
  | nil => exact .of_eq rfl
  | cons first _ ih => exact (first.fades other).trans ih

theorem Clears.fades (clears : w.Clears key w')
    (wf : ∀ table, w.table? key = some table → table.WellFormed) (other : TableKey) :
    Fades other w w' := by
  cases clears with
  | @cleared table _ found released =>
    have tables : w'.table? other = (w.setTable table.clear.2 key).table? other :=
      table?_of_releaseAll? released
    rw [table?_setTable] at tables
    by_cases same : key = other
    · subst same
      intro table' handle object there resolved
      rw [tables, if_pos rfl, found] at there
      obtain rfl : table.clear.2 = table' := Option.some.inj there
      rw [(wf table found).resolve_clear] at resolved
      cases resolved
    · exact .of_eq (by rw [tables, if_neg same])

/-- A duplicate names what was named before. -/
theorem Duplicates.has {outcome : Except HandleTableError Handle}
    (duplicates : w.Duplicates key handle outcome w')
    (wf : ∀ table, w.table? key = some table → table.WellFormed) (has : w'.Has other object) :
    w.Has other object := by
  cases duplicates with
  | unknown => exact has
  | @copied table next named copy held found resolved retained allocated =>
    obtain ⟨table', handle', there, resolved'⟩ := has
    rw [table?_setTable, table?_of_retain? retained] at there
    split at there
    · next same =>
      subst same
      rw [found] at there
      obtain rfl : next = table' := Option.some.inj there
      rw [((wf table found).adds_of_allocate allocated).resolve] at resolved'
      split at resolved'
      · exact ⟨table, handle, found, resolved.trans resolved'⟩
      · exact ⟨table, handle', found, resolved'⟩
    · exact ⟨table', handle', there, resolved'⟩
  | full found resolved retained refused released =>
    exact Fades.has (.of_eq ((table?_of_release? released).trans (table?_of_retain? retained))) has

end World

/-! ## What a command offers -/

/-- What a command with the given handles offers: what a handle names in the sender's table, and the
sending thread and its process for the pseudo-handles. -/
inductive Route.Offers (route : Route) (w : World) (handles : List (Bool × Handle)) :
    ObjectRef → Prop
  | named {moving : Bool} {handle : Handle} {table : HandleTable} {object : ObjectRef}
      (sent : (moving, handle) ∈ handles) (found : w.table? route.senderTable = some table)
      (resolved : table.resolve handle = some object) : Offers route w handles object
  | thread {moving : Bool} (sent : (moving, Handle.currentThread) ∈ handles) :
      Offers route w handles route.sender.object
  | process {moving : Bool} {process : Process} (sent : (moving, Handle.currentProcess) ∈ handles)
      (found : w.processes.get? route.sender.owner = some process) :
      Offers route w handles process.object

namespace Route

variable {route : Route} {ledger entered final last : Ledger} {w held w' : World} {moving : Bool}
variable {handle : Handle} {object : ObjectRef} {handings : List Handing} {base table : HandleTable}
variable {handles : List (Bool × Handle)} {key : TableKey}

theorem offers_of_find? (sent : (moving, handle) ∈ handles)
    (found : route.find? w handle = some object) : route.Offers w handles object := by
  unfold find? at found
  cases pseudo : handle.pseudo? with
  | some kind =>
    obtain rfl := Handle.pseudo?_eq_some_iff.1 pseudo
    rw [pseudo] at found
    cases kind with
    | currentThread =>
      obtain rfl := Option.some.inj found
      exact .thread sent
    | currentProcess =>
      obtain ⟨process, there, rfl⟩ := Option.map_eq_some_iff.1 found
      exact .process sent there
  | none =>
    rw [pseudo] at found
    dsimp only at found
    split at found
    · obtain ⟨table, there, resolved⟩ := Option.bind_eq_some_iff.1 found
      exact .named sent there resolved
    · cases found

theorem Offers.mono {more : List (Bool × Handle)} (offers : route.Offers w handles object)
    (sub : handles ⊆ more) : route.Offers w more object := by
  cases offers with
  | named sent found resolved => exact .named (sub sent) found resolved
  | thread sent => exact .thread (sub sent)
  | process sent found => exact .process (sub sent) found

theorem HandsOver.table?_of_ne {outcome : Except Ledger (UInt32 × Ledger)}
    (hands : route.HandsOver moving ledger handle w outcome w') (apart : route.receiverTable ≠ key) :
    w'.table? key = w.table? key := by
  cases hands with
  | unresolved => rfl
  | issued named retained found allocated =>
    rw [World.table?_setTable, if_neg apart, World.table?_of_retain? retained]
  | full named retained found refused released =>
    rw [World.table?_of_release? released, World.table?_of_retain? retained]

theorem HandsEach.table?_of_ne (each : route.HandsEach ledger handings w final w')
    (apart : route.receiverTable ≠ key) : w'.table? key = w.table? key := by
  induction each with
  | nil => rfl
  | cons first _ ih => rw [ih, first.table?_of_ne apart]

theorem HandsEach.find?_eq (apart : route.senderTable ≠ route.receiverTable)
    (each : route.HandsEach ledger handings w final w') : route.find? w' = route.find? w := by
  induction each with
  | nil => rfl
  | cons first _ ih => rw [ih, first.find?_eq apart]

/-- What is issued is entered in the ledger. -/
theorem HandsEach.created_eq (each : route.HandsEach ledger handings w final w') :
    final.created = ledger.created ++ (handings.filterMap Handing.grant).map Prod.fst := by
  induction each with
  | nil => simp
  | cons first _ ih =>
    rw [ih]
    cases first with
    | unresolved named => simp [List.filterMap_cons, Handing.grant, named]
    | issued named => simp [Handing.grant, named, Ledger.enter]

/-- What the handles of a command name when their turns come is offered by the command. Inside of one
process a handle may name what was issued for an earlier one, and that was offered before it. -/
theorem HandsEach.offers (each : route.HandsEach .empty handings w final w')
    (found : w.table? route.receiverTable = some base) (wf : base.WellFormed) {handing : Handing}
    (mem : handing ∈ handings) (named : handing.object = some object) :
    route.Offers w (handings.map Handing.sent) object := by
  obtain ⟨earlier, later, rfl⟩ := List.append_of_mem mem
  induction h : earlier.length using Nat.strongRecOn
    generalizing earlier handing later w' final with
  | ind count ih =>
    subst h
    obtain ⟨entered, held, before, behind⟩ := each.split
    have sent : handing.sent ∈ (earlier ++ handing :: later).map Handing.sent :=
      List.mem_map_of_mem (by simp)
    have here : route.find? held handing.handle = some object := by
      cases behind with
      | cons first =>
        rw [Route.named] at named
        split at named
        · cases named
        · exact named
    by_cases apart : route.senderTable = route.receiverTable
    · obtain old | ⟨other, inside, granted, -⟩ := (before.find?_eq_some_iff apart found wf).1 here
      · exact offers_of_find? sent old
      · obtain ⟨first, rest, rfl⟩ := List.append_of_mem inside
        refine (ih first.length (by simp) granted first rest before inside rfl).mono ?_
        exact List.map_subset _ (List.subset_append_left _ _)
    · rw [before.find?_eq apart] at here
      exact offers_of_find? sent here

/-- Handing handles over makes no handle table. -/
theorem HandsEach.exists_table (each : route.HandsEach ledger handings w final w')
    (there : w'.table? route.receiverTable = some table) :
    ∃ base, w.table? route.receiverTable = some base := by
  obtain ⟨f, processes⟩ := each.get?_processes route.receiver.owner
  obtain ⟨process, found, -⟩ := Option.map_eq_some_iff.1 there
  rw [processes] at found
  obtain ⟨before, old, -⟩ := Option.map_eq_some_iff.1 found
  exact ⟨before.handles, World.table?_receiverTable old⟩

/-- What the receiver's table names after handles were handed over it named before, or the command
offers it. -/
theorem HandsEach.has_receiver (each : route.HandsEach .empty handings w final w')
    (wf : ∀ table, w.table? route.receiverTable = some table → table.WellFormed)
    (has : w'.Has route.receiverTable object) :
    w.Has route.receiverTable object ∨ route.Offers w (handings.map Handing.sent) object := by
  obtain ⟨table, handle, there, resolved⟩ := has
  obtain ⟨base, found⟩ := each.exists_table there
  obtain ⟨next, there', extended⟩ := each.extends found (wf base found).extends
  obtain rfl := Option.some.inj (there.symm.trans there')
  rw [List.nil_append] at extended
  obtain old | issued := extended.resolve_eq_some_iff.1 resolved
  · exact .inl ⟨base, handle, found, old⟩
  · obtain ⟨handing, mem, granted⟩ := List.mem_filterMap.1 issued
    obtain ⟨_, named, same⟩ := Option.map_eq_some_iff.1 granted
    obtain ⟨-, rfl⟩ := Prod.mk.inj same
    exact .inr (each.offers found (wf base found) mem named)

/-- Once all that was handed over is closed again, the receiver's table names nothing new. -/
theorem HandsEach.fades_of_closed {mid : World} (each : route.HandsEach .empty handings w final mid)
    (wf : ∀ table, w.table? route.receiverTable = some table → table.WellFormed)
    (same : held.table? route.receiverTable = mid.table? route.receiverTable)
    (closes : World.ClosesAll route.receiverTable final.created held w') :
    World.Fades route.receiverTable w w' := by
  intro last handle object there resolved
  obtain ⟨table, found', -⟩ := closes.fades _ last handle object there resolved
  obtain ⟨base, found⟩ := each.exists_table (same.symm.trans found')
  obtain ⟨next, issued, extended⟩ := each.extends found (wf base found).extends
  rw [List.nil_append] at extended
  obtain ⟨closed, there', resolves⟩ := closes.resolve (same.trans issued)
  obtain rfl := Option.some.inj (there.symm.trans there')
  rw [resolves, each.created_eq] at resolved
  split at resolved
  · cases resolved
  · next unissued => exact ⟨base, found, (extended.others handle unissued).symm.trans resolved⟩

/-- The handles of the command that stands at an address of the sender's memory. -/
def Sends (route : Route) (w : World) (address : UInt32) (handles : List (Bool × Handle)) : Prop :=
  ∃ process, w.processes.get? route.sender.owner = some process ∧
    process.survey? address = .ok handles

end Route

/-! ## A delivery -/

section

variable {source target : Key Thread} {sourceAddress targetAddress : UInt32} {route : Route}
variable {carriage : Carriage} {w held w' : World} {outcome : Except DeliveryError Unit}

/-- What was done until a carriage is settled: some handles of the command were handed over. -/
structure Carriage.HandsOver (carriage : Carriage) (address : UInt32) (handings : List Handing)
    (w mid held : World) : Prop where
  each : carriage.route.HandsEach .empty handings w carriage.ledger mid
  sends : ∃ handles, carriage.route.Sends w address handles ∧ handings.map Handing.sent ⊆ handles
  tables : ∀ key, held.table? key = mid.table? key
  memories : ∀ place, held.memory? place = mid.memory? place

theorem PicksUp.handsOver (picks : PicksUp source target sourceAddress w (.ok carriage) held) :
    w.threads.get? source = some carriage.route.sender ∧
      w.threads.get? target = some carriage.route.receiver ∧
      ∃ handings mid, carriage.HandsOver sourceAddress handings w mid held := by
  cases picks with
  | @carried route process header command buffer _ _ _ sender receiver owner fetched tiles carries =>
    obtain ⟨-, -, bound⟩ := Process.of_fetch? fetched
    obtain ⟨walks, -⟩ := carries.walks bound tiles fun _ _ _ => rfl
    obtain ⟨handings, sent, -, each⟩ := walks.handsEach
    refine ⟨sender, receiver, handings, held, each, ⟨_, ⟨process, owner, ?_⟩, fun _ mem => mem⟩,
      fun _ => rfl, fun _ => rfl⟩
    rw [Process.survey?, fetched]
    exact sent
  | @full route process header command _ _ _ sender receiver owner fetched tiles carries =>
    obtain ⟨-, -, bound⟩ := Process.of_fetch? fetched
    obtain ⟨handings, moving, handle, rest, mid, sent, stops⟩ :=
      carries.stopsAt bound tiles fun _ _ _ => rfl
    refine ⟨sender, receiver, handings, mid, stops.before,
      ⟨handings.map Handing.sent ++ (moving, handle) :: rest, ⟨process, owner, ?_⟩,
        List.subset_append_left _ _⟩, ?_, ?_⟩
    · rw [Process.survey?, fetched]
      exact sent
    · intro key
      cases stops.full with
      | full named retained found refused released =>
        rw [World.table?_of_release? released, World.table?_of_retain? retained]
    · intro place
      cases stops.full with
      | full named retained found refused released =>
        rw [World.memory?_of_release? released, World.memory?_of_retain? retained]

/-- What the settling of a carriage leaves alone. -/
structure Carriage.Spares (carriage : Carriage) (held w' : World) : Prop where
  fades : ∀ key, World.Fades key held w'
  tables : ∀ key, carriage.route.senderTable ≠ key → carriage.route.receiverTable ≠ key →
    w'.table? key = held.table? key
  memories : ∀ place, carriage.route.receiver.owner ≠ place → w'.memory? place = held.memory? place

theorem Carriage.Settles.spares (settles : carriage.Settles targetAddress held outcome w') :
    carriage.Spares held w' := by
  cases outcome with
  | error error =>
    have rolled := settles.rolled
    exact ⟨rolled.fades, fun _ _ apart => rolled.table?_of_ne apart,
      fun place _ => rolled.memory?_eq place⟩
  | ok =>
    cases settles with
    | delivered finished wrote committed =>
      refine ⟨fun key => (World.Fades.of_eq (wrote.table?_eq key)).trans (committed.fades key),
        fun key apart _ => (committed.table?_of_ne apart).trans (wrote.table?_eq key),
        fun place apart => ?_⟩
      rw [committed.memory?_eq, World.memory?, wrote.get?_processes_of_ne apart, World.memory?]

/-- A delivery gives the receiver's table nothing but what its command offers, and nothing at all if
it is refused. The sender's table, if it is another one, names nothing new, and everything else of
all processes is left alone but the receiver's memory. -/
structure Route.Confines (route : Route) (address : UInt32) (w : World)
    (outcome : Except DeliveryError Unit) (w' : World) : Prop where
  receiver : ∀ object, w'.Has route.receiverTable object → w.Has route.receiverTable object ∨
    ∃ handles, route.Sends w address handles ∧ route.Offers w handles object
  refused : ∀ error, outcome = .error error → World.Fades route.receiverTable w w'
  sender : route.senderTable ≠ route.receiverTable → World.Fades route.senderTable w w'
  tables : ∀ key, route.senderTable ≠ key → route.receiverTable ≠ key →
    w'.table? key = w.table? key
  memories : ∀ place, route.receiver.owner ≠ place → w'.memory? place = w.memory? place

theorem Delivers.confines (delivers : Delivers source target sourceAddress targetAddress w outcome w')
    (wf : ∀ key table, w.table? key = some table → table.WellFormed) :
    ∃ route : Route, w.threads.get? source = some route.sender ∧
      w.threads.get? target = some route.receiver ∧ route.Confines sourceAddress w outcome w' := by
  cases delivers with
  | refused picks =>
    cases picks with
    | refused receiver sender =>
      exact ⟨_, sender, receiver, fun _ => .inl, fun _ _ => .of_eq rfl, fun _ => .of_eq rfl,
        fun _ _ _ => rfl, fun _ _ => rfl⟩
  | @settled carriage _ held _ picks settles =>
    obtain ⟨sender, receiver, handings, mid, hands⟩ := picks.handsOver
    have spares := settles.spares
    have received := wf carriage.route.receiverTable
    refine ⟨carriage.route, sender, receiver, ?_, ?_, ?_, ?_, ?_⟩
    · intro object has
      have here : mid.Has carriage.route.receiverTable object :=
        ((World.Fades.of_eq (hands.tables _)).trans (spares.fades _)).has has
      obtain old | offers := hands.each.has_receiver received here
      · exact .inl old
      · obtain ⟨handles, sends, among⟩ := hands.sends
        exact .inr ⟨handles, sends, offers.mono among⟩
    · rintro error rfl
      exact hands.each.fades_of_closed received (hands.tables _) settles.rolled
    · intro apart
      have same : mid.table? carriage.route.senderTable = w.table? carriage.route.senderTable :=
        hands.each.table?_of_ne apart.symm
      exact (World.Fades.of_eq ((hands.tables _).trans same)).trans (spares.fades _)
    · intro key apart apart'
      rw [spares.tables key apart apart', hands.tables, hands.each.table?_of_ne apart']
    · intro place apart
      rw [spares.memories place apart, hands.memories, hands.each.memory?_eq]

variable {key : TableKey} {object : ObjectRef}

theorem Route.Confines.fades {error : DeliveryError}
    (confines : route.Confines sourceAddress w (.error error) w') (key : TableKey) :
    World.Fades key w w' := by
  by_cases received : route.receiverTable = key
  · exact received ▸ confines.refused error rfl
  · by_cases sent : route.senderTable = key
    · exact sent ▸ confines.sender (sent ▸ Ne.symm received)
    · exact .of_eq (confines.tables key sent received)

/-- A delivery makes no table name a new object but the receiver's. -/
theorem Route.Confines.has_of_ne (confines : route.Confines sourceAddress w outcome w')
    (apart : route.receiverTable ≠ key) (has : w'.Has key object) : w.Has key object := by
  by_cases sent : route.senderTable = key
  · subst sent
    exact (confines.sender apart.symm).has has
  · exact (World.Fades.of_eq (confines.tables key sent apart)).has has

/-! ## Runs -/

/-- A delivery that succeeded: the world before it, the threads, and where the command stood. -/
structure Crossing where
  world : World
  source : Key Thread
  target : Key Thread
  address : UInt32

/-- The delivery went along the route, and its command offered the object. -/
structure Crossing.Offers (crossing : Crossing) (route : Route) (object : ObjectRef) : Prop where
  sender : crossing.world.threads.get? crossing.source = some route.sender
  receiver : crossing.world.threads.get? crossing.target = some route.receiver
  offers : ∃ handles, route.Sends crossing.world crossing.address handles ∧
    route.Offers crossing.world handles object

/-- The object is the sending thread or its process. -/
def Route.IsSender (route : Route) (w : World) (object : ObjectRef) : Prop :=
  object = route.sender.object ∨
    ∃ process, w.processes.get? route.sender.owner = some process ∧ object = process.object

/-- How an object came to a table: it was there in the beginning, or the thread or the process that
the object is sent itself, or it was passed on from a table that it had come to before. -/
inductive Obtains (start : World) : List Crossing → TableKey → ObjectRef → Prop
  | initially {crossings : List Crossing} {key : TableKey} {object : ObjectRef}
      (has : start.Has key object) : Obtains start crossings key object
  | introduced {earlier later : List Crossing} {crossing : Crossing} {route : Route}
      {object : ObjectRef} (offers : crossing.Offers route object)
      (own : route.IsSender crossing.world object) :
      Obtains start (earlier ++ crossing :: later) route.receiverTable object
  | passed {earlier later : List Crossing} {crossing : Crossing} {route : Route}
      {object : ObjectRef} (offers : crossing.Offers route object)
      (named : crossing.world.Has route.senderTable object)
      (obtained : Obtains start earlier route.senderTable object) :
      Obtains start (earlier ++ crossing :: later) route.receiverTable object

theorem Obtains.mono {start : World} {crossings : List Crossing}
    (obtains : Obtains start crossings key object) (more : List Crossing) :
    Obtains start (crossings ++ more) key object := by
  cases obtains with
  | initially has => exact .initially has
  | introduced offers own =>
    rw [List.append_assoc]
    exact .introduced offers own
  | passed offers named obtained =>
    rw [List.append_assoc]
    exact .passed offers named obtained

/-- The operation duplicates a handle, closes one, takes one out, clears a table or lets go of what
was taken out, or a guest runs. -/
def Operation.isLocal : Operation → Bool
  | duplicate .. => true
  | close .. => true
  | take .. => true
  | clear .. => true
  | letGo .. => true
  | runGuest .. => true
  | _ => false

/-- A run of deliveries and of operations on single tables, with the deliveries that succeeded. -/
inductive Traffic (start : Situation) : List Crossing → Situation → Prop
  | refl : Traffic start [] start
  | call {crossings : List Crossing} {s : Situation} {op : Operation} {gained : Multiset ObjectRef}
      {machine : Machine} (before : Traffic start crossings s) (quiet : op.isLocal = true)
      (allowed : op.Allowed s.held) (returned : op.run s.machine = .ok gained machine) :
      Traffic start crossings (s.after op gained machine)
  | refused {crossings : List Crossing} {s : Situation} {source target : Key Thread}
      {sourceAddress targetAddress : UInt32} {error : DeliveryError} {machine : Machine}
      (before : Traffic start crossings s)
      (returned : (deliver source target sourceAddress targetAddress).run s.machine
        = .ok (.error error) machine) :
      Traffic start crossings { s with machine }
  | delivered {crossings : List Crossing} {s : Situation} {source target : Key Thread}
      {sourceAddress targetAddress : UInt32} {machine : Machine}
      (before : Traffic start crossings s)
      (returned : (deliver source target sourceAddress targetAddress).run s.machine
        = .ok (.ok ()) machine) :
      Traffic start (crossings ++ [⟨s.machine.world, source, target, sourceAddress⟩])
        { s with machine }

variable {s t : Situation} {machine next : Machine} {crossings : List Crossing}

/-- An operation on a single table makes no table name a new object. -/
theorem Operation.has_of_isLocal {op : Operation} {gained : Multiset ObjectRef}
    (quiet : op.isLocal = true)
    (wf : ∀ key table, machine.world.table? key = some table → table.WellFormed)
    (returned : op.run machine = .ok gained next) (has : next.world.Has key object) :
    machine.world.Has key object := by
  suffices leads : Leads machine.world op.run
      (fun _ w' => ∀ key object, w'.Has key object → machine.world.Has key object)
      fun _ => True from leads.of_ok returned key object has
  match op, quiet with
  | .duplicate table handle, _ =>
    exact (leads_duplicateHandle (fun _ => trivial) fun _ _ _ _ _ => ⟨trivial, trivial⟩).bind
      fun _ _ duplicates => leads_pure fun _ _ => duplicates.has (wf _)
  | .close table handle, _ =>
    exact (leads_closeHandle (fun _ => trivial) fun _ _ _ _ _ => trivial).bind
      fun _ _ closes => leads_pure fun key _ => (closes.fades key).has
  | .take table handle, _ =>
    exact (leads_takeHandle fun _ => trivial).bind
      fun _ _ takes => leads_pure fun key _ => (takes.fades key).has
  | .clear table, _ =>
    exact (leads_clearTable (fun _ => trivial) fun _ _ _ _ _ => trivial).bind
      fun _ _ clears => leads_pure fun key _ => (clears.fades (wf _) key).has
  | .letGo ref, _ =>
    exact (leads_release fun _ => trivial).bind fun _ _ released =>
      leads_pure fun _ _ => (World.Fades.of_eq (World.table?_of_release? released)).has
  | .runGuest place memory, _ =>
    refine leads_processAt_bind (fun process found => ?_) fun _ => trivial
    have same key : (machine.world.setProcess place { process with memory }).table? key
        = machine.world.table? key := World.table?_setProcess_of_handles found rfl
    exact leads_modifyWorld_bind (leads_pure fun key _ => (World.Fades.of_eq (same key)).has)

/-- A delivery is an operation of a run. -/
theorem Situation.Reachable.deliver (reachable : s.Reachable)
    (returned : (MicrokernelIpc.deliver source target sourceAddress targetAddress).run s.machine
      = .ok outcome machine) : Situation.Reachable { s with machine } := by
  have run : (Operation.deliver source target sourceAddress targetAddress).run s.machine
      = .ok 0 machine := bind_eq_ok_iff.2 ⟨_, _, returned, rfl⟩
  have step : Situation.Reachable (s.after _ _ _) :=
    .step reachable (Multiset.zero_le _) run (fun _ _ => trivial) trivial
  simpa [Situation.after, Operation.gives, Operation.inserts] using step

theorem Traffic.reachable (traffic : Traffic s crossings t) (reachable : s.Reachable) :
    t.Reachable := by
  induction traffic with
  | refl => exact reachable
  | call _ _ allowed returned ih => exact .step ih allowed returned (fun _ _ => trivial) trivial
  | refused _ returned ih => exact ih.deliver returned
  | delivered _ returned ih => exact ih.deliver returned

/-- What a table names in the end came to it along the deliveries. -/
theorem Traffic.obtains (traffic : Traffic s crossings t) (reachable : s.Reachable)
    (has : t.machine.world.Has key object) : Obtains s.machine.world crossings key object := by
  induction traffic generalizing key object with
  | refl => exact .initially has
  | call before quiet _ returned ih =>
    have sound := (before.reachable reachable).sound
    exact ih (Operation.has_of_isLocal quiet sound.tables returned has)
  | refused before returned ih =>
    have sound := (before.reachable reachable).sound
    obtain ⟨route, -, -, confines⟩ := (delivers_of_ok returned).confines sound.tables
    exact ih ((confines.fades key).has has)
  | @delivered _ s source target sourceAddress _ _ before returned ih =>
    have sound := (before.reachable reachable).sound
    obtain ⟨route, sender, receiver, confines⟩ := (delivers_of_ok returned).confines sound.tables
    by_cases received : route.receiverTable = key
    · subst received
      obtain old | ⟨handles, sends, offers⟩ := confines.receiver object has
      · exact (ih old).mono _
      · have offered : Crossing.Offers ⟨s.machine.world, source, target, sourceAddress⟩ route object :=
          ⟨sender, receiver, handles, sends, offers⟩
        cases offers with
        | named sent found resolved =>
          exact .passed offered ⟨_, _, found, resolved⟩ (ih ⟨_, _, found, resolved⟩)
        | thread sent => exact .introduced offered (.inl rfl)
        | process sent found => exact .introduced offered (.inr ⟨_, found, rfl⟩)
    · exact (ih (confines.has_of_ne received has)).mono _

/-- **Objects are confined.** Whatever stands in the command, a delivery gives the receiver's table no
object but those that the command offers, and along a run of deliveries and of operations on single
tables each object that a table names was there in the beginning or came to it from delivery to
delivery. -/
theorem deliveries_confine (reachable : s.Reachable) :
    (∀ source target sourceAddress targetAddress outcome machine,
      (deliver source target sourceAddress targetAddress).run s.machine = .ok outcome machine →
      ∃ route : Route, s.machine.world.threads.get? source = some route.sender ∧
        s.machine.world.threads.get? target = some route.receiver ∧
        route.Confines sourceAddress s.machine.world outcome machine.world) ∧
    ∀ crossings t, Traffic s crossings t → ∀ key object, t.machine.world.Has key object →
      Obtains s.machine.world crossings key object :=
  ⟨fun _ _ _ _ _ _ returned => (delivers_of_ok returned).confines reachable.sound.tables,
    fun _ _ traffic _ _ => traffic.obtains reachable⟩

/-- An event is passed on to the receiver. -/
theorem deliveries_confine_of_sending : ∃ crossings t, Traffic Situation.sending crossings t ∧
    t.machine.world.Has (.process ⟨1⟩) ⟨⟨0⟩, ⟨5⟩⟩ ∧
    Obtains Situation.sending.machine.world crossings (.process ⟨1⟩) ⟨⟨0⟩, ⟨5⟩⟩ := by
  have passed : (Effect.runFrom (deliver ⟨0⟩ ⟨1⟩ 0 0x1FF82080).run Situation.sending.machine).map
      (fun (outcome, machine) =>
        (outcome, (machine.world.table? (.process ⟨1⟩)).bind fun table => table.resolve ⟨1⟩))
      = .ok (.ok (), some ⟨⟨0⟩, ⟨5⟩⟩) := by decide +kernel
  obtain ⟨_, machine, returned, read⟩ := exists_of_runFrom passed
  obtain ⟨rfl, named⟩ := Prod.mk.inj read
  obtain ⟨table, found, resolved⟩ := Option.bind_eq_some_iff.1 named
  have traffic := Traffic.delivered .refl returned
  have has : machine.world.Has (.process ⟨1⟩) ⟨⟨0⟩, ⟨5⟩⟩ := ⟨table, _, found, resolved⟩
  exact ⟨_, _, traffic, has,
    (deliveries_confine (Situation.reachable_performAll _)).2 _ _ traffic _ _ has⟩

end

end MicrokernelIpc
