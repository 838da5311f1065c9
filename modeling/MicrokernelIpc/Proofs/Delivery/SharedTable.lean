import MicrokernelIpc.Proofs.Delivery.Arrival
import MicrokernelIpc.Proofs.Runs

/-!
# Deliveries inside one process

Between two threads of one process the handles of a command are looked up in the very table that
they are issued in. A handle then names what it named in the beginning, or what a handle of its
value was issued for earlier in the same command, and with a handle that is moved goes whatever
was issued under its value.
-/

namespace MicrokernelIpc

/-- The handles that the sender loses by handing over. -/
def lost (handings : List Handing) : List Handle :=
  handings.filterMap fun handing =>
    if handing.moving && handing.object.isSome && !handing.handle.isPseudo then some handing.handle
    else none

/-- How handles are handed over inside of one process, whose handles named what `find` says in the
beginning and are those of the table in the end. -/
structure HandedWithin (find : Handle → Option ObjectRef) (table : HandleTable)
    (handings : List Handing) : Prop where
  named : ∀ earlier handing later, handings = earlier ++ handing :: later → ∀ object,
    handing.object = some object ↔ handing.handle ∉ lost earlier ∧
      (find handing.handle = some object ∨
        ∃ other ∈ earlier, other.object = some object ∧ other.issued = handing.handle)
  unnamed : ∀ handing ∈ handings, handing.object = none → handing.issued = .invalid
  issued : ∀ handing ∈ handings, ∀ object, handing.object = some object →
    handing.issued ≠ .invalid ∧ find handing.issued = none ∧
      table.resolve handing.issued = if handing.issued ∈ lost handings then none else some object

/-- What was issued for the handle is zero, or names in the end what the handle named in the
beginning. -/
def Handing.Faithful (find : Handle → Option ObjectRef) (table : HandleTable) (handing : Handing) :
    Prop :=
  handing.issued = .invalid ∨
    ∃ object, find handing.handle = some object ∧ table.resolve handing.issued = some object

/-- No handle has the value that was issued for one before it. -/
def Unmixed (handings : List Handing) : Prop :=
  handings.Pairwise fun earlier later => earlier.issued ≠ .invalid → later.handle ≠ earlier.issued

namespace HandedWithin

variable {find : Handle → Option ObjectRef} {table : HandleTable} {handings : List Handing}
variable {handing other : Handing} {object : ObjectRef}

theorem exists_of_mem_lost {handle : Handle} (mem : handle ∈ lost handings) :
    ∃ other ∈ handings, other.handle = handle ∧ other.moving = true ∧
      ∃ object, other.object = some object := by
  obtain ⟨other, inside, moves⟩ := List.mem_filterMap.1 mem
  split at moves
  · next named =>
    simp only [Bool.and_eq_true] at named
    exact ⟨other, inside, Option.some.inj moves, named.1.1, Option.isSome_iff_exists.1 named.1.2⟩
  · cases moves

theorem exists_object (within : HandedWithin find table handings) (mem : handing ∈ handings)
    (valid : handing.issued ≠ .invalid) : ∃ object, handing.object = some object := by
  cases named : handing.object with
  | none => exact absurd (within.unnamed handing mem named) valid
  | some object => exact ⟨object, rfl⟩

/-- Where values are not mixed up, what a handle names it named in the beginning. -/
theorem find_of_unmixed (within : HandedWithin find table handings) (unmixed : Unmixed handings)
    (mem : handing ∈ handings) (named : handing.object = some object) :
    find handing.handle = some object := by
  obtain ⟨earlier, later, rfl⟩ := List.append_of_mem mem
  obtain ⟨-, old | ⟨other, before, granted, same⟩⟩ := (within.named _ _ _ rfl object).1 named
  · exact old
  · have valid := (within.issued other (by simp [before]) object granted).1
    have apart := (List.pairwise_append.1 unmixed).2.2 other before handing (by simp)
    exact absurd same.symm (apart valid)

/-- Every handle is resolved as in the beginning exactly if no value is used that was issued for an
earlier one. -/
theorem faithful_iff (within : HandedWithin find table handings) :
    (∀ handing ∈ handings, handing.Faithful find table) ↔ Unmixed handings := by
  constructor
  · intro faithful
    have old {handing : Handing} (mem : handing ∈ handings) {object : ObjectRef}
        (named : handing.object = some object) : find handing.handle ≠ none := by
      obtain zero | ⟨object, found, -⟩ := faithful handing mem
      · exact absurd zero (within.issued handing mem object named).1
      · simp [found]
    refine List.pairwise_iff_getElem.2 fun i j hi hj before valid same => ?_
    obtain ⟨object, granted⟩ := within.exists_object (List.getElem_mem hi) valid
    have fresh := (within.issued _ (List.getElem_mem hi) object granted).2.1
    -- nothing before the later one was lost under its value, for that value is no old name
    have unlost : handings[j].handle ∉ lost (handings.take j) := by
      intro gone
      obtain ⟨other, inside, same', -, object', named⟩ := exists_of_mem_lost gone
      exact old (List.mem_of_mem_take inside) named (by rw [same', same, fresh])
    have split : handings = handings.take j ++ handings[j] :: handings.drop (j + 1) := by
      rw [← List.drop_eq_getElem_cons hj, List.take_append_drop]
    have earlier : handings[i] ∈ handings.take j :=
      List.mem_take_iff_getElem.2 ⟨i, by omega, rfl⟩
    have named := (within.named _ _ _ split object).2
      ⟨unlost, .inr ⟨_, earlier, granted, same.symm⟩⟩
    exact old (List.getElem_mem hj) named (by rw [same, fresh])
  · intro unmixed handing mem
    cases named : handing.object with
    | none => exact .inl (within.unnamed handing mem named)
    | some object =>
      obtain ⟨-, fresh, kept⟩ := within.issued handing mem object named
      refine .inr ⟨object, within.find_of_unmixed unmixed mem named, ?_⟩
      rw [kept, if_neg]
      intro gone
      obtain ⟨other, inside, same, -, object', named'⟩ := exists_of_mem_lost gone
      simp [← same, within.find_of_unmixed unmixed inside named'] at fresh

end HandedWithin

namespace Route

variable {route : Route} {ledger entered final : Ledger} {w held w' : World}
variable {handing : Handing} {earlier later handings : List Handing} {table base : HandleTable}

/-- The handings of a row up to one of them, and from there on. -/
theorem HandsEach.split (each : route.HandsEach ledger (earlier ++ handing :: later) w final w') :
    ∃ entered held, route.HandsEach ledger earlier w entered held ∧
      route.HandsEach entered (handing :: later) held final w' := by
  induction earlier generalizing ledger w with
  | nil => exact ⟨ledger, w, .nil, each⟩
  | cons first rest ih =>
    cases each with
    | cons first after =>
      obtain ⟨entered, held, before, behind⟩ := ih after
      exact ⟨entered, held, .cons first before, behind⟩

/-- The ledger of a row of handings has the handles that the sender loses. -/
theorem HandsEach.moved_eq (each : route.HandsEach ledger handings w final w') :
    final.moved = ledger.moved ++ lost handings := by
  induction each with
  | nil => simp [lost]
  | @cons ledger _ _ moving handle _ _ w _ _ first _ ih =>
    rw [ih]
    cases first with
    | unresolved named => simp [lost, named]
    | @issued object _ _ _ issued named =>
      by_cases moves : (moving && !handle.isPseudo) = true
      · rw [ledger.moved_enter_of_moves issued moves]
        simp_all [lost]
      · rw [ledger.moved_enter_of_stays issued moves]
        simp_all [lost]

/-- What is handed over for a handle it names when its turn comes. -/
theorem HandsEach.find?_of_cons {object : ObjectRef}
    (each : route.HandsEach ledger (handing :: later) w final w')
    (named : handing.object = some object) : route.find? w handing.handle = some object := by
  cases each with
  | cons first =>
    rw [Route.named] at named
    split at named
    · cases named
    · exact named

variable (shared : route.senderTable = route.receiverTable)
include shared

/-- Inside of a process a handle names what it named in the beginning, or what one of its value was
issued for since. -/
theorem HandsEach.find?_eq_some_iff (each : route.HandsEach .empty handings w final w')
    (found : w.table? route.receiverTable = some base) (wf : base.WellFormed) {handle : Handle}
    {object : ObjectRef} : route.find? w' handle = some object ↔ route.find? w handle = some object ∨
      ∃ other ∈ handings, other.object = some object ∧ other.issued = handle := by
  obtain ⟨table, there, extended⟩ := each.extends found wf.extends
  rw [List.nil_append] at extended
  have granted : (handle, object) ∈ handings.filterMap Handing.grant
      ↔ ∃ other ∈ handings, other.object = some object ∧ other.issued = handle := by
    simp [Handing.grant, and_comm]
  rw [← granted]
  unfold find?
  -- what is issued is neither a pseudo-handle nor zero, so only a look into the table can find it
  cases pseudo : handle.pseudo? with
  | some kind =>
    have unissued : (handle, object) ∉ handings.filterMap Handing.grant := by
      intro mem
      have real := (extended.real_of_mem mem).2
      simp [Handle.isPseudo, pseudo] at real
    rw [or_iff_left unissued]
    cases kind with
    | currentThread => rfl
    | currentProcess =>
      obtain ⟨f, processes⟩ := each.get?_processes route.sender.owner
      rw [processes, Option.map_map]
      rfl
  | none =>
    dsimp only
    split
    · rw [shared, found, there, Option.bind_some, Option.bind_some]
      exact extended.resolve_eq_some_iff
    · next zero =>
      have unissued : (handle, object) ∉ handings.filterMap Handing.grant := by
        intro mem
        have real := (extended.real_of_mem mem).1
        simp [Handle.isValid, real] at zero
      rw [or_iff_left unissued]

/-- Inside of a process what was handed over is named by its handle for as long as nothing is closed. -/
theorem HandsEach.find?_of_mem (each : route.HandsEach .empty handings w final w')
    (found : w.table? route.receiverTable = some base) (wf : base.WellFormed)
    (mem : handing ∈ handings) {object : ObjectRef} (named : handing.object = some object) :
    route.find? w' handing.handle = some object := by
  obtain ⟨earlier, later, rfl⟩ := List.append_of_mem mem
  obtain ⟨entered, mid, before, behind⟩ := each.split
  rcases (before.find?_eq_some_iff shared found wf).1 (behind.find?_of_cons named)
    with old | ⟨other, inside, granted⟩
  · exact (each.find?_eq_some_iff shared found wf).2 (.inl old)
  · exact (each.find?_eq_some_iff shared found wf).2
      (.inr ⟨other, List.mem_append_left _ inside, granted⟩)

/-- What is issued named nothing at the sender before. -/
theorem HandsEach.find?_issued {object : ObjectRef}
    (each : route.HandsEach ledger handings w final w')
    (found : w.table? route.receiverTable = some base) (wf : base.WellFormed)
    (mem : handing ∈ handings) (named : handing.object = some object) :
    route.find? w handing.issued = none := by
  obtain ⟨table, -, extended⟩ := each.extends found wf.extends
  rw [List.nil_append] at extended
  have granted := Handing.mem_grants mem named
  have real : handing.issued.pseudo? = none := by
    simpa [Handle.isPseudo] using (extended.real_of_mem granted).2
  have fresh := extended.fresh _ granted
  simp [find?, real, shared, found, fresh]

/-- A handle that was issued is only closed again by a later handle of its value that is moved. -/
theorem HandsEach.moved_later {object : ObjectRef}
    (each : route.HandsEach .empty (earlier ++ handing :: later) w final w')
    (found : w.table? route.receiverTable = some base) (wf : base.WellFormed)
    (named : handing.object = some object) (gone : handing.issued ∈ final.moved) :
    ∃ other ∈ later, other.moving = true ∧ other.handle = handing.issued := by
  obtain ⟨entered, mid, before, behind⟩ := each.split
  obtain ⟨table, there, extended⟩ := before.extends found wf.extends
  have fresh := behind.find?_issued shared there extended.wellFormed List.mem_cons_self named
  have moved : final.moved = lost (earlier ++ handing :: later) := each.moved_eq
  obtain ⟨other, inside, same, moving, object', moves⟩ :=
    HandedWithin.exists_of_mem_lost (moved ▸ gone)
  rw [← same] at fresh
  rcases List.mem_append.1 inside with early | late
  · simp [before.find?_of_mem shared found wf early moves] at fresh
  · rcases List.mem_cons.1 late with rfl | late
    · simp [behind.find?_of_cons moves] at fresh
    · exact ⟨other, late, moving, same⟩

/-- What a handing comes to inside of a process, once the handles that are lost are closed. -/
theorem HandsEach.handedWithin (each : route.HandsEach .empty handings w final held)
    (found : w.table? route.receiverTable = some base) (wf : base.WellFormed)
    (there : held.table? route.receiverTable = some table) {last : HandleTable}
    (closed : ∀ handle, last.resolve handle
      = if handle ∈ final.moved then none else table.resolve handle) :
    HandedWithin (route.find? w) last handings where
  named := by
    rintro earlier handing later rfl object
    obtain ⟨entered, mid, before, behind⟩ := each.split
    rw [← before.find?_eq_some_iff shared found wf]
    have moved : entered.moved = lost earlier := before.moved_eq
    cases behind with
    | @cons _ _ _ _ handle _ _ _ _ _ first =>
      show route.named mid entered handle = some object ↔ _
      simp [Route.named, moved]
  unnamed := fun _ mem => each.issued_of_none mem
  issued := by
    intro handing mem object named
    obtain ⟨next, there', extended⟩ := each.extends found wf.extends
    obtain rfl := Option.some.inj (there.symm.trans there')
    rw [List.nil_append] at extended
    have granted := Handing.mem_grants mem named
    have moved : final.moved = lost handings := each.moved_eq
    refine ⟨(extended.real_of_mem granted).1, each.find?_issued shared found wf mem named, ?_⟩
    rw [closed, moved, extended.named _ granted]

end Route

variable {route : Route} {process : Process} {source target : Key Thread}
variable {sourceAddress targetAddress : UInt32}

/-- **Inside of a process handles are resolved one after the other.** A command that is delivered
between two threads of one process has its handles resolved as in the beginning exactly if none of
them has the value that was issued for an earlier one. -/
theorem deliver_within_process {s : Situation} {machine : Machine} (reachable : s.Reachable)
    (sends : s.machine.world.threads.get? source = some route.sender)
    (receives : s.machine.world.threads.get? target = some route.receiver)
    (same : route.sender.owner = route.receiver.owner)
    (owner : s.machine.world.processes.get? route.sender.owner = some process)
    (delivered : (deliver source target sourceAddress targetAddress).run s.machine
      = .ok (.ok ()) machine) :
    ∃ handings last, machine.world.processes.get? route.sender.owner = some last ∧
      survey (process.memory.regionAt sourceAddress) = .ok (handings.map Handing.sent) ∧
      survey (last.memory.regionAt targetAddress) = .ok (handings.map Handing.received) ∧
      HandedWithin (route.find? s.machine.world) last.handles handings ∧
      ((∀ handing ∈ handings,
          handing.Faithful (route.find? s.machine.world) last.handles) ↔ Unmixed handings) := by
  have shared : route.senderTable = route.receiverTable := congrArg TableKey.process same
  have found : s.machine.world.table? route.receiverTable = some process.handles :=
    World.table?_receiverTable (same ▸ owner)
  have wf := reachable.sound.tables _ _ found
  have memory : s.machine.world.memory? route.sender.owner = some process.memory := by
    simp [World.memory?, owner]
  obtain ⟨new, ledger, held, arrives⟩ :=
    (delivers_of_ok delivered).arrives sends receives memory (same ▸ memory)
  obtain ⟨handings, sent, received, each⟩ := arrives.walks.handsEach
  obtain ⟨table, there, -⟩ := each.extends found wf.extends
  obtain ⟨next, kept, closed⟩ := arrives.closed table (shared ▸ there)
  obtain ⟨written, stands, -, -, region⟩ := arrives.readBack
  rw [← same] at stands
  obtain ⟨last, lasts, rfl⟩ := Option.map_eq_some_iff.1 stands
  obtain rfl : last.handles = next := by
    simpa [World.table?, Route.senderTable, lasts] using kept
  have within := each.handedWithin shared found wf there closed
  exact ⟨handings, last, lasts, sent, region ▸ received, within, within.faithful_iff⟩

/-- A process with two threads and a handle to an event. A command at the beginning of its memory
moves the handle and then one of the value that is issued for it. -/
def Situation.chaining : Situation :=
  performAll [.createProcess "process", .createThread ⟨0⟩ "sender", .createThread ⟨0⟩ "receiver",
    .createEvent "event" .oneShot, .create (.process ⟨0⟩) ⟨⟨0⟩, ⟨4⟩⟩,
    .runGuest ⟨0⟩ ((AddressSpace.empty.map 0 4096).setWords 0 [0x10003, 0x4000010, 1, 0x8002])]

namespace Situation

theorem chaining_delivers : ∃ machine last,
    (deliver ⟨0⟩ ⟨1⟩ 0 0x100).run chaining.machine = .ok (.ok ()) machine ∧
      machine.world.processes.get? ⟨0⟩ = some last ∧
      last.memory.regionAt 0x100 = [0x4000010, 0x8002, 0x10003] := by
  have arrives : (Effect.runFrom (deliver ⟨0⟩ ⟨1⟩ 0 0x100).run chaining.machine).map
      (fun (outcome, machine) =>
        (outcome, (machine.world.processes.get? ⟨0⟩).map fun last => last.memory.regionAt 0x100))
      = .ok (.ok (), some [0x4000010, 0x8002, 0x10003]) := by decide +kernel
  obtain ⟨_, machine, delivered, read⟩ := exists_of_runFrom arrives
  obtain ⟨rfl, arrived⟩ := Prod.mk.inj read
  obtain ⟨last, lasts, region⟩ := Option.map_eq_some_iff.1 arrived
  exact ⟨machine, last, delivered, lasts, region⟩

theorem reachable_chaining : chaining.Reachable := reachable_performAll _

theorem chaining_parties : ∃ (route : Route) (process : Process),
    chaining.machine.world.threads.get? ⟨0⟩ = some route.sender ∧
      chaining.machine.world.threads.get? ⟨1⟩ = some route.receiver ∧
      route.sender.owner = ⟨0⟩ ∧ route.receiver.owner = ⟨0⟩ ∧
      chaining.machine.world.processes.get? route.sender.owner = some process ∧
      process.memory.regionAt 0 = [0x4000010, 1, 0x8002] ∧
      route.find? chaining.machine.world ⟨0x8002⟩ = none :=
  ⟨⟨_, _⟩, _, rfl, rfl, rfl, rfl, rfl, by decide +kernel, by decide +kernel⟩

end Situation

theorem survey_two_moved (first second : UInt32) :
    survey [0x4000010, first, second] = .ok [(true, ⟨first⟩), (true, ⟨second⟩)] := by
  have decoded : Descriptor.decode 0x4000010 = .ok (.moveHandle 2) := by decide
  have words : [0x4000010, first, second] = 0x4000010 :: ([first, second] ++ []) := rfl
  rw [words, survey_cons decoded rfl, survey_nil]
  rfl

/-- The second handle named nothing in the beginning, and the first does not last. -/
theorem deliver_within_process_chaining : ∃ (machine : Machine) (handings : List Handing),
    (deliver ⟨0⟩ ⟨1⟩ 0 0x100).run Situation.chaining.machine = .ok (.ok ()) machine ∧
      handings.map Handing.sent = [(true, ⟨1⟩), (true, ⟨0x8002⟩)] ∧
      handings.map Handing.received = [(true, ⟨0x8002⟩), (true, ⟨0x10003⟩)] := by
  obtain ⟨route, process, sends, receives, sender, receiver, owner, region, -⟩ :=
    Situation.chaining_parties
  obtain ⟨machine, last, delivered, lasts, arrived⟩ := Situation.chaining_delivers
  obtain ⟨handings, last', lasts', sent, received, -⟩ :=
    deliver_within_process Situation.reachable_chaining sends receives
      (sender.trans receiver.symm) owner delivered
  rw [sender, lasts, Option.some.injEq] at lasts'
  subst lasts'
  rw [region, survey_two_moved] at sent
  rw [arrived, survey_two_moved] at received
  exact ⟨machine, handings, delivered, (Except.ok.inj sent).symm, (Except.ok.inj received).symm⟩

/-- Handles are not always resolved as in the beginning. -/
theorem exists_unfaithful_handing : ¬ ∀ (s : Situation) (machine : Machine)
    (source target : Key Thread) (route : Route) (process last : Process)
    (sourceAddress targetAddress : UInt32) (handings : List Handing), s.Reachable →
    s.machine.world.threads.get? source = some route.sender →
    s.machine.world.threads.get? target = some route.receiver →
    route.sender.owner = route.receiver.owner →
    s.machine.world.processes.get? route.sender.owner = some process →
    (deliver source target sourceAddress targetAddress).run s.machine = .ok (.ok ()) machine →
    machine.world.processes.get? route.sender.owner = some last →
    survey (process.memory.regionAt sourceAddress) = .ok (handings.map Handing.sent) →
    survey (last.memory.regionAt targetAddress) = .ok (handings.map Handing.received) →
      ∀ handing ∈ handings, handing.Faithful (route.find? s.machine.world) last.handles := by
  intro claim
  obtain ⟨route, process, sends, receives, sender, receiver, owner, region, unnamed⟩ :=
    Situation.chaining_parties
  obtain ⟨machine, last, delivered, lasts, arrived⟩ := Situation.chaining_delivers
  let second : Handing := ⟨true, ⟨0x8002⟩, none, ⟨0x10003⟩⟩
  have faithful := claim _ _ _ _ route process last _ _ [⟨true, ⟨1⟩, none, ⟨0x8002⟩⟩, second]
    Situation.reachable_chaining sends receives (sender.trans receiver.symm) owner delivered
    (sender ▸ lasts) (by rw [region, survey_two_moved]; rfl) (by rw [arrived, survey_two_moved]; rfl)
  obtain zero | ⟨object, named, -⟩ := faithful second (by simp)
  · exact absurd zero (by decide)
  · exact absurd (unnamed.symm.trans named) (by simp)

end MicrokernelIpc
