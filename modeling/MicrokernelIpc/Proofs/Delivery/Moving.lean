import MicrokernelIpc.Proofs.Delivery.Marshalling
import MicrokernelIpc.Proofs.Delivery.RoundTrip
import MicrokernelIpc.Proofs.Delivery.SharedTable

/-!
# Moving handles

A command whose region does nothing but move handles, each of which is there and none twice, goes
from one process to another. The receiver gets a handle for each object, the sender loses those that
it sent, and as many references to each object stand in the world as before.
-/

namespace MicrokernelIpc

/-- The words of a region whose descriptors all move handles: its descriptors and the handles that
they carry. -/
inductive Moves : List UInt32 → List UInt32 → List Handle → Prop
  | nil : Moves [] [] []
  | cons {word : UInt32} {count : Nat} {payload rest marks : List UInt32} {handles : List Handle}
      (decoded : Descriptor.decode word = .ok (.moveHandle count)) (length : payload.length = count)
      (others : Moves marks rest handles) :
      Moves (word :: marks) (word :: (payload ++ rest)) (payload.map Handle.mk ++ handles)

theorem Moves.survey {marks words : List UInt32} {handles : List Handle}
    (moves : Moves marks words handles) :
    MicrokernelIpc.survey words = .ok (handles.map fun handle => (true, handle)) := by
  induction moves with
  | nil => exact survey_nil
  | cons decoded length _ ih =>
    rw [survey_cons decoded length, ih, List.map_append, List.map_map]
    rfl

/-! ## Handings of handles that are there -/

section

variable {entries : List (Handle × ObjectRef)} {handings : List Handing}

/-- Handles that are there, none of them twice, name what they name until all are moved. -/
theorem names_of_distinct {find : Handle → Option ObjectRef} {gone : List Handle}
    (found : ∀ entry ∈ entries, find entry.1 = some entry.2)
    (distinct : (gone ++ entries.map Prod.fst).Nodup)
    (real : ∀ entry ∈ entries, entry.1.isPseudo = false) :
    names find gone (entries.map fun entry => (true, entry.1))
      = entries.map fun entry => some entry.2 := by
  induction entries generalizing gone with
  | nil => rfl
  | cons entry rest ih =>
    have absent : gone.contains entry.1 = false := by
      rw [Bool.eq_false_iff, ne_eq, List.contains_iff_mem]
      exact fun mem => List.disjoint_of_nodup_append distinct mem List.mem_cons_self
    rw [List.map_cons, List.append_cons] at distinct
    have later := ih (fun other mem => found other (List.mem_cons_of_mem _ mem)) distinct
      fun other mem => real other (List.mem_cons_of_mem _ mem)
    rw [List.map_cons, names, absent, if_neg Bool.false_ne_true, found entry List.mem_cons_self]
    simp only [real entry List.mem_cons_self, Bool.not_false, Bool.and_self, if_true, later,
      List.map_cons]

variable (named : handings.map Handing.object = entries.map fun entry => some entry.2)
include named

theorem grants_of_named :
    (handings.filterMap Handing.grant).map Prod.fst = handings.map Handing.issued ∧
      (handings.filterMap Handing.grant).map Prod.snd = entries.map Prod.snd := by
  induction handings generalizing entries with
  | nil =>
    obtain rfl : entries = [] := List.map_eq_nil_iff.1 named.symm
    exact ⟨rfl, rfl⟩
  | cons handing rest ih =>
    cases entries with
    | nil => cases named
    | cons entry entries =>
      obtain ⟨first, others⟩ := List.cons.inj named
      obtain ⟨issued, objects⟩ := ih others
      simp only [List.filterMap_cons, Handing.grant, first, Option.map_some, List.map_cons]
      exact ⟨congrArg _ issued, congrArg _ objects⟩

theorem lost_of_named (sent : handings.map Handing.sent = entries.map fun entry => (true, entry.1))
    (real : ∀ entry ∈ entries, entry.1.isPseudo = false) :
    lost handings = entries.map Prod.fst := by
  induction handings generalizing entries with
  | nil =>
    obtain rfl : entries = [] := List.map_eq_nil_iff.1 sent.symm
    rfl
  | cons handing rest ih =>
    cases entries with
    | nil => cases sent
    | cons entry entries =>
      obtain ⟨first, others⟩ := List.cons.inj named
      obtain ⟨same, sents⟩ := List.cons.inj sent
      obtain ⟨moving, handle⟩ := Prod.mk.inj same
      have later := ih others sents fun other mem => real other (List.mem_cons_of_mem _ mem)
      have moves : (handing.moving && handing.object.isSome && !handing.handle.isPseudo) = true := by
        simp [show handing.moving = true from moving, first, handle, real entry List.mem_cons_self]
      rw [lost, List.filterMap_cons, if_pos moves, handle]
      exact congrArg (entry.1 :: ·) later

end

namespace Route

variable {route : Route} {ledger final : Ledger} {w w' : World} {handings : List Handing}
variable {marks words new : List UInt32} {handles : List Handle} {table : HandleTable}

/-- A region of moved handles stays one when it is walked, with the handles that are issued. -/
theorem Walks.moves (walks : route.Walks ledger words w new final w')
    (moves : Moves marks words handles) :
    ∃ handings, handings.map Handing.sent = handles.map (fun handle => (true, handle)) ∧
      Moves marks new (handings.map Handing.issued) ∧ route.HandsEach ledger handings w final w' := by
  induction moves generalizing ledger new w with
  | nil =>
    cases walks with
    | nil => exact ⟨[], rfl, .nil, .nil⟩
  | @cons word count payload rest marks handles decoded length others ih =>
    generalize same : word :: (payload ++ rest) = row at walks
    cases walks with
    | nil => cases same
    | @cons _ _ _ _ _ _ new _ after _ _ _ decoded' length' first later =>
      obtain ⟨rfl, tail⟩ := List.cons.inj same
      obtain rfl := Except.ok.inj (decoded.symm.trans decoded')
      obtain ⟨rfl, rfl⟩ := List.append_inj tail (length.trans length'.symm)
      obtain ⟨handings, sent, received, each⟩ := first.handsEach
      obtain ⟨more, sents, moved, after⟩ := ih later
      have issued : handings.map Handing.issued = new.map Handle.mk := by
        have handles := congrArg (List.map Prod.snd) received
        rw [List.map_map] at handles
        exact handles.symm.trans List.map_map
      refine ⟨handings ++ more, ?_, ?_, each.append after⟩
      · rw [List.map_append, ← sent, sents, List.map_append, List.map_map]
        rfl
      · rw [List.map_append, issued]
        exact .cons decoded (first.length length') moved

/-- With each handle that is issued there is one reference more. -/
theorem HandsEach.count (each : route.HandsEach ledger handings w final w')
    (found : w.table? route.receiverTable = some table) (wf : table.WellFormed) (ref : ObjectRef) :
    w'.count ref = w.count ref + ((handings.filterMap Handing.grant).map Prod.snd).count ref := by
  induction each generalizing table with
  | nil => rfl
  | cons first _ ih =>
    cases first with
    | unresolved named =>
      rw [ih found wf, List.filterMap_cons]
      simp only [Handing.grant, named, Option.map_none]
    | @issued object mid _ next _ named retained found' allocated =>
      obtain rfl := Option.some.inj (found.symm.trans found')
      have same := (World.table?_of_retain? retained).trans found
      obtain ⟨index, -, -, fills⟩ := wf.fills_of_allocate allocated
      have moved := World.count_setTable same next ref
      have more := fills.count_objects ref
      rw [World.count_of_retain? retained] at moved
      rw [ih (World.table?_setTable_self same next) (wf.of_allocate allocated), List.filterMap_cons]
      simp only [Handing.grant, named, Option.map_some, List.map_cons, List.count_cons, beq_iff_eq]
      omega

end Route

/-! ## Closing what was moved -/

namespace World

variable {w w' : World} {key : TableKey} {entries : List (Handle × ObjectRef)}
variable {table : HandleTable}

/-- Handles that are there, none of them twice, are taken out when they are closed, and with each
goes a reference. -/
theorem ClosesAll.sheds (closes : ClosesAll key (entries.map Prod.fst) w w')
    (found : w.table? key = some table)
    (named : ∀ entry ∈ entries, table.resolve entry.1 = some entry.2)
    (distinct : (entries.map Prod.fst).Nodup) :
    ∃ last, w'.table? key = some last ∧ table.Sheds entries last ∧
      ∀ ref, w'.count ref + (entries.map Prod.snd).count ref = w.count ref := by
  induction entries generalizing w table with
  | nil =>
    cases closes with
    | nil => exact ⟨table, found, .nil, fun _ => rfl⟩
  | cons entry entries ih =>
    obtain ⟨absent, distinct⟩ := List.nodup_cons.1 distinct
    have here := named entry List.mem_cons_self
    cases closes with
    | cons first after =>
      cases first with
      | unknown there unresolved =>
        obtain rfl := Option.some.inj (found.symm.trans there)
        cases here.symm.trans (HandleTable.take_eq_none_iff.1 unresolved)
      | @closed _ shrunk object _ there taken released =>
        obtain rfl := Option.some.inj (found.symm.trans there)
        have drops := HandleTable.drops_of_take taken
        obtain rfl := Option.some.inj (here.symm.trans drops.named)
        obtain ⟨-, generation, empties⟩ := HandleTable.empties_of_take taken
        have still := (table?_of_release? released).trans (table?_setTable_self found shrunk)
        have others : ∀ other ∈ entries, shrunk.resolve other.1 = some other.2 := by
          intro other mem
          rw [drops.resolve, if_neg, named other (List.mem_cons_of_mem _ mem)]
          exact fun same => absent (same ▸ List.mem_map_of_mem mem)
        obtain ⟨last, there, sheds, counts⟩ := ih after still others distinct
        refine ⟨last, there, .cons taken sheds, fun ref => ?_⟩
        have moved := count_setTable found shrunk ref
        have fewer := empties.count_objects ref
        have later := counts ref
        rw [count_of_release? released] at later
        simp only [List.map_cons, List.count_cons, beq_iff_eq]
        omega

end World

/-! ## From buffer to buffer -/

/-- The command at an address says what one elsewhere says, but for the handles that it moves. -/
structure AddressSpace.Repeats (space : AddressSpace) (address : UInt32) (other : AddressSpace)
    (elsewhere : UInt32) (marks : List UInt32) (handles : List Handle) : Prop where
  header : space.headerAt address = other.headerAt elsewhere
  plain : space.plainAt address = other.plainAt elsewhere
  region : Moves marks (space.regionAt address) handles

/-- A command that moves handles stands in the sender's buffer. The handles are there, none of them
twice, and the receiver has room for as many. -/
structure Route.Ready (route : Route) (source target : Key Thread) (marks : List UInt32)
    (entries : List (Handle × ObjectRef)) (sender receiver : Process) (w : World) : Prop where
  sends : w.threads.get? source = some route.sender
  receives : w.threads.get? target = some route.receiver
  sending : w.processes.get? route.sender.owner = some sender
  receiving : w.processes.get? route.receiver.owner = some receiver
  stores : sender.memory.checkMapped route.sender.commandBufferAddress
    (CommandBuffer.size * 4) = .ok ()
  loads : receiver.memory.checkMapped route.receiver.commandBufferAddress
    (CommandBuffer.size * 4) = .ok ()
  fits : (sender.memory.headerAt route.sender.commandBufferAddress).totalSize ≤ CommandBuffer.size
  moves : Moves marks (sender.memory.regionAt route.sender.commandBufferAddress)
    (entries.map Prod.fst)
  distinct : (entries.map Prod.fst).Nodup
  named : ∀ entry ∈ entries, sender.handles.resolve entry.1 = some entry.2
  room : receiver.handles.live + entries.length ≤ HandleTable.maxCount

/-- A command that moves handles has arrived in the receiver's buffer. What it issued names the
objects of what it took from the sender. -/
structure Route.Crossed (route : Route) (marks : List UInt32)
    (entries issued : List (Handle × ObjectRef)) (sender receiver sent received : Process)
    (w w' : World) : Prop where
  threads : w'.threads = w.threads
  sending : w'.processes.get? route.sender.owner = some sent
  receiving : w'.processes.get? route.receiver.owner = some received
  memory : sent.memory = sender.memory
  mapped : received.memory.checkMapped route.receiver.commandBufferAddress
    (CommandBuffer.size * 4) = .ok ()
  repeats : received.memory.Repeats route.receiver.commandBufferAddress sender.memory
    route.sender.commandBufferAddress marks (issued.map Prod.fst)
  objects : issued.map Prod.snd = entries.map Prod.snd
  sheds : sender.handles.Sheds entries sent.handles
  gains : receiver.handles.Extends issued received.handles
  counts : ∀ ref, w'.count ref = w.count ref

section

variable {route : Route} {source target : Key Thread} {marks : List UInt32} {w w' : World}
variable {entries : List (Handle × ObjectRef)} {sender receiver : Process}

/-- A handle that is in the sender's table stands for what it names there. -/
theorem Route.find?_of_resolve {handle : Handle} {object : ObjectRef}
    (sending : w.processes.get? route.sender.owner = some sender) (wf : sender.handles.WellFormed)
    (named : sender.handles.resolve handle = some object) :
    route.find? w handle = some object ∧ handle.isPseudo = false := by
  have live : sender.handles.isLive handle := by simp [HandleTable.isLive, named]
  obtain ⟨valid, real⟩ := wf.of_isLive live
  have pseudo : handle.pseudo? = none := by simpa [Handle.isPseudo] using real
  refine ⟨?_, real⟩
  simp [find?, pseudo, Handle.isValid, valid, World.table?, senderTable, sending, named]

theorem World.Writes.count_eq {key : Key Process} {address : UInt32} {words : List UInt32}
    (writes : w.Writes key address words (.ok ()) w') (ref : ObjectRef) :
    w'.count ref = w.count ref := by
  cases writes with
  | @written process found =>
    have same : (w.setProcess key { process with
        memory := process.memory.setWords address.toNat words }).references 0 ref
          = w.references 0 ref := by
      refine references_setProcess found ?_ ref
      rfl
    simpa only [references, Multiset.count_zero, Nat.zero_add] using same

variable (ready : route.Ready source target marks entries sender receiver w)
variable (wf : ∀ key table, w.table? key = some table → table.WellFormed)
include ready wf

/-- The handles of a command that is ready stand for what they name. -/
theorem Route.Ready.found : ∀ entry ∈ entries,
    route.find? w entry.1 = some entry.2 ∧ entry.1.isPseudo = false := by
  have table := wf route.senderTable sender.handles (World.table?_of_process ready.sending)
  exact fun entry mem => find?_of_resolve ready.sending table (ready.named entry mem)

theorem Route.Ready.names_eq : names (route.find? w) [] (entries.map fun entry => (true, entry.1))
    = entries.map fun entry => some entry.2 :=
  names_of_distinct (fun entry mem => (ready.found wf entry mem).1) ready.distinct
    fun entry mem => (ready.found wf entry mem).2

variable (apart : route.sender.owner ≠ route.receiver.owner)
include apart

theorem Route.Ready.crossed (delivers : Delivers source target route.sender.commandBufferAddress
      route.receiver.commandBufferAddress w (.ok ()) w') :
    ∃ issued sent received, route.Crossed marks entries issued sender receiver sent received w w' := by
  have tables := senderTable_ne apart
  have outbox : w.table? route.senderTable = some sender.handles :=
    World.table?_of_process ready.sending
  have inbox := World.table?_receiverTable ready.receiving
  have sending := World.memory?_of_process ready.sending
  have receiving := World.memory?_of_process ready.receiving
  obtain ⟨new, ledger, held, arrives⟩ :=
    delivers.arrives ready.sends ready.receives sending receiving
  obtain ⟨handings, sent, moves, each⟩ := arrives.walks.moves ready.moves
  rw [List.map_map] at sent
  have named : handings.map Handing.object = entries.map fun entry => some entry.2 := by
    have told := each.names_eq tables []
    rw [List.append_nil, names, List.append_nil, sent] at told
    exact told.symm.trans (ready.names_eq wf)
  obtain ⟨issued, objects⟩ := grants_of_named named
  -- the receiver's table gets the handles that were issued, and keeps them
  obtain ⟨table, there, extended⟩ := each.extends inbox (wf _ _ inbox).extends
  rw [← arrives.others _ tables] at there
  obtain ⟨received, receives, rfl⟩ := Option.map_eq_some_iff.1 there
  have memory := Option.some.inj
    ((congrArg (Option.map Process.memory) receives).symm.trans arrives.memory)
  obtain ⟨_, reads, header, plain, region⟩ := arrives.readBack
  obtain rfl := Option.some.inj ((congrArg (Option.map Process.memory) receives).symm.trans reads)
  -- the sender's loses the handles that it sent
  obtain ⟨written, writes, closes⟩ := arrives.commits
  have moved : ledger.moved = entries.map Prod.fst :=
    each.moved_eq.trans (lost_of_named named sent fun entry mem => (ready.found wf entry mem).2)
  rw [moved] at closes
  have held := ((writes.table?_eq _).trans (each.table?_of_ne tables.symm)).trans outbox
  obtain ⟨table, left, sheds, counts⟩ := closes.sheds held ready.named ready.distinct
  obtain ⟨sent, sends, rfl⟩ := Option.map_eq_some_iff.1 left
  obtain ⟨other, sends', receives', confines⟩ := delivers.confines wf
  obtain rfl := Route.eq_of_threads ready.sends ready.receives sends' receives'
  have kept := (confines.memories _ apart.symm).trans sending
  refine ⟨_, sent, received, arrives.threads, sends, receives, ?_, ?_, ⟨header, plain, ?_⟩, objects,
    sheds, extended, fun ref => ?_⟩
  · exact Option.some.inj ((congrArg (Option.map Process.memory) sends).symm.trans kept)
  · rw [memory, AddressSpace.checkMapped_setWords]
    exact ready.loads
  · rw [region, issued]
    exact moves
  · have more := each.count inbox (wf _ _ inbox) ref
    have fewer := counts ref
    rw [writes.count_eq, more, objects] at fewer
    omega

end

/-- A command that is ready arrives. -/
theorem leads_deliverBetween_of_ready {route : Route} {source target : Key Thread}
    {marks : List UInt32} {entries : List (Handle × ObjectRef)} {sender receiver : Process}
    {w past : World} {inserted : Nat} {held : Multiset ObjectRef}
    (ready : route.Ready source target marks entries sender receiver w)
    (apart : route.sender.owner ≠ route.receiver.owner)
    (sound : World.Sound True past inserted held w) :
    Leads w (deliverBetween source target).run
      (fun outcome next => outcome = .ok () ∧ ∃ issued sent received,
        route.Crossed marks entries issued sender receiver sent received w next)
      fun _ => False := by
  have inbox := sound.tables _ _ (World.table?_receiverTable ready.receiving)
  have surveyed := ready.moves.survey
  rw [List.map_map] at surveyed
  have promised : forecast route w sender receiver route.sender.commandBufferAddress
      route.receiver.commandBufferAddress = .ok () := by
    refine forecast_eq_ok ready.fits ready.stores surveyed ?_ ready.loads
    refine (Nat.add_le_add_left (List.countP_le_length.trans_eq ?_) _).trans ready.room
    exact (congrArg List.length (ready.names_eq sound.tables)).trans (List.length_map _)
  have delivers := leads_deliverBetween sound ready.sends ready.receives (by simp [ready.sending])
    (by simp [ready.receiving])
  refine delivers.mono (fun outcome next delivers => ?_) fun _ h => h
  obtain rfl := (delivers.outcome_eq apart ready.sends ready.receives ready.sending ready.receiving
    inbox).trans promised
  exact ⟨rfl, ready.crossed sound.tables apart delivers⟩

end MicrokernelIpc
