import MicrokernelIpc.Delivery.Ledger
import MicrokernelIpc.Proofs.Delivery.Survey
import MicrokernelIpc.Proofs.Kernel.Calls

/-!
# What the handing over of handles does to the world

As for the calls on handles, each stage is described once by the ways it can end: a handle is
handed over, then the handles of a payload, then what an item of the region asks for, and then
the items in order. What holds before each handle is shown to hold all the way.
-/

namespace MicrokernelIpc

theorem Ledger.moved_enter_of_moves (ledger : Ledger) {handle : Handle} {moving : Bool}
    (issued : Handle) (moves : (moving && !handle.isPseudo) = true) :
    (ledger.enter issued handle moving).moved = ledger.moved ++ [handle] :=
  if_pos moves

theorem Ledger.moved_enter_of_stays (ledger : Ledger) {handle : Handle} {moving : Bool}
    (issued : Handle) (stays : ¬ (moving && !handle.isPseudo) = true) :
    (ledger.enter issued handle moving).moved = ledger.moved :=
  if_neg stays

namespace Route

/-- What a handle names at the sender. -/
def find? (route : Route) (w : World) (handle : Handle) : Option ObjectRef :=
  match handle.pseudo? with
  | some .currentThread => some route.sender.object
  | some .currentProcess => (w.processes.get? route.sender.owner).map Process.object
  | none =>
    if handle.isValid then (w.table? route.senderTable).bind fun table => table.resolve handle
    else none

/-- What handles name depends on the record of the sender's process and on its table. -/
theorem find?_congr {route : Route} {w w' : World}
    (record : (w'.processes.get? route.sender.owner).map Process.object
      = (w.processes.get? route.sender.owner).map Process.object)
    (table : w'.table? route.senderTable = w.table? route.senderTable) :
    route.find? w' = route.find? w := by
  funext handle
  rw [find?, find?, record, table]

/-- What is handed over for a handle: nothing for one that was moved before. -/
def named (route : Route) (w : World) (ledger : Ledger) (handle : Handle) : Option ObjectRef :=
  if ledger.moved.contains handle then none else route.find? w handle

/-! ## The ways a stage can end -/

/-- How the handing over of a handle ends. -/
inductive HandsOver (route : Route) (moving : Bool) (ledger : Ledger) (handle : Handle)
    (w : World) : Except Ledger (UInt32 × Ledger) → World → Prop
  | unresolved (named : route.named w ledger handle = none) :
      HandsOver route moving ledger handle w (.ok (0, ledger)) w
  | issued {object : ObjectRef} {held : World} {table next : HandleTable} {issued : Handle}
      (named : route.named w ledger handle = some object) (retained : w.retain? object = some held)
      (found : w.table? route.receiverTable = some table)
      (allocated : table.allocate object = some (issued, next)) :
      HandsOver route moving ledger handle w (.ok (issued.raw, ledger.enter issued handle moving))
        (held.setTable next route.receiverTable)
  | full {object : ObjectRef} {held w' : World} {table : HandleTable}
      (named : route.named w ledger handle = some object) (retained : w.retain? object = some held)
      (found : w.table? route.receiverTable = some table)
      (refused : table.allocate object = none) (released : held.release? object = some w') :
      HandsOver route moving ledger handle w (.error ledger) w'

/-- How the handing over of a row of handles ends. -/
inductive HandsOverAll (route : Route) (moving : Bool) :
    Ledger → List UInt32 → World → Except Ledger (List UInt32 × Ledger) → World → Prop
  | nil {ledger : Ledger} {w : World} : HandsOverAll route moving ledger [] w (.ok ([], ledger)) w
  | cons {ledger entered final : Ledger} {word new : UInt32} {rest words : List UInt32}
      {w held w' : World}
      (first : route.HandsOver moving ledger ⟨word⟩ w (.ok (new, entered)) held)
      (after : HandsOverAll route moving entered rest held (.ok (words, final)) w') :
      HandsOverAll route moving ledger (word :: rest) w (.ok (new :: words, final)) w'
  | full {ledger last : Ledger} {word : UInt32} {rest : List UInt32} {w w' : World}
      (first : route.HandsOver moving ledger ⟨word⟩ w (.error last) w') :
      HandsOverAll route moving ledger (word :: rest) w (.error last) w'
  | later {ledger entered last : Ledger} {word new : UInt32} {rest : List UInt32}
      {w held w' : World}
      (first : route.HandsOver moving ledger ⟨word⟩ w (.ok (new, entered)) held)
      (after : HandsOverAll route moving entered rest held (.error last) w') :
      HandsOverAll route moving ledger (word :: rest) w (.error last) w'

/-- How the carrying over of an item ends. -/
inductive Carries (route : Route) (buffer : CommandBuffer) (ledger : Ledger) (item : RegionItem)
    (w : World) : Except Ledger (CommandBuffer × Ledger) → World → Prop
  | handles {moving : Bool} {words : List UInt32} {final : Ledger} {w' : World}
      (announced : item.descriptor.moves? = some moving)
      (handed : route.HandsOverAll moving ledger (buffer.range (item.index + 1) item.stop) w
        (.ok (words, final)) w') :
      Carries route buffer ledger item w (.ok (buffer.splice (item.index + 1) words, final)) w'
  | full {moving : Bool} {last : Ledger} {w' : World}
      (announced : item.descriptor.moves? = some moving)
      (handed : route.HandsOverAll moving ledger (buffer.range (item.index + 1) item.stop) w
        (.error last) w') : Carries route buffer ledger item w (.error last) w'
  | callingPid {process : Process} (announced : item.descriptor = .callingPid)
      (found : w.processes.get? route.sender.owner = some process) :
      Carries route buffer ledger item w
        (.ok (buffer.splice (item.index + 1) [process.processId], ledger)) w
  | buffer (other : item.descriptor.moves? = none) (plain : item.descriptor ≠ .callingPid) :
      Carries route buffer ledger item w (.ok (buffer, ledger)) w

/-- How the carrying over of a region ends. -/
inductive CarriesAll (route : Route) :
    CommandBuffer → Ledger → List RegionItem → World →
      Except Ledger (CommandBuffer × Ledger) → World → Prop
  | nil {buffer : CommandBuffer} {ledger : Ledger} {w : World} :
      CarriesAll route buffer ledger [] w (.ok (buffer, ledger)) w
  | cons {buffer next : CommandBuffer} {ledger entered : Ledger} {item : RegionItem}
      {rest : List RegionItem} {w held w' : World}
      {outcome : Except Ledger (CommandBuffer × Ledger)}
      (first : route.Carries buffer ledger item w (.ok (next, entered)) held)
      (after : CarriesAll route next entered rest held outcome w') :
      CarriesAll route buffer ledger (item :: rest) w outcome w'
  | full {buffer : CommandBuffer} {ledger last : Ledger} {item : RegionItem}
      {rest : List RegionItem} {w w' : World}
      (first : route.Carries buffer ledger item w (.error last) w') :
      CarriesAll route buffer ledger (item :: rest) w (.error last) w'

/-- The faults that the handing over of a handle can meet in a world are allowed. -/
structure Safe (route : Route) (w : World) (stop : Fault → Prop) : Prop where
  sender : w.processes.get? route.sender.owner = none → stop .discarded
  receiver : w.processes.get? route.receiver.owner = none → stop .discarded
  objects : ∀ handle object, route.find? w handle = some object → w.refs? object = none →
    stop .discarded ∧ stop (.retainDestroyed object.id)

variable {route : Route} {w : World} {stop : Fault → Prop} {ledger : Ledger} {handle : Handle}

theorem senderTable_ne (apart : route.sender.owner ≠ route.receiver.owner) :
    route.senderTable ≠ route.receiverTable := by
  intro same
  exact apart (TableKey.process.inj same)

theorem Safe.of_all (all : ∀ fault, stop fault) : route.Safe w stop :=
  ⟨fun _ => all _, fun _ => all _, fun _ _ _ _ => ⟨all _, all _⟩⟩

theorem leads_resolve (safe : route.Safe w stop) :
    Leads w (route.resolve handle)
      (fun outcome next => (outcome = none ∧ route.find? w handle = none ∧ next = w) ∨
        ∃ object, outcome = some object ∧ route.find? w handle = some object ∧
          w.retain? object = some next) stop := by
  have objects := safe.objects handle
  unfold resolve
  unfold find? at objects ⊢
  cases pseudo : handle.pseudo? with
  | some kind =>
    cases kind with
    | currentThread =>
      simp only [pseudo, Option.some.injEq] at objects ⊢
      refine (leads_retain (objects _ rfl)).bind fun _ next retained => leads_pure (.inr ?_)
      exact ⟨_, rfl, rfl, retained⟩
    | currentProcess =>
      refine leads_processAt_bind (fun process found => ?_) safe.sender
      simp only [pseudo, found, Option.map_some, Option.some.injEq] at objects ⊢
      refine (leads_retain (objects _ rfl)).bind fun _ next retained => leads_pure (.inr ?_)
      exact ⟨_, rfl, rfl, retained⟩
  | none =>
    simp only [pseudo] at objects ⊢
    split
    · next valid =>
      simp only [valid, if_true] at objects
      refine (leads_acquireHandle (fun none => safe.sender ?_) fun table object found resolved =>
        objects object (by simp [found, resolved])).mono (fun outcome next acquires => ?_) fun _ h => h
      · simpa [World.table?, senderTable] using none
      · cases acquires with
        | unknown found unresolved => exact .inl ⟨rfl, by simp [found, unresolved], rfl⟩
        | acquired found resolved retained =>
          exact .inr ⟨_, rfl, by simp [found, resolved], retained⟩
    · exact leads_pure (.inl ⟨rfl, rfl, rfl⟩)

theorem leads_lookUp (safe : route.Safe w stop) :
    Leads w (route.lookUp ledger handle)
      (fun outcome next => (outcome = none ∧ route.named w ledger handle = none ∧ next = w) ∨
        ∃ object, outcome = some object ∧ route.named w ledger handle = some object ∧
          w.retain? object = some next) stop := by
  unfold lookUp named
  split
  · exact leads_pure (.inl ⟨rfl, rfl, rfl⟩)
  · exact leads_resolve safe

theorem leads_handOver {moving : Bool} (safe : route.Safe w stop) :
    Leads w (route.handOver moving ledger handle).run (route.HandsOver moving ledger handle w)
      stop := by
  unfold handOver
  rw [run_lift_bind]
  apply (leads_lookUp safe).bind
  intro found next resolved
  obtain ⟨rfl, none, rfl⟩ | ⟨object, rfl, some, retained⟩ := resolved
  · rw [run_lift_bind]
    exact leads_note_bind (leads_run_pure (.unresolved none))
  · rw [run_lift_bind]
    refine (leads_createHandle (fun none => ?_) fun table _ _ none =>
      (World.arena_of_retain? retained none).elim).bind fun outcome last creates => ?_
    · rw [World.table?_of_retain? retained] at none
      exact safe.receiver (by simpa [World.table?, receiverTable] using none)
    · cases creates with
      | issued found allocated =>
        rw [World.table?_of_retain? retained] at found
        exact leads_run_pure (.issued some retained found allocated)
      | full found refused released =>
        rw [World.table?_of_retain? retained] at found
        rw [run_lift_bind]
        exact leads_note_bind (leads_run_throw (.full some retained found refused released))

/-! ## What holds all the way -/

/-- What holds before a handle is handed over holds after it. -/
def Kept (route : Route) (inv : Ledger → World → Prop) : Prop :=
  ∀ moving ledger w handle word entered next, inv ledger w →
    route.HandsOver moving ledger handle w (.ok (word, entered)) next → inv entered next

/-- The receiver's table was full for a handle, and up to it everything held. -/
def Stopped (route : Route) (inv : Ledger → World → Prop) (last : Ledger) (w' : World) : Prop :=
  ∃ moving handle w, inv last w ∧ route.HandsOver moving last handle w (.error last) w'

theorem HandsOverAll.length {moving : Bool} {words new : List UInt32} {final : Ledger} {w' : World}
    (hands : route.HandsOverAll moving ledger words w (.ok (new, final)) w') :
    new.length = words.length := by
  generalize same : Except.ok (new, final) = outcome at hands
  induction hands generalizing new with
  | nil => cases same; rfl
  | cons first after ih =>
    cases same
    rw [List.length_cons, List.length_cons, ih rfl]
  | full => cases same
  | later => cases same

section

variable {inv : Ledger → World → Prop} {moving : Bool} {final last : Ledger} {w' : World}
variable {buffer after : CommandBuffer} {item : RegionItem}

theorem HandsOverAll.kept {words new : List UInt32} (kept : route.Kept inv) (start : inv ledger w)
    (hands : route.HandsOverAll moving ledger words w (.ok (new, final)) w') : inv final w' := by
  generalize same : Except.ok (new, final) = outcome at hands
  induction hands generalizing new with
  | nil => cases same; exact start
  | cons first after ih =>
    cases same
    exact ih (kept _ _ _ _ _ _ _ start first) rfl
  | full => cases same
  | later => cases same

theorem HandsOverAll.stopped {words : List UInt32} (kept : route.Kept inv) (start : inv ledger w)
    (hands : route.HandsOverAll moving ledger words w (.error last) w') :
    route.Stopped inv last w' := by
  generalize same : Except.error last = outcome at hands
  induction hands with
  | nil => cases same
  | cons => cases same
  | full first =>
    cases same
    cases first with
    | full named retained found refused released =>
      exact ⟨moving, _, _, start, .full named retained found refused released⟩
  | later first after ih =>
    cases same
    exact ih (kept _ _ _ _ _ _ _ start first) rfl

theorem Carries.kept (kept : route.Kept inv) (start : inv ledger w)
    (carries : route.Carries buffer ledger item w (.ok (after, final)) w') : inv final w' := by
  generalize same : Except.ok (after, final) = outcome at carries
  cases carries with
  | handles announced handed =>
    obtain ⟨-, rfl⟩ := Prod.mk.inj (Except.ok.inj same)
    exact handed.kept kept start
  | full => cases same
  | callingPid =>
    obtain ⟨-, rfl⟩ := Prod.mk.inj (Except.ok.inj same)
    exact start
  | buffer =>
    obtain ⟨-, rfl⟩ := Prod.mk.inj (Except.ok.inj same)
    exact start

theorem CarriesAll.kept {items : List RegionItem} (kept : route.Kept inv) (start : inv ledger w)
    (carries : route.CarriesAll buffer ledger items w (.ok (after, final)) w') : inv final w' := by
  generalize same : Except.ok (after, final) = outcome at carries
  induction carries with
  | nil => cases same; exact start
  | cons first _ ih => exact ih (first.kept kept start) same
  | full => cases same

theorem CarriesAll.stopped {items : List RegionItem} (kept : route.Kept inv)
    (start : inv ledger w) (carries : route.CarriesAll buffer ledger items w (.error last) w') :
    route.Stopped inv last w' := by
  generalize same : Except.error last = outcome at carries
  induction carries with
  | nil => cases same
  | cons first _ ih => exact ih (first.kept kept start) same
  | full first =>
    cases same
    cases first with
    | full announced handed => exact handed.stopped kept start

/-! ## The judgements -/

theorem leads_handOverAll {words : List UInt32} (kept : route.Kept inv)
    (safe : ∀ ledger w, inv ledger w → route.Safe w stop) (start : inv ledger w) :
    Leads w (route.handOverAll moving ledger words).run (route.HandsOverAll moving ledger words w)
      stop := by
  induction words generalizing ledger w with
  | nil => exact leads_run_pure .nil
  | cons word rest ih =>
    unfold handOverAll
    refine (leads_handOver (safe ledger w start)).bindRun (fun handed next first => ?_)
      fun last next first => .full first
    obtain ⟨new, entered⟩ := handed
    refine (ih (kept _ _ _ _ _ _ _ start first)).bindRun (fun handed last after => ?_)
      fun last next after => .later first after
    obtain ⟨words, final⟩ := handed
    exact leads_run_pure (.cons first after)

theorem leads_handOverPayload (bound : item.stop ≤ 64)
    (announced : item.descriptor.moves? = some moving) (kept : route.Kept inv)
    (safe : ∀ ledger w, inv ledger w → route.Safe w stop) (start : inv ledger w) :
    Leads w (route.handOverPayload moving buffer ledger item).run
      (route.Carries buffer ledger item w) stop := by
  have lies : item.index + 1 ≤ item.stop := by simp [RegionItem.stop]
  unfold handOverPayload
  rw [run_lift_bind]
  refine leads_liftExcept_bind (fun payload sliced => ?_) fun fault refused => ?_
  · obtain rfl := Except.ok.inj ((CommandBuffer.slice_eq_ok lies bound).symm.trans sliced)
    refine (leads_handOverAll kept safe start).bindRun (fun handed next hands => ?_)
      fun last next hands => .full announced hands
    obtain ⟨words, final⟩ := handed
    have fits : item.index + 1 + words.length ≤ 64 := by
      rw [hands.length, CommandBuffer.length_range bound]
      omega
    simp only [run_lift_bind, CommandBuffer.overwrite_eq_ok fits]
    exact leads_liftExcept_bind
      (fun _ h => Except.ok.inj h ▸ leads_run_pure (.handles announced hands)) fun _ h => by cases h
  · rw [CommandBuffer.slice_eq_ok lies bound] at refused
    cases refused

theorem leads_carry (bound : item.stop ≤ 64) (kept : route.Kept inv)
    (safe : ∀ ledger w, inv ledger w → route.Safe w stop) (start : inv ledger w) :
    Leads w (route.carry buffer ledger item).run (route.Carries buffer ledger item w) stop := by
  unfold carry
  rw [run_lift_bind]
  apply leads_note_bind
  cases descriptor : item.descriptor with
  | copyHandle count =>
    exact leads_handOverPayload bound (by simp [descriptor, Descriptor.moves?]) kept safe start
  | moveHandle count =>
    exact leads_handOverPayload bound (by simp [descriptor, Descriptor.moves?]) kept safe start
  | callingPid =>
    have inside : item.index + 1 < 64 := by
      simp only [RegionItem.stop, descriptor, Descriptor.payloadWords] at bound
      omega
    simp only [run_lift_bind, CommandBuffer.setWord_eq_ok inside]
    refine leads_processAt_bind (fun process found => ?_) (safe ledger w start).sender
    exact leads_liftExcept_bind
      (fun _ h => Except.ok.inj h ▸ leads_run_pure (.callingPid descriptor found))
      fun _ h => by cases h
  | staticBuffer =>
    exact leads_run_pure (.buffer (by simp [descriptor, Descriptor.moves?]) (by simp [descriptor]))
  | mappedBuffer =>
    exact leads_run_pure (.buffer (by simp [descriptor, Descriptor.moves?]) (by simp [descriptor]))

theorem leads_carryAll {items : List RegionItem} (bounds : ∀ item ∈ items, item.stop ≤ 64)
    (kept : route.Kept inv) (safe : ∀ ledger w, inv ledger w → route.Safe w stop)
    (start : inv ledger w) :
    Leads w (route.carryAll buffer ledger items).run (route.CarriesAll buffer ledger items w)
      stop := by
  induction items generalizing buffer ledger w with
  | nil => exact leads_run_pure .nil
  | cons item rest ih =>
    unfold carryAll
    refine (leads_carry (bounds item (by simp)) kept safe start).bindRun
      (fun carried next first => ?_) fun last next first => .full first
    obtain ⟨buffer, entered⟩ := carried
    refine (ih (fun item h => bounds item (by simp [h])) (first.kept kept start)).mono
      (fun outcome last after => .cons first after) fun _ h => h

end

end Route

end MicrokernelIpc
