import Mathlib.Logic.Relation
import MicrokernelIpc.Proofs.Runs

/-!
# What operations do

What an operation can do to the world is said once, for every invariant. Most operations are put
together from a few small alterations, none of which makes anything: they drift. The others let
objects into arenas, add a process or a thread, make an arena or a kernel, or change an object.
-/

namespace MicrokernelIpc

/-- The process is still the same, whatever became of its handles and its memory. -/
structure Process.Same (process after : Process) : Prop where
  processId : after.processId = process.processId
  name : after.name = process.name
  object : after.object = process.object

namespace World

/-- The small changes that make nothing. -/
inductive Alters (w : World) : World → Prop
  | retained {ref : ObjectRef} {w' : World} (retained : w.retain? ref = some w') : Alters w w'
  | released {ref : ObjectRef} {w' : World} (released : w.release? ref = some w') : Alters w w'
  | table (table : HandleTable) (key : TableKey) : Alters w (w.setTable table key)
  | tables (tables : Roster HandleTable) : Alters w { w with tables }
  | process {place : Key Process} {process after : Process}
      (found : w.processes.get? place = some process) (same : process.Same after)
      (slots : after.nextTlsSlot = process.nextTlsSlot) : Alters w (w.setProcess place after)
  | thread {place : Key Thread} {thread : Thread} (found : w.threads.get? place = some thread)
      (holders : Nat) : Alters w (w.setThread place { thread with holders })
  | processGone (place : Key Process) : Alters w { w with processes := w.processes.remove place }
  | threadGone (place : Key Thread) : Alters w { w with threads := w.threads.remove place }

/-- Small changes, one after the other. -/
abbrev Drifts : World → World → Prop := Relation.ReflTransGen Alters

/-- An object comes into an arena with its first reference. -/
inductive Inserts (w : World) (place : Key Arena) (object : KernelObject) : ObjectRef → World → Prop
  | intro {arena : Arena} (found : w.arenas.get? place = some arena) :
      Inserts w place object ⟨place, ⟨arena.nextId⟩⟩ (w.setArena place (arena.insert object).2)

/-- A process is made, and its record comes into the kernel's arena. -/
inductive AddsProcess (w : World) (name : String) : Key Process → World → Prop
  | intro {object : ObjectRef} {mid : World}
      (inserts : Inserts
        { w with kernel := { w.kernel with nextProcessId := w.kernel.nextProcessId + 1 } }
        w.kernel.arena (.process ⟨name, w.kernel.nextProcessId⟩) object mid) :
      AddsProcess w name (mid.processes.add (.new w.kernel.nextProcessId name object)).1
        { mid with processes := (mid.processes.add (.new w.kernel.nextProcessId name object)).2 }

/-- A thread is made in a process, which gives out a slot to it and is held once more. -/
inductive AddsThread (w : World) (owner : Key Process) (name : String) : Key Thread → World → Prop
  | intro {process slotted : Process} {object : ObjectRef} {address : UInt32} {mid : World}
      (found : w.processes.get? owner = some process)
      (inserts : Inserts
        { w with kernel := { w.kernel with nextThreadId := w.kernel.nextThreadId + 1 } }
        w.kernel.arena (.thread ⟨name, w.kernel.nextThreadId, process.processId⟩) object mid)
      (taken : process.takeTlsSlot = .ok (address, slotted)) :
      AddsThread w owner name
        (mid.threads.add ⟨w.kernel.nextThreadId, name, object, owner, address, 1⟩).1
        { mid.setProcess owner { slotted with holders := slotted.holders + 1 } with
          threads := (mid.threads.add ⟨w.kernel.nextThreadId, name, object, owner, address, 1⟩).2 }

/-- Both ends of a session come into the kernel's arena. -/
inductive AddsSessionPair (w : World) (name : String) : ObjectRef → ObjectRef → World → Prop
  | intro {server client : ObjectRef} {mid w' : World}
      (first : Inserts
        { w with kernel := { w.kernel with nextSessionId := w.kernel.nextSessionId + 1 } }
        w.kernel.arena (.session ⟨name, w.kernel.nextSessionId, .server⟩) server mid)
      (second : mid.Inserts w.kernel.arena (.session ⟨name, w.kernel.nextSessionId, .client⟩) client
        w') : AddsSessionPair w name server client w'

/-- An arena without objects is made. -/
def addArena (w : World) : World := { w with arenas := (w.arenas.add Arena.empty).2 }

end World

/-- What an operation does. -/
inductive Operation.Does (w : World) : Operation → Multiset ObjectRef → World → Prop
  | drifts {op : Operation} {gained : Multiset ObjectRef} {w' : World} (drifts : w.Drifts w') :
      Does w op gained w'
  | inserts {op : Operation} {place : Key Arena} {object : KernelObject} {ref : ObjectRef} {w' : World}
      (counted : op.inserts = 1) (inserts : w.Inserts place object ref w') : Does w op {ref} w'
  | process {name : String} {key : Key Process} {w' : World} (adds : w.AddsProcess name key w') :
      Does w (.createProcess name) 0 w'
  | thread {owner : Key Process} {name : String} {key : Key Thread} {w' : World}
      (adds : w.AddsThread owner name key w') : Does w (.createThread owner name) 0 w'
  | sessions {name : String} {server client : ObjectRef} {w' : World}
      (adds : w.AddsSessionPair name server client w') :
      Does w (.createSessionPair name) {server, client} w'
  | arena : Does w .newArena 0 w.addArena
  | kernel : Does w .newKernel 0
      { w.addArena with kernel := .new (w.arenas.add Arena.empty).1 }
  | changed {ref : ObjectRef} {object : KernelObject} {arena : Arena}
      (found : w.arenas.get? ref.arena = some arena) :
      Does w (.change ref object) 0 (w.setArena ref.arena (arena.update ref.id fun _ => object))

namespace World

variable {w w' : World} {key : TableKey} {object : ObjectRef} {handle : Handle}

theorem Alters.drifts (alters : w.Alters w') : w.Drifts w' := .single alters

theorem drifts_of_releaseAll? {refs : List ObjectRef} (h : w.releaseAll? refs = some w') :
    w.Drifts w' := by
  induction refs generalizing w with
  | nil => exact Option.some.inj h ▸ .refl
  | cons ref rest ih =>
    obtain ⟨mid, first, after⟩ := Option.bind_eq_some_iff.1 h
    exact (Alters.released first).drifts.trans (ih after)

/-! ## Calls -/

theorem Creates.drifts {outcome : Except HandleTableError Handle}
    (creates : w.Creates key object outcome w') : w.Drifts w' := by
  cases creates with
  | issued => exact (Alters.table _ _).drifts
  | full _ _ released => exact (Alters.released released).drifts

theorem Duplicates.drifts {outcome : Except HandleTableError Handle}
    (duplicates : w.Duplicates key handle outcome w') : w.Drifts w' := by
  cases duplicates with
  | unknown => exact .refl
  | copied _ _ retained => exact (Alters.retained retained).drifts.tail (.table _ _)
  | full _ _ retained _ released =>
    exact (Alters.retained retained).drifts.tail (.released released)

theorem Takes.drifts {outcome : Option ObjectRef} (takes : w.Takes key handle outcome w') :
    w.Drifts w' := by
  cases takes with
  | unknown => exact .refl
  | taken => exact (Alters.table _ _).drifts

theorem Closes.drifts {outcome : Except HandleTableError Unit}
    (closes : w.Closes key handle outcome w') : w.Drifts w' := by
  cases closes with
  | unknown => exact .refl
  | closed _ _ released => exact (Alters.table _ _).drifts.tail (.released released)

theorem ClosesAll.drifts {handles : List Handle} (closes : ClosesAll key handles w w') :
    w.Drifts w' := by
  induction closes with
  | nil => exact .refl
  | cons first _ ih => exact first.drifts.trans ih

theorem Acquires.drifts {outcome : Option ObjectRef} (acquires : w.Acquires key handle outcome w') :
    w.Drifts w' := by
  cases acquires with
  | unknown => exact .refl
  | acquired _ _ retained => exact (Alters.retained retained).drifts

theorem Clears.drifts (clears : w.Clears key w') : w.Drifts w' := by
  cases clears with
  | cleared _ released => exact (Alters.table _ _).drifts.trans (drifts_of_releaseAll? released)

theorem Writes.drifts {place : Key Process} {address : UInt32} {words : List UInt32}
    {outcome : Except MemoryError Unit} (writes : w.Writes place address words outcome w') :
    w.Drifts w' := by
  cases writes with
  | @written process found _ =>
    have same : process.Same { process with
      memory := process.memory.setWords address.toNat words } := ⟨rfl, rfl, rfl⟩
    exact (Alters.process found same rfl).drifts
  | refused => exact .refl

end World

/-! ## Deliveries -/

section

variable {w w' : World} {route : Route} {source target : Key Thread}
variable {sourceAddress targetAddress : UInt32}

theorem Route.HandsOver.drifts {moving : Bool} {ledger : Ledger} {handle : Handle}
    {outcome : Except Ledger (UInt32 × Ledger)}
    (hands : route.HandsOver moving ledger handle w outcome w') : w.Drifts w' := by
  cases hands with
  | unresolved => exact .refl
  | issued _ retained => exact (World.Alters.retained retained).drifts.tail (.table _ _)
  | full _ retained _ _ released =>
    exact (World.Alters.retained retained).drifts.tail (.released released)

theorem PicksUp.drifts {outcome : Except DeliveryError Carriage}
    (picks : PicksUp source target sourceAddress w outcome w') : w.Drifts w' := by
  have kept (route : Route) : route.Kept fun _ => w.Drifts :=
    fun _ _ _ _ _ _ _ drifts hands => drifts.trans hands.drifts
  cases picks with
  | refused => exact .refl
  | carried _ _ _ _ _ carries => exact carries.kept (kept _) .refl
  | full _ _ _ _ _ carries =>
    obtain ⟨moving, handle, mid, drifts, hands⟩ := carries.stopped (kept _) .refl
    exact drifts.trans hands.drifts

theorem Carriage.Settles.drifts {carriage : Carriage} {outcome : Except DeliveryError Unit}
    (settles : carriage.Settles targetAddress w outcome w') : w.Drifts w' := by
  cases settles with
  | full _ rolled => exact rolled.drifts
  | unwritten _ refused rolled => exact refused.drifts.trans rolled.drifts
  | delivered _ wrote committed => exact wrote.drifts.trans committed.drifts

theorem Delivers.drifts {outcome : Except DeliveryError Unit}
    (delivers : Delivers source target sourceAddress targetAddress w outcome w') : w.Drifts w' := by
  cases delivers with
  | refused picks => exact picks.drifts
  | settled picks settles => exact picks.drifts.trans settles.drifts

end

/-! ## Actions -/

section

variable {w : World} {α β : Type}

/-- The action drifts, whatever becomes of it. -/
def Drifting (w : World) (action : Action α) : Prop :=
  Leads w action (fun _ => w.Drifts) fun _ => True

theorem Drifting.bind {action : Action α} {rest : α → Action β} (first : Drifting w action)
    (after : ∀ value next, Drifting next (rest value)) : Drifting w (action >>= rest) :=
  Leads.bind first fun value next drifts =>
    (after value next).mono (fun _ _ later => drifts.trans later) fun _ h => h

theorem drifting_modifyWorld {f : World → World} (alters : w.Alters (f w)) :
    Drifting w (modifyWorld f) :=
  leads_modifyWorld alters.drifts

theorem drifting_retain (ref : ObjectRef) : Drifting w (retain ref) :=
  (leads_retain fun _ => ⟨trivial, trivial⟩).mono
    (fun _ _ h => (World.Alters.retained h).drifts) fun _ h => h

theorem drifting_release (ref : ObjectRef) : Drifting w (release ref) :=
  (leads_release fun _ => trivial).mono (fun _ _ h => (World.Alters.released h).drifts) fun _ h => h

theorem drifting_releaseAll (refs : List ObjectRef) : Drifting w (releaseAll refs) :=
  (leads_releaseAll fun _ _ _ => trivial).mono
    (fun _ _ h => World.drifts_of_releaseAll? h) fun _ h => h

theorem drifting_newTable : Drifting w newTable :=
  leads_get_bind fun _ => leads_modifyWorld_bind (leads_pure (World.Alters.tables _).drifts)

theorem drifting_discardTable {place : Key HandleTable} : Drifting w (discardTable place) :=
  leads_tableAt_bind (fun _ _ => (drifting_modifyWorld (.tables _)).bind
    fun _ _ => drifting_releaseAll _) fun _ => trivial

section

variable {key : TableKey} {handle : Handle}

theorem drifting_createHandle {ref : ObjectRef} : Drifting w (createHandle key ref).run :=
  leads_of_ok fun _ _ _ returned => (creates_of_ok returned).drifts

theorem drifting_duplicateHandle : Drifting w (duplicateHandle key handle).run :=
  leads_of_ok fun _ _ _ returned => (duplicates_of_ok returned).drifts

theorem drifting_closeHandle : Drifting w (closeHandle key handle).run :=
  leads_of_ok fun _ _ _ returned => (closes_of_ok returned).drifts

theorem drifting_takeHandle : Drifting w (takeHandle key handle) :=
  leads_of_ok fun _ _ _ returned => (takes_of_ok returned).drifts

theorem drifting_acquireHandle : Drifting w (acquireHandle key handle) :=
  leads_of_ok fun _ _ _ returned => (acquires_of_ok returned).drifts

theorem drifting_clearTable : Drifting w (clearTable key) :=
  leads_of_ok fun _ _ _ returned => (clears_of_ok returned).drifts

end

theorem drifting_holdProcess {place : Key Process} : Drifting w (holdProcess place) :=
  leads_processAt_bind (fun _ found => drifting_modifyWorld (.process found ⟨rfl, rfl, rfl⟩ rfl))
    fun _ => trivial

theorem drifting_releaseProcess {place : Key Process} : Drifting w (releaseProcess place) := by
  refine leads_processAt_bind (fun process found => ?_) fun _ => trivial
  split
  · refine (drifting_modifyWorld (.processGone place)).bind fun _ _ => ?_
    exact (drifting_release _).bind fun _ _ => drifting_releaseAll _
  · exact drifting_modifyWorld (.process found ⟨rfl, rfl, rfl⟩ rfl)

theorem drifting_holdThread {place : Key Thread} : Drifting w (holdThread place) :=
  leads_threadAt_bind (fun _ found => drifting_modifyWorld (.thread found _)) fun _ => trivial

theorem drifting_releaseThread {place : Key Thread} : Drifting w (releaseThread place) := by
  refine leads_threadAt_bind (fun thread found => ?_) fun _ => trivial
  split
  · refine (drifting_modifyWorld (.threadGone place)).bind fun _ _ => ?_
    exact (drifting_release _).bind fun _ _ => drifting_releaseProcess
  · exact drifting_modifyWorld (.thread found _)

theorem drifting_deliver {source target : Key Thread} {sourceAddress targetAddress : UInt32} :
    Drifting w (deliver source target sourceAddress targetAddress).run :=
  leads_of_ok fun _ _ _ returned => (delivers_of_ok returned).drifts

theorem drifting_deliverBetween {source target : Key Thread} :
    Drifting w (deliverBetween source target).run :=
  leads_deliverBetween_of (fun _ => trivial) (fun _ => trivial) fun _ _ _ => drifting_deliver

theorem drifting_openRequest {client server : Key Thread} :
    Drifting w (openRequest client server).run :=
  leads_openRequest_of trivial drifting_deliverBetween

theorem drifting_closeRequest {client server : Key Thread} {reply : CommandBuffer} :
    Drifting w (closeRequest client server reply).run :=
  leads_closeRequest_of trivial .refl fun _ _ _ writes =>
    drifting_deliverBetween.mono (fun _ _ later => writes.drifts.trans later) fun _ h => h

end

/-! ## Making something -/

namespace World

variable {w w' : World} {place : Key Arena} {object : KernelObject} {ref : ObjectRef}

theorem Inserts.processes_eq (inserts : w.Inserts place object ref w') :
    w'.processes = w.processes := by
  cases inserts
  rfl

theorem Inserts.threads_eq (inserts : w.Inserts place object ref w') : w'.threads = w.threads := by
  cases inserts
  rfl

theorem Inserts.kernel_eq (inserts : w.Inserts place object ref w') : w'.kernel = w.kernel := by
  cases inserts
  rfl

theorem Inserts.arena_ne_none (inserts : w.Inserts place object ref w') :
    w'.arenas.get? place ≠ none := by
  cases inserts with
  | intro found => simp [setArena, Roster.get?_modify, found]

theorem setProcess_setProcess {place : Key Process} {process next : Process} :
    (w.setProcess place process).setProcess place next = w.setProcess place next := by
  simp only [setProcess, Roster.modify_modify]
  rfl

end World

section

variable {w : World} {stop : Fault → Prop} {place : Key Arena} {name : String} {object : KernelObject}

theorem leads_insertObject (gone : w.arenas.get? place = none → stop .discarded) :
    Leads w (insertObject place object) (w.Inserts place object) stop :=
  leads_arenaAt_bind (fun _ found => leads_note_bind (leads_modifyWorld_bind
    (leads_pure (.intro found)))) gone

section

variable (gone : w.arenas.get? w.kernel.arena = none → stop .discarded)
include gone

theorem leads_createObject :
    Leads w (createObject object) (w.Inserts w.kernel.arena object) stop :=
  leads_get_bind fun _ => leads_insertObject gone

theorem leads_createProcess : Leads w (createProcess name) (w.AddsProcess name) stop := by
  refine leads_get_bind fun _ => leads_modifyWorld_bind ?_
  refine Leads.bind (leads_createObject gone) fun object mid inserts => ?_
  exact leads_note_bind (leads_get_bind fun _ => leads_modifyWorld_bind
    (leads_pure (.intro inserts)))

theorem leads_createThread {owner : Key Process}
    (lost : w.processes.get? owner = none → stop .discarded)
    (full : ∀ process fault, w.processes.get? owner = some process →
      process.takeTlsSlot = .error fault → stop fault) :
    Leads w (createThread owner name) (w.AddsThread owner name) stop := by
  refine leads_get_bind fun _ => leads_modifyWorld_bind ?_
  refine leads_processAt_bind (fun process found => ?_) lost
  refine Leads.bind (leads_createObject gone) fun object mid inserts => ?_
  have there : mid.processes.get? owner = some process := inserts.processes_eq ▸ found
  refine leads_processAt_bind (fun other same => ?_) fun none => by cases there.symm.trans none
  obtain rfl := Option.some.inj (there.symm.trans same)
  refine leads_liftExcept_bind (fun given taken => ?_) fun fault refused =>
    full process fault found refused
  obtain ⟨address, slotted⟩ := given
  refine leads_modifyWorld_bind (leads_note_bind ?_)
  have given : (mid.setProcess owner slotted).processes.get? owner = some slotted := by
    simp [World.setProcess, Roster.get?_modify, there]
  have holds : Leads (mid.setProcess owner slotted) (holdProcess owner) (fun _ next =>
      next = mid.setProcess owner { slotted with holders := slotted.holders + 1 }) stop := by
    refine leads_processAt_bind (fun other same => ?_) fun none => by cases given.symm.trans none
    obtain rfl := Option.some.inj (given.symm.trans same)
    exact leads_modifyWorld World.setProcess_setProcess
  apply holds.bind
  rintro _ _ rfl
  have adds : w.AddsThread owner name _ _ := .intro found inserts taken
  exact leads_get_bind fun _ => leads_modifyWorld_bind (leads_pure adds)

theorem leads_createSessionPair : Leads w (createSessionPair name)
    (fun ends => w.AddsSessionPair name ends.1 ends.2) stop := by
  refine leads_get_bind fun _ => leads_modifyWorld_bind ?_
  refine Leads.bind (leads_createObject gone) fun server mid first => ?_
  have kernel : mid.kernel.arena = w.kernel.arena := by rw [first.kernel_eq]
  refine Leads.bind (leads_createObject fun none => ?_) fun client last second => ?_
  · exact first.arena_ne_none (kernel ▸ none) |>.elim
  · exact leads_pure (.intro first (kernel ▸ second))

end

theorem leads_newArena : Leads w newArena
    (fun key next => key = (w.arenas.add Arena.empty).1 ∧ next = w.addArena) stop :=
  leads_get_bind fun _ => leads_modifyWorld_bind (leads_pure ⟨rfl, rfl⟩)

end

/-! ## Operations -/

/-- Every operation does one of these things. -/
theorem Operation.does_run {w : World} (op : Operation) :
    Leads w op.run (op.Does w) fun _ => True := by
  have drifts {op : Operation} {α : Type} {f : α → Multiset ObjectRef} {action : Action α}
      (drifting : Drifting w action) :
      Leads w (action >>= fun value => pure (f value)) (op.Does w) fun _ => True :=
    Leads.bind drifting fun _ _ drifts => leads_pure (.drifts drifts)
  have inserts {op : Operation} {object : KernelObject} (counted : op.inserts = 1) :
      Leads w (do return ({← createObject object} : Multiset ObjectRef)) (op.Does w)
        fun _ => True :=
    (leads_createObject fun _ => trivial).bind fun _ _ inserts =>
      leads_pure (.inserts counted inserts)
  cases op with
  | newKernel =>
    refine Leads.bind (leads_newArena.bind ?_) fun _ _ does => leads_pure does
    rintro _ _ ⟨rfl, rfl⟩
    exact leads_modifyWorld .kernel
  | newArena => exact leads_newArena.bind fun _ _ made => leads_pure (made.2 ▸ .arena)
  | insert arena object =>
    exact (leads_insertObject fun _ => trivial).bind fun _ _ inserts =>
      leads_pure (.inserts rfl inserts)
  | createProcess name =>
    exact (leads_createProcess fun _ => trivial).bind fun _ _ adds => leads_pure (.process adds)
  | createThread owner name =>
    exact (leads_createThread (fun _ => trivial) (fun _ => trivial) fun _ _ _ _ => trivial).bind
      fun _ _ adds => leads_pure (.thread adds)
  | createEvent name reset => exact inserts rfl
  | createSemaphore name initial maxCount =>
    have makes : Leads w (MicrokernelIpc.createSemaphore name initial maxCount).run
        (fun outcome next =>
          (∃ ref object, outcome = .ok ref ∧
            (Operation.createSemaphore name initial maxCount).inserts = 1 ∧
              w.Inserts w.kernel.arena object ref next) ∨
            (∃ error, outcome = .error error) ∧ next = w) fun _ => True := by
      unfold MicrokernelIpc.createSemaphore
      cases made : Semaphore.make name initial maxCount with
      | ok semaphore =>
        have counted : (Operation.createSemaphore name initial maxCount).inserts = 1 := by
          simp [Operation.inserts, made, Except.isOk, Except.toBool]
        rw [run_lift]
        exact (leads_createObject fun _ => trivial).bind fun _ _ inserts =>
          leads_pure (.inl ⟨_, _, rfl, counted, inserts⟩)
      | error error => exact leads_run_throw (.inr ⟨⟨_, rfl⟩, rfl⟩)
    apply makes.bind
    rintro _ next (⟨ref, _, rfl, counted, inserts⟩ | ⟨⟨_, rfl⟩, rfl⟩)
    · exact leads_pure (.inserts counted inserts)
    · exact leads_pure (.drifts .refl)
  | createSharedMemory name size owner other => exact inserts rfl
  | createSessionPair name =>
    exact (leads_createSessionPair fun _ => trivial).bind fun _ _ adds => leads_pure (.sessions adds)
  | share ref =>
    exact Leads.bind (drifting_retain ref) fun _ _ drifts => leads_pure (.drifts drifts)
  | letGo ref => exact drifts (drifting_release ref)
  | change ref object =>
    have changes : Leads w (setObject ref object) (fun _ => (Operation.change ref object).Does w 0)
        fun _ => True :=
      leads_arenaAt_bind (fun _ found => leads_modifyWorld (.changed found)) fun _ => trivial
    exact changes.bind fun _ _ does => leads_pure does
  | newTable => exact drifts drifting_newTable
  | discardTable table => exact drifts drifting_discardTable
  | create table ref => exact drifts drifting_createHandle
  | duplicate table handle => exact drifts drifting_duplicateHandle
  | close table handle => exact drifts drifting_closeHandle
  | take table handle => exact drifts drifting_takeHandle
  | acquire table handle => exact drifts drifting_acquireHandle
  | clear table => exact drifts drifting_clearTable
  | holdProcess process => exact drifts drifting_holdProcess
  | releaseProcess process => exact drifts drifting_releaseProcess
  | holdThread thread => exact drifts drifting_holdThread
  | releaseThread thread => exact drifts drifting_releaseThread
  | runGuest key memory =>
    refine leads_processAt_bind (fun process found => ?_) fun _ => trivial
    have alters : w.Alters (w.setProcess key { process with memory }) :=
      .process found ⟨rfl, rfl, rfl⟩ rfl
    exact leads_modifyWorld_bind (leads_pure (.drifts alters.drifts))
  | deliver source target sourceAddress targetAddress => exact drifts drifting_deliver
  | openRequest client server => exact drifts drifting_openRequest
  | closeRequest client server reply => exact drifts drifting_closeRequest

end MicrokernelIpc
