import MicrokernelIpc.Delivery.Request
import MicrokernelIpc.Proofs.Delivery.HandOver
import MicrokernelIpc.Proofs.Kernel.Memory

/-!
# What a delivery does to the world

A command is taken up, which issues handles and closes none, and its carriage is settled: the
words are written and what the sender is to lose is closed, or what was issued is closed
again. Each of the two is described by the ways it can end.
-/

namespace MicrokernelIpc

/-! ## Taking a command up -/

/-- The command at an address of a process's memory, or why it cannot be fetched. -/
def Process.fetch? (process : Process) (address : UInt32) :
    Except DeliveryError (Header × CommandBuffer) :=
  match process.memory.checkMapped address 4 with
  | .error error => .error (.memory error)
  | .ok () =>
    let header := Header.ofWord (process.memory.wordAt address.toNat)
    if CommandBuffer.size < header.totalSize then .error .commandTooLarge
    else
      match process.memory.checkMapped address (header.totalSize * 4) with
      | .error error => .error (.memory error)
      | .ok () =>
        .ok (header, .ofList ((List.range header.totalSize).map fun index =>
          process.memory.wordAt (address.toNat + 4 * index)))

/-- A read in the course of a delivery goes on with what stands there, or it is refused. -/
theorem leads_readForDelivery_bind {α β : Type} {w : World} {stop : Fault → Prop}
    {key : Key Process} {access : MemoryAccess α} {rest : α → Attempt DeliveryError β}
    {check : Process → Except MemoryError Unit} {value : Process → α}
    {post : Except DeliveryError β → World → Prop}
    (reads : Leads w (accessMemory key access).run
      (fun outcome next => next = w ∧ ∃ process, w.processes.get? key = some process ∧
        outcome = (check process).map fun _ => value process) stop)
    (after : ∀ process, w.processes.get? key = some process → check process = .ok () →
      Leads w (rest (value process)).run post stop)
    (refused : ∀ process error, w.processes.get? key = some process →
      check process = .error error → post (.error (.memory error)) w) :
    Leads w (accessForDelivery key access >>= rest).run post stop := by
  refine (reads.adapt DeliveryError.memory).bindRun ?_ ?_
  · rintro outcome next ⟨first, renamed, rfl, process, found, rfl⟩
    cases checked : check process with
    | error => simp [checked, Except.map, Except.mapError] at renamed
    | ok =>
      obtain rfl : outcome = value process := by
        simpa [checked, Except.map, Except.mapError] using renamed
      exact after process found checked
  · rintro error next ⟨first, renamed, rfl, process, found, rfl⟩
    cases checked : check process with
    | ok => simp [checked, Except.map, Except.mapError] at renamed
    | error first =>
      obtain rfl : error = .memory first := by
        simpa [checked, Except.map, Except.mapError] using renamed
      exact refused process first found checked

theorem leads_fetchCommand {w : World} {stop : Fault → Prop} {sender : Thread} {address : UInt32}
    (lost : w.processes.get? sender.owner = none → stop .discarded) :
    Leads w (fetchCommand sender address).run
      (fun outcome next => next = w ∧ ∃ process, w.processes.get? sender.owner = some process ∧
        outcome = process.fetch? address) stop := by
  refine leads_readForDelivery_bind (leads_readWord lost) (fun process found checked => ?_)
    fun process error found checked => ?_
  · dsimp only
    split
    · next long =>
      rw [run_lift_bind]
      refine leads_note_bind (leads_run_throw ⟨rfl, process, found, ?_⟩)
      simp [Process.fetch?, checked, long]
    · next short =>
      refine leads_readForDelivery_bind (leads_readWords lost) (fun same found' inside => ?_)
        fun same error found' inside => ?_
      · obtain rfl := Option.some.inj (found.symm.trans found')
        rw [run_lift_bind, CommandBuffer.overwrite_eq_ok (by
          simpa [CommandBuffer.size] using short)]
        refine leads_liftExcept_bind (fun buffer h => ?_) fun _ h => by cases h
        obtain rfl := Except.ok.inj h
        refine leads_run_pure ⟨rfl, process, found, ?_⟩
        simp [Process.fetch?, checked, short, inside, CommandBuffer.ofList]
      · obtain rfl := Option.some.inj (found.symm.trans found')
        refine ⟨rfl, process, found, ?_⟩
        simp [Process.fetch?, checked, short, inside]
  · refine ⟨rfl, process, found, ?_⟩
    simp [Process.fetch?, checked]

/-- How the cutting of a command's transfer region ends. -/
inductive CutsRegion (header : Header) (buffer : CommandBuffer) :
    Except DeliveryError (List RegionItem) → Prop
  | cut {items : List RegionItem}
      (tiles : RegionItem.Tiles buffer header.totalSize header.plainSize items) :
      CutsRegion header buffer (.ok items)
  | refused {error : DeliveryError}
      (reason : survey (buffer.range header.plainSize header.totalSize) = .error error) :
      CutsRegion header buffer (.error error)

theorem leads_cutRegion {w : World} {stop : Fault → Prop} {header : Header}
    {buffer : CommandBuffer} (bound : header.totalSize ≤ 64) :
    Leads w (cutRegion header buffer).run
      (fun outcome next => next = w ∧ CutsRegion header buffer outcome) stop := by
  unfold cutRegion
  rw [run_lift_bind]
  refine leads_liftExcept_bind (fun region cut => ?_) fun fault refused => ?_
  · obtain ⟨error, run, reason⟩ | ⟨items, run, tiles⟩ :=
      RegionItem.ofRegion_run buffer bound header.plainSize
    · obtain rfl := Except.ok.inj (run.symm.trans cut)
      rw [run_lift_bind]
      exact leads_note_bind (leads_run_throw ⟨rfl, .refused reason⟩)
    · obtain rfl := Except.ok.inj (run.symm.trans cut)
      exact leads_run_pure ⟨rfl, .cut tiles⟩
  · obtain ⟨error, run, -⟩ | ⟨items, run, tiles⟩ :=
      RegionItem.ofRegion_run buffer bound header.plainSize
    · rw [run] at refused
      cases refused
    · rw [run] at refused
      cases refused

/-- A command that was fetched has the words that its header declares. -/
theorem Process.of_fetch? {process : Process} {address : UInt32} {header : Header}
    {buffer : CommandBuffer} (h : process.fetch? address = .ok (header, buffer)) :
    header = Header.ofWord (process.memory.wordAt address.toNat) ∧
      buffer = .ofList ((List.range header.totalSize).map fun index =>
        process.memory.wordAt (address.toNat + 4 * index)) ∧ header.totalSize ≤ 64 := by
  unfold fetch? at h
  split at h
  · cases h
  · dsimp only at h
    split at h
    · cases h
    · next short =>
      split at h
      · cases h
      · obtain ⟨rfl, rfl⟩ := Prod.mk.inj (Except.ok.inj h)
        exact ⟨rfl, rfl, by simpa [CommandBuffer.size] using short⟩

/-- The handles of the command at an address of a process's memory, or why there is no command
there that can be carried. -/
def Process.survey? (process : Process) (address : UInt32) :
    Except DeliveryError (List (Bool × Handle)) := do
  let (header, buffer) ← process.fetch? address
  survey (buffer.range header.plainSize header.totalSize)

theorem Route.eq_of_threads {w : World} {source target : Key Thread} {route other : Route}
    (sends : w.threads.get? source = some route.sender)
    (receives : w.threads.get? target = some route.receiver)
    (sends' : w.threads.get? source = some other.sender)
    (receives' : w.threads.get? target = some other.receiver) : other = route := by
  obtain ⟨sender, receiver⟩ := other
  obtain rfl := Option.some.inj (sends.symm.trans sends')
  obtain rfl := Option.some.inj (receives.symm.trans receives')
  rfl

/-- How the taking up of a command ends. -/
inductive PicksUp (source target : Key Thread) (address : UInt32) (w : World) :
    Except DeliveryError Carriage → World → Prop
  | refused {route : Route} {process : Process} {error : DeliveryError}
      (receiver : w.threads.get? target = some route.receiver)
      (sender : w.threads.get? source = some route.sender)
      (owner : w.processes.get? route.sender.owner = some process)
      (reason : process.survey? address = .error error) :
      PicksUp source target address w (.error error) w
  | carried {route : Route} {process : Process} {header : Header} {command buffer : CommandBuffer}
      {items : List RegionItem} {ledger : Ledger} {w' : World}
      (sender : w.threads.get? source = some route.sender)
      (receiver : w.threads.get? target = some route.receiver)
      (owner : w.processes.get? route.sender.owner = some process)
      (fetched : process.fetch? address = .ok (header, command))
      (tiles : RegionItem.Tiles command header.totalSize header.plainSize items)
      (carries : route.CarriesAll command .empty items w (.ok (buffer, ledger)) w') :
      PicksUp source target address w
        (.ok ⟨route, ledger, some (buffer.range 0 header.totalSize)⟩) w'
  | full {route : Route} {process : Process} {header : Header} {command : CommandBuffer}
      {items : List RegionItem} {ledger : Ledger} {w' : World}
      (sender : w.threads.get? source = some route.sender)
      (receiver : w.threads.get? target = some route.receiver)
      (owner : w.processes.get? route.sender.owner = some process)
      (fetched : process.fetch? address = .ok (header, command))
      (tiles : RegionItem.Tiles command header.totalSize header.plainSize items)
      (carries : route.CarriesAll command .empty items w (.error ledger) w') :
      PicksUp source target address w (.ok ⟨route, ledger, none⟩) w'

theorem leads_pickUp {w : World} {stop : Fault → Prop} {source target : Key Thread}
    {address : UInt32} (inv : Route → Ledger → World → Prop)
    (source_lost : w.threads.get? source = none → stop .discarded)
    (target_lost : w.threads.get? target = none → stop .discarded)
    (kept : ∀ route : Route, route.Kept (inv route))
    (safe : ∀ (route : Route) ledger w, inv route ledger w → route.Safe w stop)
    (start : ∀ route : Route, w.threads.get? source = some route.sender →
      w.threads.get? target = some route.receiver → inv route .empty w) :
    Leads w (pickUp source target address).run (PicksUp source target address w) stop := by
  unfold pickUp
  rw [run_lift_bind]
  refine leads_threadAt_bind (fun sender fromSource => ?_) source_lost
  rw [run_lift_bind]
  refine leads_threadAt_bind (fun receiver toTarget => ?_) target_lost
  have start := start ⟨sender, receiver⟩ fromSource toTarget
  have safeHere := safe _ _ _ start
  refine (leads_fetchCommand safeHere.sender).bindRun ?_ ?_
  · rintro ⟨header, command⟩ next ⟨rfl, process, owner, fetched⟩
    obtain ⟨-, -, bound⟩ := Process.of_fetch? fetched.symm
    refine (leads_cutRegion bound).bindRun ?_ ?_
    · rintro items next ⟨rfl, ⟨tiles⟩⟩
      rw [run_lift_bind]
      refine (Route.leads_carryAll (fun item h => (tiles.stop_le item h).trans bound)
        (kept _) (safe _) start).bind fun outcome next carries => ?_
      match outcome with
      | .ok (buffer, ledger) =>
        simp only [run_lift_bind, CommandBuffer.slice_eq_ok (Nat.zero_le _) bound]
        refine leads_liftExcept_bind (fun _ h => ?_) fun _ h => by cases h
        obtain rfl := Except.ok.inj h
        exact leads_run_pure (.carried fromSource toTarget owner fetched.symm tiles carries)
      | .error ledger =>
        exact leads_run_pure (.full fromSource toTarget owner fetched.symm tiles carries)
    · rintro error next ⟨rfl, cuts⟩
      cases cuts with
      | refused reason =>
        refine .refused toTarget fromSource owner ?_
        rw [Process.survey?, ← fetched]
        exact reason
  · rintro error next ⟨rfl, process, owner, unfetched⟩
    refine .refused toTarget fromSource owner ?_
    rw [Process.survey?, ← unfetched]
    rfl

/-! ## Settling a carriage -/

/-- What the closing of several handles, one after the other, comes to. -/
inductive World.ClosesAll (key : TableKey) : List Handle → World → World → Prop
  | nil {w : World} : ClosesAll key [] w w
  | cons {handle : Handle} {rest : List Handle} {w next w' : World}
      {outcome : Except HandleTableError Unit} (first : w.Closes key handle outcome next)
      (after : ClosesAll key rest next w') : ClosesAll key (handle :: rest) w w'

/-- How the settling of a carriage ends. -/
inductive Carriage.Settles (carriage : Carriage) (address : UInt32) (w : World) :
    Except DeliveryError Unit → World → Prop
  | full {w' : World} (unfinished : carriage.words = none)
      (rolled : World.ClosesAll carriage.route.receiverTable carriage.ledger.created w w') :
      Settles carriage address w (.error .outOfHandles) w'
  | unwritten {words : List UInt32} {error : MemoryError} {kept w' : World}
      (finished : carriage.words = some words)
      (refused : w.Writes carriage.route.receiver.owner address words (.error error) kept)
      (rolled : World.ClosesAll carriage.route.receiverTable carriage.ledger.created kept w') :
      Settles carriage address w (.error (.memory error)) w'
  | delivered {words : List UInt32} {written w' : World} (finished : carriage.words = some words)
      (wrote : w.Writes carriage.route.receiver.owner address words (.ok ()) written)
      (committed : World.ClosesAll carriage.route.senderTable carriage.ledger.moved written w') :
      Settles carriage address w (.ok ()) w'

/-- A carriage that is refused in the end has what it issued closed again. -/
theorem Carriage.Settles.rolled {carriage : Carriage} {address : UInt32} {w w' : World}
    {error : DeliveryError} (settles : carriage.Settles address w (.error error) w') :
    World.ClosesAll carriage.route.receiverTable carriage.ledger.created w w' := by
  cases settles with
  | full unfinished rolled => exact rolled
  | unwritten finished refused rolled =>
    cases refused with
    | refused => exact rolled

section

variable {w : World} {stop : Fault → Prop} {key : TableKey} {inv : World → Prop}

/-- Handles are closed one after the other, whatever is done with the outcome. -/
theorem leads_closeEach {close : Handle → Action Unit} {handles : List Handle}
    (closes : ∀ handle w, inv w →
      Leads w (close handle) (fun _ next => ∃ outcome, w.Closes key handle outcome next) stop)
    (kept : ∀ w handle outcome next, inv w → w.Closes key handle outcome next → inv next)
    (start : inv w) :
    Leads w (handles.forM close) (fun _ next => World.ClosesAll key handles w next) stop := by
  induction handles generalizing w with
  | nil => exact leads_pure .nil
  | cons handle rest ih =>
    show Leads w (close handle >>= fun _ => rest.forM close) _ stop
    apply (closes handle w start).bind
    intro _ next closed
    obtain ⟨outcome, closed⟩ := closed
    exact (ih (kept _ _ _ _ start closed)).mono (fun _ _ after => .cons closed after) fun _ h => h

theorem leads_rollback {ledger : Ledger}
    (closes : ∀ handle w, inv w → Leads w (closeHandle key handle).run (w.Closes key handle) stop)
    (kept : ∀ w handle outcome next, inv w → w.Closes key handle outcome next → inv next)
    (start : inv w) :
    Leads w (ledger.rollback key) (fun _ next => World.ClosesAll key ledger.created w next) stop :=
  leads_closeEach (fun handle w holds => (closes handle w holds).bind fun outcome _ closed =>
    leads_pure ⟨outcome, closed⟩) kept start

theorem leads_commit {ledger : Ledger}
    (closes : ∀ handle w, inv w → Leads w (closeHandle key handle).run (w.Closes key handle) stop)
    (kept : ∀ w handle outcome next, inv w → w.Closes key handle outcome next → inv next)
    (start : inv w) :
    Leads w (ledger.commit key) (fun _ next => World.ClosesAll key ledger.moved w next) stop := by
  refine leads_closeEach (fun handle w holds => ?_) kept start
  apply (closes handle w holds).bind
  intro outcome next closed
  cases outcome with
  | ok => exact leads_pure ⟨_, closed⟩
  | error => exact leads_note ⟨_, closed⟩

theorem leads_settle (inv : World → Prop) {carriage : Carriage} {address : UInt32}
    (lost : w.processes.get? carriage.route.receiver.owner = none → stop .discarded)
    (closes : ∀ key, key = carriage.route.senderTable ∨ key = carriage.route.receiverTable →
      ∀ handle w, inv w → Leads w (closeHandle key handle).run (w.Closes key handle) stop)
    (kept : ∀ key w handle outcome next, inv w → w.Closes key handle outcome next → inv next)
    (writes : ∀ words outcome next, inv w →
      w.Writes carriage.route.receiver.owner address words outcome next → inv next)
    (start : inv w) :
    Leads w (carriage.settle address).run (carriage.Settles address w) stop := by
  unfold Carriage.settle
  cases finished : carriage.words with
  | none =>
    simp only [run_lift_bind]
    exact (leads_rollback (closes _ (.inr rfl)) (kept _) start).bind fun _ next rolled =>
      leads_run_throw (.full finished rolled)
  | some words =>
    simp only [run_lift_bind]
    apply (leads_writeWords lost).bind
    intro outcome next wrote
    have start := writes words outcome next start wrote
    cases outcome with
    | ok =>
      rw [run_lift]
      exact (leads_commit (closes _ (.inl rfl)) (kept _) start).bind fun _ last committed =>
        leads_pure (.delivered finished wrote committed)
    | error error =>
      simp only [run_lift_bind]
      exact (leads_rollback (closes _ (.inr rfl)) (kept _) start).bind fun _ last rolled =>
        leads_run_throw (.unwritten finished wrote rolled)

end

/-! ## A delivery -/

section

variable {source target : Key Thread} {sourceAddress targetAddress : UInt32}

/-- How a delivery ends. -/
inductive Delivers (source target : Key Thread) (sourceAddress targetAddress : UInt32)
    (w : World) : Except DeliveryError Unit → World → Prop
  | refused {error : DeliveryError} {w' : World}
      (picks : PicksUp source target sourceAddress w (.error error) w') :
      Delivers source target sourceAddress targetAddress w (.error error) w'
  | settled {carriage : Carriage} {outcome : Except DeliveryError Unit} {held w' : World}
      (picks : PicksUp source target sourceAddress w (.ok carriage) held)
      (settles : carriage.Settles targetAddress held outcome w') :
      Delivers source target sourceAddress targetAddress w outcome w'

theorem delivers_of_ok {machine after : Machine} {outcome : Except DeliveryError Unit}
    (h : (deliver source target sourceAddress targetAddress).run machine = .ok outcome after) :
    Delivers source target sourceAddress targetAddress machine.world outcome after.world := by
  have leads : Leads machine.world (deliver source target sourceAddress targetAddress).run
      (Delivers source target sourceAddress targetAddress machine.world) fun _ => True := by
    have picks : Leads machine.world (pickUp source target sourceAddress).run _ fun _ => True :=
      leads_pickUp (fun _ _ _ => True) (fun _ => trivial) (fun _ => trivial)
        (fun _ _ _ _ _ _ _ _ _ _ => trivial) (fun _ _ _ _ => .of_all fun _ => trivial)
        fun _ _ _ => trivial
    refine picks.bindRun (fun carriage held picks => ?_) fun error held picks => .refused picks
    refine (leads_settle (fun _ => True) (fun _ => trivial) (fun key _ handle w _ => ?_)
      (fun _ _ _ _ _ _ _ => trivial) (fun _ _ _ _ _ => trivial) trivial).mono
      (fun _ _ settles => .settled picks settles) fun _ h => h
    exact leads_closeHandle (fun _ => trivial) fun _ _ _ _ _ => trivial
  exact leads.of_ok h

end

/-! ## Deliveries between buffers -/

section

variable {w : World} {stop : Fault → Prop} {source target client server : Key Thread}
variable {reply : CommandBuffer} {keeps : World → Prop}

/-- From buffer to buffer a delivery goes between the addresses at which they lie. -/
theorem leads_deliverBetween_of {post : Except DeliveryError Unit → World → Prop}
    (source_lost : w.threads.get? source = none → stop .discarded)
    (target_lost : w.threads.get? target = none → stop .discarded)
    (delivers : ∀ route : Route, w.threads.get? source = some route.sender →
      w.threads.get? target = some route.receiver →
        Leads w (deliver source target route.sender.commandBufferAddress
          route.receiver.commandBufferAddress).run post stop) :
    Leads w (deliverBetween source target).run post stop := by
  unfold deliverBetween
  rw [run_lift_bind]
  refine leads_threadAt_bind (fun sender fromSource => ?_) source_lost
  rw [run_lift_bind]
  refine leads_threadAt_bind (fun receiver toTarget => ?_) target_lost
  exact delivers ⟨sender, receiver⟩ fromSource toTarget

/-- After its delivery a request is read, which leaves the world alone. -/
theorem leads_openRequest_of (discarded : stop .discarded)
    (delivers : Leads w (deliverBetween client server).run (fun _ => keeps) stop) :
    Leads w (openRequest client server).run (fun _ => keeps) stop := by
  refine delivers.bindRun (fun _ next keeps => ?_) fun _ _ keeps => keeps
  have loads : Leads next (loadCommandBuffer server).run _ stop :=
    leads_loadCommandBuffer (fun _ => discarded) fun _ _ _ => discarded
  refine (loads.adapt DeliveryError.memory).bindRun ?_ ?_
  · rintro request last ⟨_, -, rfl, -⟩
    simp only [run_lift_bind]
    refine leads_threadAt_bind (fun _ _ => ?_) fun _ => discarded
    refine leads_threadAt_bind (fun _ _ => ?_) fun _ => discarded
    exact leads_note_bind (leads_run_pure keeps)
  · rintro error last ⟨_, -, rfl, -⟩
    exact keeps

/-- A reply is delivered once it is stored, and nothing happens if it cannot be stored. -/
theorem leads_closeRequest_of (discarded : stop .discarded) (start : keeps w)
    (delivers : ∀ stored (owner : Thread),
      Reaches w (storeCommandBuffer server reply).run (.ok ()) stored →
      w.Writes owner.owner owner.commandBufferAddress reply.toList (.ok ()) stored →
        Leads stored (deliverBetween server client).run (fun _ => keeps) stop) :
    Leads w (closeRequest client server reply).run (fun _ => keeps) stop := by
  have stores : Leads w (storeCommandBuffer server reply).run _ stop :=
    (leads_storeCommandBuffer (fun _ => discarded) fun _ _ _ => discarded).reaches
  refine (stores.adapt DeliveryError.memory).bindRun ?_ ?_
  · rintro ⟨⟩ stored ⟨outcome, renamed, ⟨owner, -, writes⟩, reaches⟩
    cases outcome with
    | error => cases renamed
    | ok => exact delivers stored owner reaches writes
  · rintro error next ⟨outcome, renamed, ⟨owner, -, writes⟩, -⟩
    cases writes with
    | written => cases renamed
    | refused => exact start

end

end MicrokernelIpc
