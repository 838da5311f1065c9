import MicrokernelIpc.Proofs.Conservation.Delivery

/-!
# Runs of the kernel

A run is a sequence of operations, in any order, that returned. Between its callers and the
kernel references change hands: a caller may only share, let go of or hand over what it
holds. Guests run between the operations and leave their memory in any state, and objects
change by what is done with them.

A delivery takes its command up before it settles anything, and at that moment there are most
references; a run that keeps to a limit keeps to it there too.
-/

namespace MicrokernelIpc

/-- A machine, the references that its callers hold, and how many objects were inserted. -/
structure Situation where
  machine : Machine
  held : Multiset ObjectRef
  inserted : Nat

/-- What can be asked of the kernel, and what happens around it. -/
inductive Operation
  | newKernel
  | newArena
  | insert (arena : Key Arena) (object : KernelObject)
  | createProcess (name : String)
  | createThread (owner : Key Process) (name : String)
  | createEvent (name : String) (reset : ResetType)
  | createSemaphore (name : String) (initial maxCount : UInt32)
  | createSharedMemory (name : String) (size : Nat) (owner other : MemoryPermission)
  | createSessionPair (name : String)
  | share (ref : ObjectRef)
  | letGo (ref : ObjectRef)
  | change (ref : ObjectRef) (object : KernelObject)
  | newTable
  | discardTable (table : Key HandleTable)
  | create (table : TableKey) (ref : ObjectRef)
  | duplicate (table : TableKey) (handle : Handle)
  | close (table : TableKey) (handle : Handle)
  | take (table : TableKey) (handle : Handle)
  | acquire (table : TableKey) (handle : Handle)
  | clear (table : TableKey)
  | holdProcess (process : Key Process)
  | releaseProcess (process : Key Process)
  | holdThread (thread : Key Thread)
  | releaseThread (thread : Key Thread)
  /-- The program of a process runs and leaves its memory in some state. -/
  | runGuest (process : Key Process) (memory : AddressSpace)
  | deliver (source target : Key Thread) (sourceAddress targetAddress : UInt32)
  /-- A request arrives. What its handler does are the operations that follow. -/
  | openRequest (client server : Key Thread)
  /-- The reply to a request is put into the server's buffer and arrives. -/
  | closeRequest (client server : Key Thread) (reply : CommandBuffer)

namespace Operation

/-- The references that the caller has to hold, to share them, let them go or hand them over. -/
def needs : Operation → Multiset ObjectRef
  | share ref => {ref}
  | letGo ref => {ref}
  | create _ ref => {ref}
  | _ => 0

/-- The caller holds what it needs. -/
def Allowed (held : Multiset ObjectRef) (op : Operation) : Prop := op.needs ≤ held

instance (held : Multiset ObjectRef) (op : Operation) : Decidable (op.Allowed held) :=
  inferInstanceAs (Decidable (_ ≤ _))

/-- The references that the caller does not hold any more. -/
def gives : Operation → Multiset ObjectRef
  | letGo ref => {ref}
  | create _ ref => {ref}
  | _ => 0

/-- How many objects are inserted. -/
def inserts : Operation → Nat
  | insert .. => 1
  | createProcess .. => 1
  | createThread .. => 1
  | createEvent .. => 1
  | createSemaphore name initial maxCount =>
    if (Semaphore.make name initial maxCount).isOk then 1 else 0
  | createSharedMemory .. => 1
  | createSessionPair .. => 2
  | _ => 0

/-- What the kernel does. Gives the references that the caller holds from then on. -/
def run : Operation → Action (Multiset ObjectRef)
  | newKernel => do
    MicrokernelIpc.newKernel
    return 0
  | newArena => do
    let _ ← MicrokernelIpc.newArena
    return 0
  | insert arena object => return {← insertObject arena object}
  | createProcess name => do
    let _ ← MicrokernelIpc.createProcess name
    return 0
  | createThread owner name => do
    let _ ← MicrokernelIpc.createThread owner name
    return 0
  | createEvent name reset => return {← MicrokernelIpc.createEvent name reset}
  | createSemaphore name initial maxCount => do
    match ← (MicrokernelIpc.createSemaphore name initial maxCount).run with
    | .ok ref => return {ref}
    | .error _ => return 0
  | createSharedMemory name size owner other =>
    return {← MicrokernelIpc.createSharedMemory name size owner other}
  | createSessionPair name => do
    let (server, client) ← MicrokernelIpc.createSessionPair name
    return {server, client}
  | share ref => do
    retain ref
    return {ref}
  | letGo ref => do
    release ref
    return 0
  | change ref object => do
    setObject ref object
    return 0
  | newTable => do
    let _ ← MicrokernelIpc.newTable
    return 0
  | discardTable table => do
    MicrokernelIpc.discardTable table
    return 0
  | create table ref => do
    let _ ← (createHandle table ref).run
    return 0
  | duplicate table handle => do
    let _ ← (duplicateHandle table handle).run
    return 0
  | close table handle => do
    let _ ← (closeHandle table handle).run
    return 0
  | take table handle => return (← takeHandle table handle).toList
  | acquire table handle => return (← acquireHandle table handle).toList
  | clear table => do
    clearTable table
    return 0
  | holdProcess process => do
    MicrokernelIpc.holdProcess process
    return 0
  | releaseProcess process => do
    MicrokernelIpc.releaseProcess process
    return 0
  | holdThread thread => do
    MicrokernelIpc.holdThread thread
    return 0
  | releaseThread thread => do
    MicrokernelIpc.releaseThread thread
    return 0
  | runGuest key memory => do
    let process ← processAt key
    setProcess key { process with memory }
    return 0
  | deliver source target sourceAddress targetAddress => do
    let _ ← (MicrokernelIpc.deliver source target sourceAddress targetAddress).run
    return 0
  | openRequest client server => do
    let _ ← (MicrokernelIpc.openRequest client server).run
    return 0
  | closeRequest client server reply => do
    let _ ← (MicrokernelIpc.closeRequest client server reply).run
    return 0

/-- The worlds in which a command was taken up and its carriage is not settled yet. -/
def Passes (w w' : World) : Operation → Prop
  | deliver source target sourceAddress _ =>
    ∃ carriage, Reaches w (pickUp source target sourceAddress).run (.ok carriage) w'
  | openRequest client server =>
    ∃ sender carriage, w.threads.get? client = some sender ∧
      Reaches w (pickUp client server sender.commandBufferAddress).run (.ok carriage) w'
  | closeRequest client server reply =>
    ∃ stored sender carriage, Reaches w (storeCommandBuffer server reply).run (.ok ()) stored ∧
      stored.threads.get? server = some sender ∧
      Reaches stored (pickUp server client sender.commandBufferAddress).run (.ok carriage) w'
  | _ => False

end Operation

namespace Situation

/-- The situation that every run begins with. -/
def new : Situation := ⟨Machine.new, 0, 0⟩

/-- The number of references to an object, wherever they are held. -/
def references (s : Situation) (ref : ObjectRef) : Nat := s.machine.world.references s.held ref

/-- No object has 2^32 references, and fewer than 2^64 objects were inserted. -/
def WithinLimits (s : Situation) : Prop :=
  (∀ ref, s.references ref < 2 ^ 32) ∧ s.inserted < 2 ^ 64

/-- The situation after an operation. -/
def after (s : Situation) (op : Operation) (gained : Multiset ObjectRef) (machine : Machine) :
    Situation :=
  ⟨machine, gained + (s.held - op.gives), s.inserted + op.inserts⟩

/-- Perform an operation, if it is allowed and returns. -/
def perform? (s : Situation) (op : Operation) : Option Situation :=
  if op.Allowed s.held then
    match op.run s.machine with
    | .ok gained machine => some (s.after op gained machine)
    | .error _ _ => none
  else none

end Situation

/-- The situations that operations lead to as long as all on the way are admitted. -/
inductive Run (admitted : Situation → Prop) (start : Situation) : Situation → Prop
  | refl : Run admitted start start
  | step {s : Situation} {op : Operation} {gained : Multiset ObjectRef} {machine : Machine}
      (run : Run admitted start s) (allowed : op.Allowed s.held)
      (returned : op.run s.machine = .ok gained machine)
      (moments : ∀ moment : Machine, op.Passes s.machine.world moment.world →
        admitted { s with machine := moment })
      (reached : admitted (s.after op gained machine)) :
      Run admitted start (s.after op gained machine)

/-- The situations that operations lead to, whatever happens on the way. -/
def Situation.Reachable (s : Situation) : Prop := Run (fun _ => True) .new s

/-! ## What a step keeps -/

section

open World

variable {α : Type} {strict : Prop} {past w : World} {inserted : Nat} {held : Multiset ObjectRef}

/-- An action after which the caller holds what it held before. -/
theorem Leads.andNothing {action : Action α} {next : Nat}
    (leads : Leads w action (fun _ w' => Sound strict past next held w') (Excused strict)) :
    Leads w (do let _ ← action; return (0 : Multiset ObjectRef))
      (fun gained w' => Sound strict past next (gained + (held - 0)) w') (Excused strict) :=
  leads.bind fun _ _ sound => leads_pure (by simpa using sound)

/-- An action that gives the caller a reference. -/
theorem Leads.andReference {action : Action ObjectRef} {next : Nat}
    (leads : Leads w action (fun ref w' => Sound strict past next (ref ::ₘ held) w')
      (Excused strict)) :
    Leads w (do return ({← action} : Multiset ObjectRef))
      (fun gained w' => Sound strict past next (gained + (held - 0)) w') (Excused strict) :=
  leads.bind fun _ _ sound => leads_pure (by simpa using sound)

/-- An action that gives the caller a reference or none. -/
theorem Leads.andReferences {action : Action (Option ObjectRef)} {next : Nat}
    (leads : Leads w action (fun found w' => Sound strict past next (found.toList + held) w')
      (Excused strict)) :
    Leads w (do return ((← action).toList : Multiset ObjectRef))
      (fun gained w' => Sound strict past next (gained + (held - 0)) w') (Excused strict) :=
  leads.bind fun _ _ sound => leads_pure (by simpa using sound)

/-- An operation leads from a sound world to a sound one, and asks for no object that is
gone. -/
theorem Operation.sound_run (op : Operation) (sound : Sound strict past inserted held w)
    (limit : strict → Within held w) (inserts : strict → inserted + op.inserts < 2 ^ 64)
    (allowed : op.Allowed held)
    (moments : strict → ∀ moment, op.Passes w moment → Within held moment) :
    Leads w op.run
      (fun gained next =>
        Sound strict past (inserted + op.inserts) (gained + (held - op.gives)) next)
      (Excused strict) := by
  cases op with
  | newKernel => exact (sound_newKernel sound).andNothing
  | newArena => exact (sound_newArena sound).andNothing
  | insert arena object => exact (sound_insertObject sound inserts).andReference
  | createProcess name => exact (sound_createProcess sound inserts).andNothing
  | createThread owner name => exact (sound_createThread sound inserts).andNothing
  | createEvent name reset => exact (sound_createObject sound inserts).andReference
  | createSemaphore name initial maxCount =>
    apply (sound_createSemaphore sound rfl inserts).bind
    intro outcome _ sound
    cases outcome with
    | ok ref =>
      exact leads_pure (by
        simpa [Operation.gives, Operation.inserts, Except.toOption] using sound)
    | error =>
      exact leads_pure (by
        simpa [Operation.gives, Operation.inserts, Except.toOption] using sound)
  | createSharedMemory name size owner other =>
    exact (sound_createObject sound inserts).andReference
  | createSessionPair name =>
    exact (sound_createSessionPair sound inserts).bind fun _ _ sound =>
      leads_pure (by simpa [Operation.gives, Operation.inserts] using sound)
  | share ref =>
    have counted : 0 < w.references held ref := by
      have := Multiset.count_pos.2 (Multiset.singleton_le.1 allowed)
      rw [World.references]
      omega
    exact (sound_retain sound counted).bind fun _ _ sound =>
      leads_pure (by simpa [Operation.gives, Operation.inserts] using sound)
  | letGo ref =>
    rw [← Multiset.cons_erase (Multiset.singleton_le.1 allowed)] at sound limit
    exact (sound_release sound limit).bind fun _ _ h =>
      leads_pure (by simpa [Operation.gives, Operation.inserts] using h.1)
  | change ref object => exact (sound_setObject sound).andNothing
  | newTable => exact (sound_newTable sound).andNothing
  | discardTable table => exact (sound_discardTable sound limit).andNothing
  | create table ref =>
    rw [← Multiset.cons_erase (Multiset.singleton_le.1 allowed)] at sound limit
    exact (sound_createHandle sound fun h => (limit h).of_cons).bind fun _ _ sound =>
      leads_pure (by simpa [Operation.gives, Operation.inserts] using sound)
  | duplicate table handle => exact (sound_duplicateHandle sound limit).andNothing
  | close table handle =>
    exact ((sound_closeHandle sound limit).mono (fun _ _ h => h.1) fun _ h => h).andNothing
  | take table handle => exact (sound_takeHandle sound).andReferences
  | acquire table handle => exact (sound_acquireHandle sound).andReferences
  | clear table => exact (sound_clearTable sound limit).andNothing
  | holdProcess process => exact (sound_holdProcess sound).andNothing
  | releaseProcess process => exact (sound_releaseProcess sound limit).andNothing
  | holdThread thread => exact (sound_holdThread sound).andNothing
  | releaseThread thread => exact (sound_releaseThread sound limit).andNothing
  | runGuest key memory =>
    refine leads_processAt_bind (fun process found => ?_) fun _ => excused_discarded
    refine leads_modifyWorld_bind (leads_pure ?_)
    simpa [Operation.gives, Operation.inserts] using sound.setMemory found memory
  | deliver source target sourceAddress targetAddress =>
    exact (sound_deliver sound fun h carriage next reaches =>
      moments h next ⟨carriage, reaches⟩).andNothing
  | openRequest client server =>
    exact (sound_openRequest sound fun h sender carriage next found reaches =>
      moments h next ⟨sender, carriage, found, reaches⟩).andNothing
  | closeRequest client server reply =>
    exact (sound_closeRequest sound limit fun h stored sender carriage next stores found reaches =>
      moments h next ⟨stored, sender, carriage, stores, found, reaches⟩).andNothing

end

/-! ## What a run keeps -/

namespace Situation

/-- The world is sound with what the callers hold. -/
def Sound (strict : Prop) (past : World) (s : Situation) : Prop :=
  World.Sound strict past s.inserted s.held s.machine.world

theorem sound_new (strict : Prop) : Sound strict World.new new := World.Sound.of_new strict

theorem references_le (s : Situation) (ref : ObjectRef) :
    s.references ref ≤ s.held.card + s.machine.world.size :=
  Nat.add_le_add (Multiset.count_le_card ref s.held) (World.count_le_size _ ref)

theorem references_lt {s : Situation} {bound : Nat}
    (size : s.held.card + s.machine.world.size < bound) (ref : ObjectRef) : s.references ref < bound :=
  (s.references_le ref).trans_lt size

theorem withinLimits_of_size {s : Situation} (size : s.held.card + s.machine.world.size < 2 ^ 32)
    (inserted : s.inserted < 2 ^ 64) : s.WithinLimits :=
  ⟨references_lt size, inserted⟩

theorem withinLimits_new : WithinLimits new := withinLimits_of_size (by decide) (by decide)

end Situation

variable {past : World} {s t : Situation} {admitted : Situation → Prop}

theorem Run.perform {start : Situation} {op : Operation} (run : Run admitted start s)
    (performed : s.perform? op = some t)
    (moments : ∀ moment : Machine, op.Passes s.machine.world moment.world →
      admitted { s with machine := moment })
    (reached : admitted t) : Run admitted start t := by
  unfold Situation.perform? at performed
  split at performed
  · next allowed =>
    split at performed
    · next returned =>
      obtain rfl := Option.some.inj performed
      exact .step run allowed returned moments reached
    · cases performed
  · cases performed

/-- Whatever a run admits, it leads to what can be reached. -/
theorem Run.reachable (run : Run admitted .new s) : s.Reachable := by
  induction run with
  | refl => exact .refl
  | step _ allowed returned _ _ ih => exact .step ih allowed returned (fun _ _ => trivial) trivial

/-- Perform operations one after the other from the beginning, if all are allowed and return. -/
def Situation.performAll (ops : List Operation) : Situation := (ops.foldlM perform? new).getD new

theorem Situation.foldlM_perform?_new {ops : List Operation}
    (performs : (ops.foldlM perform? new).isSome) :
    ops.foldlM perform? new = some (performAll ops) := by
  obtain ⟨s, performed⟩ := Option.isSome_iff_exists.1 performs
  rw [performAll, performed, Option.getD_some]

theorem Situation.Reachable.performs {ops : List Operation} (reachable : s.Reachable)
    (performed : ops.foldlM perform? s = some t) : t.Reachable := by
  induction ops generalizing s with
  | nil => exact Option.some.inj performed ▸ reachable
  | cons op rest ih =>
    obtain ⟨next, first, after⟩ := Option.bind_eq_some_iff.1 performed
    exact ih (reachable.perform first (fun _ _ => trivial) trivial) after

theorem Situation.reachable_performAll (ops : List Operation) : (performAll ops).Reachable := by
  unfold performAll
  cases performed : ops.foldlM perform? new with
  | none => exact .refl
  | some t => exact Reachable.performs .refl performed

/-- The operation takes a command up on the way. -/
def Operation.isDelivery : Operation → Bool
  | deliver .. => true
  | openRequest .. => true
  | closeRequest .. => true
  | _ => false

theorem Operation.not_passes {op : Operation} {w w' : World} (quiet : op.isDelivery = false) :
    ¬ op.Passes w w' := by
  intro passes
  cases op <;> first | exact passes | cases quiet

/-- Operations that take no command up keep to the limits if all situations that they lead to do. -/
theorem Run.performs {ops : List Operation} {start : Situation}
    (run : Run Situation.WithinLimits start s) (quiet : ∀ op ∈ ops, op.isDelivery = false)
    (within : ∀ n t, (ops.take n).foldlM Situation.perform? s = some t → t.WithinLimits)
    (performed : ops.foldlM Situation.perform? s = some t) :
    Run Situation.WithinLimits start t := by
  induction ops generalizing s with
  | nil => exact Option.some.inj performed ▸ run
  | cons op rest ih =>
    obtain ⟨next, first, after⟩ := Option.bind_eq_some_iff.1 performed
    have here : next.WithinLimits := by
      refine within 1 next ?_
      rw [List.take_succ_cons, List.foldlM_cons, first]
      rfl
    refine ih (run.perform first (fun _ passes => ?_) here) (fun op mem => quiet op (by simp [mem]))
      (fun n t reached => ?_) after
    · exact (Operation.not_passes (quiet op (by simp)) passes).elim
    · refine within (n + 1) t ?_
      rw [List.take_succ_cons, List.foldlM_cons, first]
      exact reached

/-- A small situation that operations lead to is within the limits. -/
theorem Situation.withinLimits_take {ops : List Operation} {n : Nat}
    (small : ∀ n ≤ ops.length, (performAll (ops.take n)).held.card
        + (performAll (ops.take n)).machine.world.size < 2 ^ 32 ∧
      (performAll (ops.take n)).inserted < 2 ^ 64)
    (reached : (ops.take n).foldlM perform? new = some t) : t.WithinLimits := by
  have same : performAll (ops.take (min n ops.length)) = t := by
    rw [performAll, List.take_eq_take_min.symm, reached]
    rfl
  obtain ⟨size, inserted⟩ := small (min n ops.length) (Nat.min_le_right _ _)
  rw [same] at size inserted
  exact withinLimits_of_size size inserted

theorem Situation.run_performAll {ops : List Operation}
    (quiet : ∀ op ∈ ops, op.isDelivery = false)
    (small : ∀ n ≤ ops.length, (performAll (ops.take n)).held.card
        + (performAll (ops.take n)).machine.world.size < 2 ^ 32 ∧
      (performAll (ops.take n)).inserted < 2 ^ 64) :
    Run WithinLimits .new (performAll ops) := by
  unfold performAll
  cases performed : ops.foldlM perform? new with
  | none => exact .refl
  | some t => exact Run.performs .refl quiet (fun _ _ => withinLimits_take small) performed

/-- Two processes with a thread each. The first has a handle to an event, and a command at the
beginning of its memory that copies the handle and a pseudo-handle and then moves the handle. -/
def Situation.sending : Situation :=
  performAll [.createProcess "sender", .createProcess "receiver", .createThread ⟨0⟩ "sender",
    .createThread ⟨1⟩ "receiver", .createEvent "event" .oneShot,
    .create (.process ⟨0⟩) ⟨⟨0⟩, ⟨5⟩⟩,
    .runGuest ⟨0⟩ ((AddressSpace.empty.map 0 4096).setWords 0
      [0x10005, 0x4000000, 1, 0xFFFF8001, 0x10, 1])]

/-- A run keeps its situations sound, exactly if it is only admitted within the limits. -/
theorem Run.sound (strict : Prop) (limits : strict → ∀ s, admitted s → s.WithinLimits)
    (run : Run admitted s t) (sound : s.Sound strict past) (start : strict → s.WithinLimits) :
    t.Sound strict past ∧ (strict → t.WithinLimits) := by
  induction run with
  | refl => exact ⟨sound, start⟩
  | step run allowed returned moments reached ih =>
    obtain ⟨sound, within⟩ := ih
    refine ⟨?_, fun h => limits h _ reached⟩
    exact (Operation.sound_run _ sound (fun h => (within h).1) (fun h => (limits h _ reached).2)
      allowed fun h moment passes => (limits h _ (moments ⟨moment, #[]⟩ passes)).1).of_ok returned

/-- What is reached in any way is sound, whatever its counts have come to. -/
theorem Situation.Reachable.sound (reachable : s.Reachable) : s.Sound False World.new :=
  (Run.sound False (fun h => h.elim) reachable (sound_new False) fun h => h.elim).1

end MicrokernelIpc
