import MicrokernelIpc.Proofs.Kernel.ThreadBuffers
import MicrokernelIpc.Proofs.Trails

/-!
# Threads do not share their buffers

A process can give out a slot to each of up to 2^22 threads. The page of a slot may be mapped
already, by a thread that was made before or by the program, and then it keeps its bytes. What is
stored in one thread's command buffer is read back from there, and no other thread reads anything
else than before, whether or not it is of the same process and whether or not it can be read at all.
-/

namespace MicrokernelIpc

/-- How many threads a process can have in its life. -/
def threadLimit : Nat := 2 ^ 22

/-- A thread is made in the process. -/
def Operation.makesThreadIn (place : Key Process) : Operation → Bool
  | createThread owner _ => owner = place
  | _ => false

/-- How many threads the operations make in each process. -/
def threadsMade (ops : List Operation) (place : Key Process) : Nat :=
  ops.countP (·.makesThreadIn place)

namespace Thread

/-- The slots of two threads have no address in common. -/
def Apart (thread another : Thread) : Prop :=
  thread.tlsAddress.toNat + tlsEntrySize ≤ another.tlsAddress.toNat ∨
    another.tlsAddress.toNat + tlsEntrySize ≤ thread.tlsAddress.toNat

/-- The command buffer lies inside of the thread's slot, and in one page. -/
structure Encloses (thread : Thread) : Prop where
  first : thread.tlsAddress.toNat ≤ thread.commandBufferAddress.toNat
  last : thread.commandBufferAddress.toNat + CommandBuffer.size * 4
    ≤ thread.tlsAddress.toNat + tlsEntrySize
  page : thread.commandBufferAddress.toNat % AddressSpace.pageSize + CommandBuffer.size * 4
    ≤ AddressSpace.pageSize

end Thread

namespace World

/-- The byte at an address of a process, if it is mapped. -/
def byte? (w : World) (place : Key Process) (address : Nat) : Option UInt8 :=
  (w.memory? place).bind fun memory => memory.byte? address

/-- Every byte that was mapped is mapped and what it was. -/
def KeepsBytes (w w' : World) : Prop :=
  ∀ place address byte, w.byte? place address = some byte → w'.byte? place address = some byte

/-- The arena of the kernel is there. -/
def Housed (w : World) : Prop := (w.arenas.get? w.kernel.arena).isSome

/-- What stands in a thread's command buffer, as far as the thread, its process and its pages are
there. -/
def commandBuffer (w : World) (key : Key Thread) : Except Fault (Except MemoryError CommandBuffer) :=
  match w.threads.get? key with
  | none => .error .discarded
  | some thread =>
    match w.memory? thread.owner with
    | none => .error .discarded
    | some memory =>
      .ok ((memory.checkMapped thread.commandBufferAddress (CommandBuffer.size * 4)).map fun _ =>
        CommandBuffer.ofList (memory.wordsAt thread.commandBufferAddress.toNat CommandBuffer.size))

variable {w w' : World} {key other : Key Thread} {place owner : Key Process}

/-! ## Windows -/

/-- Different slots of a process lie beside each other. -/
theorem Reserved.apart {thread another : Thread}
    (reserved : w.Reserved thread.owner thread.tlsAddress)
    (reserved' : w.Reserved another.owner another.tlsAddress)
    (differ : thread.tlsAddress ≠ another.tlsAddress) : thread.Apart another := by
  obtain ⟨slot, first, -⟩ := reserved
  obtain ⟨slot', second, -⟩ := reserved'
  have slots : slot ≠ slot' := by
    rintro rfl
    exact differ (UInt32.toNat_inj.1 (first.trans second.symm))
  unfold Thread.Apart
  rw [first, second]
  simp only [tlsEntrySize]
  omega

theorem Reserved.encloses {thread : Thread}
    (reserved : w.Reserved thread.owner thread.tlsAddress) : thread.Encloses := by
  obtain ⟨address, page⟩ := reserved.commandBuffer
  refine ⟨?_, ?_, page⟩
  · rw [address]
    omega
  · rw [address]
    simp only [commandBufferOffset, CommandBuffer.size, tlsEntrySize]
    omega

/-! ## The arena of the kernel -/

theorem housed_new : World.new.Housed := by
  simp [Housed, World.new, Kernel.new, Roster.get?_add]

theorem isSome_setArena (a : Key Arena) (arena : Arena) (b : Key Arena) :
    ((w.setArena a arena).arenas.get? b).isSome = (w.arenas.get? b).isSome := by
  simp only [setArena, Roster.get?_modify]
  split <;> simp

theorem Housed.setArena (housed : w.Housed) (a : Key Arena) (arena : Arena) :
    (w.setArena a arena).Housed := by
  rwa [Housed, isSome_setArena]

theorem Alters.housed (alters : w.Alters w') (housed : w.Housed) : w'.Housed := by
  cases alters with
  | retained retained =>
    obtain ⟨_, _, _, _, rfl⟩ := exists_of_retain? retained
    exact housed.setArena _ _
  | released released =>
    obtain ⟨_, _, rfl⟩ := exists_of_release? released
    exact housed.setArena _ _
  | table table key => cases key <;> exact housed
  | tables => exact housed
  | process => exact housed
  | thread => exact housed
  | processGone => exact housed
  | threadGone => exact housed

theorem Inserts.housed {a : Key Arena} {object : KernelObject} {ref : ObjectRef}
    (inserts : w.Inserts a object ref w') (housed : w.Housed) : w'.Housed := by
  cases inserts with
  | intro found => exact housed.setArena _ _

theorem Housed.addArena (housed : w.Housed) : w.addArena.Housed := by
  unfold Housed World.addArena
  rw [Roster.get?_add]
  split
  · rfl
  · exact housed

end World

theorem Operation.Does.housed {w w' : World} {op : Operation} {gained : Multiset ObjectRef}
    (does : op.Does w gained w') (housed : w.Housed) : w'.Housed := by
  cases does with
  | drifts drifts =>
    induction drifts with
    | refl => exact housed
    | tail _ alters ih => exact alters.housed ih
  | inserts _ inserts => exact inserts.housed housed
  | process adds =>
    cases adds with
    | intro inserts => exact inserts.housed housed
  | thread adds =>
    cases adds with
    | intro _ inserts _ => exact inserts.housed housed
  | sessions adds =>
    cases adds with
    | intro first second => exact second.housed (first.housed housed)
  | arena => exact housed.addArena
  | kernel => simp [World.Housed, World.addArena, Kernel.new, Roster.get?_add]
  | changed => exact housed.setArena _ _

theorem Run.housed {s t : Situation} {admitted : Situation → Prop} (run : Run admitted s t)
    (housed : s.machine.world.Housed) : t.machine.world.Housed := by
  induction run with
  | refl => exact housed
  | @step _ op _ _ _ _ returned _ _ ih => exact (op.does_run.of_ok returned).housed ih

/-! ## Counting the slots -/

/-- A process has slots for all of its threads. -/
theorem Process.takeTlsSlot_ne_error {process : Process} {fault : Fault}
    (few : process.nextTlsSlot.toNat < threadLimit) : process.takeTlsSlot ≠ .error fault := by
  unfold takeTlsSlot
  dsimp only
  rw [if_pos]
  · exact fun same => nomatch same
  · simp only [threadLimit, tlsAreaAddress, tlsEntrySize, AddressSpace.addressLimit] at *
    omega

theorem Process.memory_of_takeTlsSlot {process next : Process} {address : UInt32}
    (taken : process.takeTlsSlot = .ok (address, next)) :
    next.memory = process.memory.map address AddressSpace.pageSize := by
  unfold takeTlsSlot at taken
  dsimp only at taken
  split at taken
  · obtain ⟨rfl, rfl⟩ := Prod.mk.inj (Except.ok.inj taken)
    rfl
  · cases taken

/-- A process gave out no more slots than threads were made in it. -/
def World.Counted (w : World) (made : Key Process → Nat) : Prop :=
  ∀ place process, w.processes.get? place = some process → process.nextTlsSlot.toNat ≤ made place

theorem World.Counted.keep {w w' : World} {made more : Key Process → Nat} (counted : w.Counted made)
    (keeps : w.KeepsSlots w') (le : ∀ place, made place ≤ more place) : w'.Counted more := by
  intro place after found
  rcases keeps.processes place after found with ⟨process, here, same⟩ | ⟨-, none⟩
  · rw [same]
    exact (counted place process here).trans (le place)
  · rw [none]
    exact Nat.zero_le _

theorem World.AddsThread.counted {w w' : World} {made : Key Process → Nat} {owner : Key Process}
    {name : String} {key : Key Thread} (adds : w.AddsThread owner name key w')
    (counted : w.Counted made) :
    w'.Counted fun place => made place + if owner = place then 1 else 0 := by
  cases adds with
  | intro found inserts taken =>
    intro place after there
    dsimp only [World.setProcess] at there
    rw [Roster.get?_modify, inserts.processes_eq] at there
    split at there
    · next e =>
      subst e
      obtain ⟨-, count⟩ := Process.of_takeTlsSlot taken
      obtain ⟨-, -, rfl⟩ := Option.map_eq_some_iff.1 there
      have := counted owner _ found
      dsimp only
      rw [if_pos rfl]
      omega
    · exact (counted place after there).trans (Nat.le_add_right _ _)

theorem Operation.Does.counted {w w' : World} {op : Operation} {gained : Multiset ObjectRef}
    {made : Key Process → Nat} (does : op.Does w gained w') (counted : w.Counted made) :
    w'.Counted fun place => made place + if op.makesThreadIn place then 1 else 0 := by
  rcases does.addsThread_or_keepsSlots with ⟨_, _, _, rfl, adds⟩ | keeps
  · simpa [Operation.makesThreadIn] using adds.counted counted
  · exact counted.keep keeps fun _ => Nat.le_add_right _ _

theorem Trail.counted {s t : Situation} {admitted : Situation → Prop}
    {asks : World → Operation → Prop} {ops : List Operation} {made : Key Process → Nat}
    (trail : Trail admitted asks s ops t) (counted : s.machine.world.Counted made) :
    t.machine.world.Counted fun place => made place + threadsMade ops place := by
  induction trail with
  | refl => exact counted
  | @step _ _ op _ _ _ _ _ returned _ _ ih =>
    intro place process found
    have count := (op.does_run.of_ok returned).counted ih place process found
    dsimp only at count ⊢
    unfold threadsMade at count ⊢
    rwa [List.countP_append, List.countP_singleton, ← Nat.add_assoc]

/-! ## Making a thread -/

namespace AddressSpace

variable {space : AddressSpace} {address other : UInt32} {size count : Nat}

/-- Mapping keeps what is mapped. -/
theorem byte?_map_of_some {a : Nat} {byte : UInt8} (mapped : space.byte? a = some byte) :
    (space.map address size).byte? a = some byte := by
  rw [byte?_map]
  split
  · rw [mapped, Option.getD_some]
  · exact mapped

/-- A range inside of what was mapped can be accessed. -/
theorem checkMapped_map (first : address.toNat ≤ other.toNat)
    (last : other.toNat + count ≤ address.toNat + size) (fits : other.toNat + count ≤ addressLimit) :
    (space.map address size).checkMapped other count = .ok () := by
  refine checkMapped_eq_ok_iff.2 ⟨fits, fun i inside => ?_⟩
  rw [byte?_map, if_pos]
  · rfl
  · refine mem_pageRange.2 ⟨by omega, ?_, ?_, ?_⟩ <;> simp only [pageSize, addressLimit] at * <;> omega

end AddressSpace

namespace World

variable {w w' : World} {key : Key Thread} {owner : Key Process} {name : String}

/-- The thread belongs to the process, and its command buffer is mapped. -/
def Maps (w : World) (key : Key Thread) (owner : Key Process) : Prop :=
  ∃ thread memory, w.threads.get? key = some thread ∧ thread.owner = owner ∧
    w.memory? owner = some memory ∧
    memory.checkMapped thread.commandBufferAddress (CommandBuffer.size * 4) = .ok ()

/-- A thread that is made has its buffer mapped, and all that was mapped is as it was. -/
theorem AddsThread.maps (adds : w.AddsThread owner name key w') (slotted : w.Slotted) :
    w'.Maps key owner ∧ w.KeepsBytes w' := by
  have slots := (adds.slotted slotted).1
  cases adds with
  | @intro process next object address mid found inserts taken =>
    have mapped := Process.memory_of_takeTlsSlot taken
    have there : mid.processes.get? owner = some process := inserts.processes_eq ▸ found
    constructor
    · refine ⟨_, next.memory, by rw [Roster.get?_add, if_pos rfl], rfl, ?_, ?_⟩
      · simp [memory?, World.setProcess, Roster.get?_modify, there]
      · have encloses := (slots.reserved _ _ (by rw [Roster.get?_add, if_pos rfl])).encloses
        obtain ⟨first, last, page⟩ := encloses
        rw [mapped]
        have low := (Thread.mk w.kernel.nextThreadId name object owner address 1).commandBufferAddress.toNat_lt
        refine AddressSpace.checkMapped_map first ?_ ?_
        · simp only [tlsEntrySize, AddressSpace.pageSize] at *
          omega
        · simp only [AddressSpace.pageSize, AddressSpace.addressLimit] at *
          omega
    · intro place a byte holds
      rw [byte?, memory?] at holds ⊢
      dsimp only [World.setProcess]
      rw [Roster.get?_modify, inserts.processes_eq]
      split
      · next e =>
        subst e
        rw [found] at holds ⊢
        show next.memory.byte? a = some byte
        rw [mapped]
        exact AddressSpace.byte?_map_of_some holds
      · exact holds

end World

/-! ## Reading and writing buffers -/

/-- What reading a thread's command buffer gives, or the fault that it stops on. -/
def Machine.commandBuffer (machine : Machine) (key : Key Thread) :
    Except Fault (Except MemoryError CommandBuffer) :=
  ((loadCommandBuffer key).run.runFrom machine).map Prod.fst

section

variable {w w' : World} {key other : Key Thread} {buffer : CommandBuffer}

/-- Reading gives what is in the world. -/
theorem Machine.commandBuffer_eq (machine : Machine) (key : Key Thread) :
    machine.commandBuffer key = machine.world.commandBuffer key := by
  have leads : Leads machine.world (loadCommandBuffer key).run
      (fun outcome _ => machine.world.commandBuffer key = .ok outcome)
      fun fault => machine.world.commandBuffer key = .error fault := by
    refine (leads_loadCommandBuffer (fun gone => ?_) fun thread found lost => ?_).mono ?_ fun _ h => h
    · simp [World.commandBuffer, gone]
    · simp [World.commandBuffer, found, World.memory?, lost]
    · rintro outcome _ ⟨-, thread, process, found, there, rfl⟩
      simp [World.commandBuffer, found, World.memory?, there]
  unfold Machine.commandBuffer Effect.runFrom
  split
  · next returned => exact (leads.of_ok returned).symm
  · next stopped => exact (leads.of_error stopped).symm

/-- What was written to a thread's buffer is there, and no other thread's buffer is another. -/
theorem World.Slotted.commandBuffer_of_writes {thread : Thread} (slotted : w.Slotted)
    (found : w.threads.get? key = some thread)
    (writes : w.Writes thread.owner thread.commandBufferAddress buffer.toList (.ok ()) w') :
    w'.commandBuffer key = .ok (.ok buffer) ∧
      ∀ other, other ≠ key → w'.commandBuffer other = w.commandBuffer other := by
  obtain ⟨memory, holds⟩ : ∃ memory, w.memory? thread.owner = some memory := by
    cases writes with
    | written there => exact ⟨_, by rw [memory?, there]; rfl⟩
  have length : buffer.toList.length = CommandBuffer.size := buffer.length_toList
  have checked := writes.checkMapped_eq holds
  rw [length] at checked
  constructor
  · have mapped := (AddressSpace.checkMapped_eq_ok_iff.1 checked).2
    have words : (memory.setWords thread.commandBufferAddress.toNat buffer.toList).wordsAt
        thread.commandBufferAddress.toNat CommandBuffer.size = buffer.toList := by
      rw [← length] at mapped ⊢
      exact AddressSpace.wordsAt_setWords mapped
    simp only [commandBuffer, writes.threads_eq, found, writes.memory?_eq holds,
      AddressSpace.checkMapped_setWords, checked, words, CommandBuffer.ofList_toList]
    rfl
  · intro other apart
    unfold commandBuffer
    rw [writes.threads_eq]
    cases there : w.threads.get? other with
    | none => rfl
    | some another =>
      dsimp only
      by_cases same : thread.owner = another.owner
      · have buffers := slotted.buffers_apart found there apart.symm same
        rw [← same, writes.memory?_eq holds, holds]
        dsimp only
        rw [AddressSpace.checkMapped_setWords, AddressSpace.wordsAt_setWords_of_apart]
        rw [length]
        exact buffers.symm
      · rw [memory?, writes.get?_processes_of_ne same, ← memory?]

end

/-! ## Every trail -/

/-- The threads of a machine, and those that were there before, do not get into each other's
buffers. -/
structure Isolated (past : World) (made : Key Process → Nat) (machine : Machine) : Prop where
  /-- The slots of the threads of a process lie apart, also from those of threads that are gone. -/
  windows : ∀ key other thread another, past.threads.get? key = some thread →
    machine.world.threads.get? other = some another → key ≠ other → thread.owner = another.owner →
      thread.Apart another
  buffers : ∀ key thread, machine.world.threads.get? key = some thread → thread.Encloses
  /-- A process with room for one more thread gets it, its buffer mapped and no byte lost. -/
  creates : ∀ owner process name, machine.world.processes.get? owner = some process →
    made owner < threadLimit → ∃ key next, createThread owner name machine = .ok key next ∧
      next.world.Maps key owner ∧ machine.world.KeepsBytes next.world
  /-- What a thread's buffer is set to is read from there, and from no other. -/
  stores : ∀ key buffer next, (storeCommandBuffer key buffer).run machine = .ok (.ok ()) next →
    next.commandBuffer key = .ok (.ok buffer) ∧
      ∀ other, other ≠ key → next.commandBuffer other = machine.commandBuffer other

section

variable {past : World} {machine : Machine} {made : Key Process → Nat}

theorem World.Slotted.creates {owner : Key Process} {process : Process} {name : String}
    (slotted : machine.world.Slotted) (housed : machine.world.Housed)
    (found : machine.world.processes.get? owner = some process)
    (few : process.nextTlsSlot.toNat < threadLimit) :
    ∃ key next, createThread owner name machine = .ok key next ∧ next.world.Maps key owner ∧
      machine.world.KeepsBytes next.world := by
  have leads : Leads machine.world (createThread owner name)
      (machine.world.AddsThread owner name) fun _ => False := by
    refine leads_createThread (fun none => ?_) (fun none => ?_) fun other fault there refused => ?_
    · simp [Housed, none] at housed
    · cases found.symm.trans none
    · obtain rfl := Option.some.inj (found.symm.trans there)
      exact Process.takeTlsSlot_ne_error few refused
  obtain ⟨key, next, returned, adds⟩ := leads.returns
  exact ⟨key, next, returned, adds.maps slotted⟩

theorem World.Slotted.stores {key : Key Thread} {buffer : CommandBuffer} {next : Machine}
    (slotted : machine.world.Slotted)
    (stored : (storeCommandBuffer key buffer).run machine = .ok (.ok ()) next) :
    next.commandBuffer key = .ok (.ok buffer) ∧
      ∀ other, other ≠ key → next.commandBuffer other = machine.commandBuffer other := by
  have leads : Leads machine.world (storeCommandBuffer key buffer).run _ fun _ => True :=
    leads_storeCommandBuffer (fun _ => trivial) fun _ _ _ => trivial
  obtain ⟨thread, found, writes⟩ := leads.of_ok stored
  obtain ⟨same, others⟩ := slotted.commandBuffer_of_writes found writes
  refine ⟨(next.commandBuffer_eq key).trans same, fun other apart => ?_⟩
  rw [next.commandBuffer_eq, machine.commandBuffer_eq, others other apart]

end

/-- **Threads do not share their buffers**, wherever a trail leads. -/
theorem Trail.isolated {admitted : Situation → Prop} {asks : World → Operation → Prop}
    {s t : Situation} {ops more : List Operation} (earlier : Trail admitted asks .new ops s)
    (later : Trail admitted asks s more t) :
    Isolated s.machine.world (threadsMade (ops ++ more)) t.machine := by
  have slotted := earlier.run.slotted World.slotted_new
  have slots := (later.run.slotted slotted.1).1
  have counted : t.machine.world.Counted fun owner =>
      0 + threadsMade (ops ++ more) owner :=
    (earlier.append later).counted fun place process found => by
      simp [Situation.new, Machine.new, World.new, Roster.empty, Roster.get?] at found
  refine ⟨?_, ?_, ?_, fun key buffer next stored => slots.stores stored⟩
  · intro key other thread another found there apart same
    have belongs := later.run.belongs slotted.1 (slotted.1.belongs found)
    have reserved := slots.reserved other another there
    exact belongs.reserved.apart reserved (belongs.alone other another there apart.symm same.symm).symm
  · exact fun key thread found => (slots.reserved key thread found).encloses
  · intro owner process name found few
    have housed := (earlier.append later).run.housed World.housed_new
    have count := counted owner process found
    dsimp only at count
    exact slots.creates housed found (by omega)

/-- Two threads of one process, between them a program that maps their page itself, and a thread of
another process. -/
theorem isolated_beside_program : ∃ ops more s t,
    Trail (fun _ => True) (fun _ _ => True) .new ops s ∧
    Trail (fun _ => True) (fun _ _ => True) s more t ∧ threadsMade (ops ++ more) ⟨0⟩ = 2 ∧
    (s.machine.world.threads.get? ⟨0⟩).isSome ∧ (t.machine.world.threads.get? ⟨2⟩).isSome ∧
    Isolated s.machine.world (threadsMade (ops ++ more)) t.machine := by
  have asked {ops : List Operation} : ∀ op ∈ ops, ∀ w : World, (fun _ _ => True) w op := by simp
  let start := Situation.performAll [.createProcess "one", .createThread ⟨0⟩ "a"]
  have first : List.foldlM Situation.perform? .new [.createProcess "one", .createThread ⟨0⟩ "a"]
      = some start := rfl
  have second : (List.foldlM Situation.perform? start
      [.runGuest ⟨0⟩ (AddressSpace.empty.map 0x1FF82000 4096), .createThread ⟨0⟩ "b",
        .createProcess "two", .createThread ⟨1⟩ "c"]).any
      (fun t => (t.machine.world.threads.get? ⟨2⟩).isSome) = true := by decide +kernel
  obtain ⟨t, second, third⟩ := (Option.any_eq_true _ _).1 second
  have earlier : Trail (fun _ => True) (fun _ _ => True) .new _ start :=
    .performs .refl asked (fun _ _ _ _ _ => trivial) (fun _ _ _ => trivial) first
  have later : Trail (fun _ => True) (fun _ _ => True) start _ t :=
    .performs .refl asked (fun _ _ _ _ _ => trivial) (fun _ _ _ => trivial) second
  exact ⟨_, _, _, _, earlier, later, rfl, rfl, third, Trail.isolated earlier later⟩

end MicrokernelIpc
