import MicrokernelIpc.Kernel.Memory
import MicrokernelIpc.Proofs.Kernel.Changes
import MicrokernelIpc.Proofs.Memory.ReadBack
import MicrokernelIpc.Proofs.Wire.CommandBuffer

/-!
# What accesses to memory do to the world

Reading the memory of a process leaves the world as it is, and so does a write that is
refused. No access stops on a fault of its own.
-/

namespace MicrokernelIpc

variable {α : Type} {w : World} {stop : Fault → Prop} {key : Key Process}

/-- An access that comes to its end, with a value or with an error. -/
theorem leads_accessMemory {access : MemoryAccess α} {post : Except MemoryError α → World → Prop}
    (lost : w.processes.get? key = none → stop .discarded)
    (ends : ∀ process, w.processes.get? key = some process →
      ∃ outcome memory, access.run process.memory = .ok outcome memory ∧
        post outcome (w.setProcess key { process with memory })) :
    Leads w (accessMemory key access).run post stop := by
  unfold accessMemory
  rw [run_lift_bind]
  refine leads_processAt_bind (fun process found => ?_) lost
  obtain ⟨outcome, memory, run, holds⟩ := ends process found
  rw [run]
  cases outcome with
  | ok value =>
    simp only [run_lift_bind]
    exact leads_modifyWorld_bind (leads_run_pure holds)
  | error error =>
    simp only [run_lift_bind]
    exact leads_modifyWorld_bind (leads_run_throw holds)

theorem leads_readWord {address : UInt32}
    (lost : w.processes.get? key = none → stop .discarded) :
    Leads w (accessMemory key (.readWord address)).run
      (fun outcome next => next = w ∧ ∃ process, w.processes.get? key = some process ∧
        outcome = (process.memory.checkMapped address 4).map fun _ =>
          process.memory.wordAt address.toNat) stop := by
  refine leads_accessMemory lost fun process found =>
    ⟨_, _, MemoryAccess.readWord_run process.memory address, ?_, process, found, rfl⟩
  exact World.setProcess_self found

theorem leads_readWords {address : UInt32} {count : Nat}
    (lost : w.processes.get? key = none → stop .discarded) :
    Leads w (accessMemory key (.readWords address count)).run
      (fun outcome next => next = w ∧ ∃ process, w.processes.get? key = some process ∧
        outcome = (process.memory.checkMapped address (count * 4)).map fun _ =>
          (List.range count).map fun index =>
            process.memory.wordAt (address.toNat + 4 * index)) stop := by
  refine leads_accessMemory lost fun process found =>
    ⟨_, _, MemoryAccess.readWords_run process.memory address count, ?_, process, found, rfl⟩
  exact World.setProcess_self found

/-- How the writing of a row of words ends. -/
inductive World.Writes (w : World) (key : Key Process) (address : UInt32) (words : List UInt32) :
    Except MemoryError Unit → World → Prop
  | written {process : Process} (found : w.processes.get? key = some process)
      (checked : process.memory.checkMapped address (words.length * 4) = .ok ()) :
      Writes w key address words (.ok ()) (w.setProcess key
        { process with memory := process.memory.setWords address.toNat words })
  | refused {process : Process} {error : MemoryError}
      (found : w.processes.get? key = some process)
      (checked : process.memory.checkMapped address (words.length * 4) = .error error) :
      Writes w key address words (.error error) w

section

variable {w' : World} {address : UInt32} {words : List UInt32} {memory : AddressSpace}
variable {outcome : Except MemoryError Unit}

/-- A write is allowed or refused by the memory as it is. -/
theorem World.Writes.checkMapped_eq (found : w.memory? key = some memory)
    (writes : w.Writes key address words outcome w') :
    memory.checkMapped address (words.length * 4) = outcome := by
  cases writes with
  | written there checked =>
    rw [World.memory?, there] at found
    obtain rfl := Option.some.inj found
    exact checked
  | refused there checked =>
    rw [World.memory?, there] at found
    obtain rfl := Option.some.inj found
    exact checked

/-- A write changes nothing of its process but the memory. -/
theorem World.Writes.get?_processes {process : Process}
    (found : w.processes.get? key = some process)
    (writes : w.Writes key address words (.ok ()) w') : w'.processes.get? key
      = some { process with memory := process.memory.setWords address.toNat words } := by
  cases writes with
  | written there =>
    obtain rfl := Option.some.inj (found.symm.trans there)
    simp [World.setProcess, Roster.get?_modify, found]

theorem World.Writes.get?_processes_of_ne {other : Key Process} (apart : key ≠ other)
    (writes : w.Writes key address words outcome w') :
    w'.processes.get? other = w.processes.get? other := by
  cases writes with
  | refused => rfl
  | written => simp [World.setProcess, Roster.get?_modify, apart]

theorem World.Writes.threads_eq (writes : w.Writes key address words outcome w') :
    w'.threads = w.threads := by
  cases writes <;> rfl

theorem World.Writes.memory?_eq (found : w.memory? key = some memory)
    (writes : w.Writes key address words (.ok ()) w') :
    w'.memory? key = some (memory.setWords address.toNat words) := by
  obtain ⟨process, there, rfl⟩ := Option.map_eq_some_iff.1 found
  rw [World.memory?, writes.get?_processes there]
  rfl

theorem World.Writes.table?_eq (writes : w.Writes key address words outcome w') (other : TableKey) :
    w'.table? other = w.table? other := by
  cases writes with
  | refused => rfl
  | @written process there checked => exact World.table?_setProcess_of_handles there rfl

end

theorem leads_writeWords {address : UInt32} {words : List UInt32}
    (lost : w.processes.get? key = none → stop .discarded) :
    Leads w (accessMemory key (.writeWords address words)).run (w.Writes key address words)
      stop := by
  apply leads_accessMemory lost
  intro process found
  have run := MemoryAccess.writeWords_run process.memory address words
  cases checked : process.memory.checkMapped address (words.length * 4) with
  | ok =>
    rw [checked] at run
    exact ⟨_, _, run, .written found checked⟩
  | error error =>
    rw [checked] at run
    refine ⟨_, _, run, ?_⟩
    have same := World.setProcess_self found
    exact same.symm ▸ .refused found checked

/-! ## Command buffers -/

section

variable {thread : Key Thread} {reply : CommandBuffer}
variable (gone : w.threads.get? thread = none → stop .discarded)
variable (lost : ∀ owner : Thread, w.threads.get? thread = some owner →
  w.processes.get? owner.owner = none → stop .discarded)
include gone lost

theorem leads_loadCommandBuffer : Leads w (loadCommandBuffer thread).run
    (fun outcome next => next = w ∧ ∃ owner process, w.threads.get? thread = some owner ∧
      w.processes.get? owner.owner = some process ∧
      outcome = (process.memory.checkMapped owner.commandBufferAddress (CommandBuffer.size * 4)).map
        fun _ => CommandBuffer.ofList
          (process.memory.wordsAt owner.commandBufferAddress.toNat CommandBuffer.size)) stop := by
  unfold loadCommandBuffer
  rw [run_lift_bind]
  refine leads_threadAt_bind (fun owner found => ?_) gone
  refine (leads_readWords (lost owner found)).bindRun ?_ ?_
  · rintro words next ⟨rfl, process, there, outcome⟩
    refine leads_run_pure ⟨rfl, owner, process, found, there, ?_⟩
    refine (congrArg (Except.map CommandBuffer.ofList) outcome).trans ?_
    cases process.memory.checkMapped owner.commandBufferAddress (CommandBuffer.size * 4) <;> rfl
  · rintro error next ⟨rfl, process, there, outcome⟩
    refine ⟨rfl, owner, process, found, there, ?_⟩
    refine (congrArg (Except.map CommandBuffer.ofList) outcome).trans ?_
    cases process.memory.checkMapped owner.commandBufferAddress (CommandBuffer.size * 4) <;> rfl

theorem leads_storeCommandBuffer : Leads w (storeCommandBuffer thread reply).run
    (fun outcome next => ∃ owner : Thread, w.threads.get? thread = some owner ∧
      w.Writes owner.owner owner.commandBufferAddress reply.toList outcome next) stop := by
  unfold storeCommandBuffer
  rw [run_lift_bind]
  exact leads_threadAt_bind (fun owner found => (leads_writeWords (lost owner found)).mono
    (fun _ _ writes => ⟨owner, found, writes⟩) fun _ h => h) gone

end

section

variable {thread : Key Thread} {owner : Thread} {process : Process} {reply : CommandBuffer}
variable (found : w.threads.get? thread = some owner)
variable (there : w.processes.get? owner.owner = some process)
variable (mapped : process.memory.checkMapped owner.commandBufferAddress
  (CommandBuffer.size * 4) = .ok ())
include found there mapped

theorem leads_loadCommandBuffer_of_mapped : Leads w (loadCommandBuffer thread).run
    (fun outcome next => next = w ∧ outcome = .ok (CommandBuffer.ofList
      (process.memory.wordsAt owner.commandBufferAddress.toNat CommandBuffer.size)))
    fun _ => False := by
  refine (leads_loadCommandBuffer (fun gone => ?_) fun other same lost => ?_).mono ?_ fun _ h => h
  · cases found.symm.trans gone
  · obtain rfl := Option.some.inj (found.symm.trans same)
    cases there.symm.trans lost
  · rintro outcome next ⟨rfl, other, holder, same, holds, rfl⟩
    obtain rfl := Option.some.inj (found.symm.trans same)
    obtain rfl := Option.some.inj (there.symm.trans holds)
    exact ⟨rfl, by rw [mapped]; rfl⟩

theorem leads_storeCommandBuffer_of_mapped : Leads w (storeCommandBuffer thread reply).run
    (fun outcome next => outcome = .ok () ∧
      w.Writes owner.owner owner.commandBufferAddress reply.toList (.ok ()) next)
    fun _ => False := by
  refine (leads_storeCommandBuffer (fun gone => ?_) fun other same lost => ?_).mono ?_ fun _ h => h
  · cases found.symm.trans gone
  · obtain rfl := Option.some.inj (found.symm.trans same)
    cases there.symm.trans lost
  · rintro outcome next ⟨other, same, writes⟩
    obtain rfl := Option.some.inj (found.symm.trans same)
    have memory : w.memory? owner.owner = some process.memory := by simp [World.memory?, there]
    have checked := writes.checkMapped_eq memory
    rw [reply.length_toList] at checked
    obtain rfl := checked.symm.trans mapped
    exact ⟨rfl, writes⟩

end

end MicrokernelIpc
