import MicrokernelIpc.Proofs.Kernel.Contents
import MicrokernelIpc.Proofs.Kernel.Identifiers

/-!
# Who processes and threads are

A process or a thread is known by its name and its identifier, and so is its record, which it holds a
reference to for as long as it lives. Each operation leaves those that are there who they were, or
makes one more with the next identifier.
-/

namespace MicrokernelIpc

/-- The thread is still the same, however many hold it. -/
structure Thread.Same (thread after : Thread) : Prop where
  threadId : after.threadId = thread.threadId
  name : after.name = thread.name
  object : after.object = thread.object
  owner : after.owner = thread.owner

/-- What the record of a process says. -/
def Process.record (process : Process) : KernelObject := .process ⟨process.name, process.processId⟩

/-- What the record of a thread says, which is in a process with the identifier. -/
def Thread.record (thread : Thread) (processId : UInt32) : KernelObject :=
  .thread ⟨thread.name, thread.threadId, processId⟩

theorem Process.Same.refl (process : Process) : process.Same process := ⟨rfl, rfl, rfl⟩

theorem Process.Same.trans {process next after : Process} (first : process.Same next)
    (second : next.Same after) : process.Same after :=
  ⟨second.processId.trans first.processId, second.name.trans first.name,
    second.object.trans first.object⟩

theorem Process.Same.record {process after : Process} (same : process.Same after) :
    after.record = process.record := by
  rw [Process.record, Process.record, same.name, same.processId]

theorem Thread.Same.refl (thread : Thread) : thread.Same thread := ⟨rfl, rfl, rfl, rfl⟩

theorem Thread.Same.trans {thread next after : Thread} (first : thread.Same next)
    (second : next.Same after) : thread.Same after :=
  ⟨second.threadId.trans first.threadId, second.name.trans first.name,
    second.object.trans first.object, second.owner.trans first.owner⟩

theorem Thread.Same.record {thread after : Thread} (same : thread.Same after) (processId : UInt32) :
    after.record processId = thread.record processId := by
  rw [Thread.record, Thread.record, same.name, same.threadId]

theorem Process.same_of_takeTlsSlot {process next : Process} {address : UInt32}
    (taken : process.takeTlsSlot = .ok (address, next)) : process.Same next := by
  unfold takeTlsSlot at taken
  dsimp only at taken
  split at taken
  · obtain ⟨-, rfl⟩ := Prod.mk.inj (Except.ok.inj taken)
    exact ⟨rfl, rfl, rfl⟩
  · cases taken

namespace World

/-- Every process and every thread that is there was there before, as the same. -/
structure KeepsParties (w w' : World) : Prop where
  processes : ∀ key after, w'.processes.get? key = some after →
    ∃ process, w.processes.get? key = some process ∧ process.Same after
  threads : ∀ key after, w'.threads.get? key = some after →
    ∃ thread, w.threads.get? key = some thread ∧ thread.Same after

/-- The kernel gives out an identifier, to what it makes in its arena. -/
structure Issues (w w' : World) (counter : Counter) (place : Key Arena) (id : UInt32) : Prop where
  here : place = w.kernel.arena
  next : id = w.kernel.next counter
  arena : place.index < w.arenas.next
  advanced : w'.kernel = w.kernel.advance counter

variable {w next w' : World} {key : TableKey} {place : Key Arena} {object : KernelObject}
variable {ref : ObjectRef} {name : String}

theorem keepsParties_of_eq (processes : w'.processes = w.processes) (threads : w'.threads = w.threads) :
    w.KeepsParties w' where
  processes _ process found := ⟨process, processes ▸ found, .refl process⟩
  threads _ thread found := ⟨thread, threads ▸ found, .refl thread⟩

theorem KeepsParties.trans (first : w.KeepsParties next) (second : next.KeepsParties w') :
    w.KeepsParties w' where
  processes key after found := by
    obtain ⟨mid, there, later⟩ := second.processes key after found
    obtain ⟨process, here, earlier⟩ := first.processes key mid there
    exact ⟨process, here, earlier.trans later⟩
  threads key after found := by
    obtain ⟨mid, there, later⟩ := second.threads key after found
    obtain ⟨thread, here, earlier⟩ := first.threads key mid there
    exact ⟨thread, here, earlier.trans later⟩

/-- A process that stays the same is put in its own place. -/
theorem keepsParties_modifyProcess {place : Key Process} {f : Process → Process}
    (same : ∀ process, w.processes.get? place = some process → process.Same (f process)) :
    w.KeepsParties { w with processes := w.processes.modify place f } where
  threads _ thread found := ⟨thread, found, .refl thread⟩
  processes other after found := by
    rw [Roster.get?_modify] at found
    split at found
    · next e =>
      subst e
      obtain ⟨process, here, rfl⟩ := Option.map_eq_some_iff.1 found
      exact ⟨process, here, same process here⟩
    · exact ⟨after, found, .refl after⟩

theorem Alters.keepsParties (alters : w.Alters w') : w.KeepsParties w' := by
  cases alters with
  | retained retained =>
    rw [of_retain? retained]
    exact keepsParties_of_eq rfl rfl
  | released released =>
    rw [of_release? released]
    exact keepsParties_of_eq rfl rfl
  | table table key =>
    cases key with
    | process place => exact keepsParties_modifyProcess fun _ _ => ⟨rfl, rfl, rfl⟩
    | standalone place => exact keepsParties_of_eq rfl rfl
  | tables => exact keepsParties_of_eq rfl rfl
  | process found same _ =>
    refine keepsParties_modifyProcess fun other there => ?_
    obtain rfl := Option.some.inj (found.symm.trans there)
    exact same
  | @thread place thread found holders =>
    refine ⟨fun _ process found => ⟨process, found, .refl process⟩, fun other after there => ?_⟩
    rw [setThread, Roster.get?_modify] at there
    split at there
    · next e =>
      subst e
      obtain ⟨_, -, rfl⟩ := Option.map_eq_some_iff.1 there
      exact ⟨thread, found, rfl, rfl, rfl, rfl⟩
    · exact ⟨after, there, .refl after⟩
  | processGone place =>
    refine ⟨fun other after there => ?_, fun _ thread found => ⟨thread, found, .refl thread⟩⟩
    rw [Roster.get?_remove] at there
    split at there
    · cases there
    · exact ⟨after, there, .refl after⟩
  | threadGone place =>
    refine ⟨fun _ process found => ⟨process, found, .refl process⟩, fun other after there => ?_⟩
    rw [Roster.get?_remove] at there
    split at there
    · cases there
    · exact ⟨after, there, .refl after⟩

theorem Drifts.keepsParties (drifts : w.Drifts w') : w.KeepsParties w' := by
  induction drifts with
  | refl => exact keepsParties_of_eq rfl rfl
  | tail _ alters ih => exact ih.trans alters.keepsParties

theorem Inserts.arena_eq (inserts : w.Inserts place object ref w') : ref.arena = place := by
  cases inserts
  rfl

theorem Inserts.index_lt (inserts : w.Inserts place object ref w') :
    place.index < w.arenas.next := by
  cases inserts with
  | intro found => exact Roster.index_lt_next found

theorem Inserts.object?_self (inserts : w.Inserts place object ref w') :
    w'.object? ref = some object := by
  rw [inserts.object?_eq, if_pos rfl]

/-- A process that is made is a new one with the next identifier and a record of its own. -/
theorem AddsProcess.parties {made : Key Process} (adds : w.AddsProcess name made w') :
    (∀ key after, w'.processes.get? key = some after →
      (∃ process, w.processes.get? key = some process ∧ process.Same after) ∨
        (key.index = w.processes.next ∧ w.Issues w' .process after.object.arena after.processId ∧
          w'.object? after.object = some after.record)) ∧
      w'.threads = w.threads := by
  cases adds with
  | @intro record mid inserts =>
    have kernel := inserts.kernel_eq
    refine ⟨fun key after found => ?_, inserts.threads_eq⟩
    rw [Roster.get?_add, inserts.processes_eq] at found
    split at found
    · next e =>
      obtain rfl := Option.some.inj found
      refine .inr ⟨?_, ⟨inserts.arena_eq, rfl, ?_, kernel⟩, inserts.object?_self⟩
      · rw [← e]
        rfl
      · have arena : record.arena = w.kernel.arena := inserts.arena_eq
        rw [Process.new, arena]
        exact inserts.index_lt
    · exact .inl ⟨after, found, .refl after⟩

/-- A thread that is made is a new one with the next identifier and a record of its own. -/
theorem AddsThread.parties {owner : Key Process} {made : Key Thread}
    (adds : w.AddsThread owner name made w') :
    (∀ key after, w'.threads.get? key = some after →
      (∃ thread, w.threads.get? key = some thread ∧ thread.Same after) ∨
        (key.index = w.threads.next ∧ w.Issues w' .thread after.object.arena after.threadId ∧
          ∃ process, w.processes.get? after.owner = some process ∧
            w'.object? after.object = some (after.record process.processId))) ∧
      ∀ key after, w'.processes.get? key = some after →
        ∃ process, w.processes.get? key = some process ∧ process.Same after := by
  cases adds with
  | @intro process slotted record address mid found inserts taken =>
    have kernel := inserts.kernel_eq
    constructor
    · intro key after there
      rw [Roster.get?_add, inserts.threads_eq] at there
      split at there
      · next e =>
        obtain rfl := Option.some.inj there
        refine .inr ⟨?_, ⟨inserts.arena_eq, rfl, ?_, kernel⟩, process, found, inserts.object?_self⟩
        · rw [← e]
          rfl
        · have arena : record.arena = w.kernel.arena := inserts.arena_eq
          rw [arena]
          exact inserts.index_lt
      · exact .inl ⟨after, there, .refl after⟩
    · intro key after there
      have here : mid.processes.get? owner = some process := inserts.processes_eq ▸ found
      have same : process.Same { slotted with holders := slotted.holders + 1 } :=
        (Process.same_of_takeTlsSlot taken).trans ⟨rfl, rfl, rfl⟩
      have kept : mid.KeepsParties (mid.setProcess owner { slotted with holders := slotted.holders + 1 }) :=
        keepsParties_modifyProcess fun other there => by
          obtain rfl := Option.some.inj (here.symm.trans there)
          exact same
      obtain ⟨before, there, same⟩ := kept.processes key after there
      exact ⟨before, inserts.processes_eq ▸ there, same⟩

theorem AddsSessionPair.keepsParties {server client : ObjectRef}
    (adds : w.AddsSessionPair name server client w') : w.KeepsParties w' := by
  cases adds with
  | intro first second =>
    exact keepsParties_of_eq (second.processes_eq.trans first.processes_eq)
      (second.threads_eq.trans first.threads_eq)

end World

/-! ## What an operation makes of processes and threads -/

namespace Operation.Does

variable {w w' : World} {op : Operation} {gained : Multiset ObjectRef}

/-- A process that is there was there before, or it is the one that was made. -/
theorem process_cases (does : op.Does w gained w') {key : Key Process} {after : Process}
    (found : w'.processes.get? key = some after) :
    (∃ process, w.processes.get? key = some process ∧ process.Same after) ∨
      (op.creates? = some (.counted .process) ∧ key.index = w.processes.next ∧
        w.Issues w' .process after.object.arena after.processId ∧
        w'.object? after.object = some after.record) := by
  have kept (keeps : w.KeepsParties w') := keeps.processes key after found
  cases does with
  | drifts drifts => exact .inl (kept (World.Drifts.keepsParties drifts))
  | inserts _ inserts => exact .inl ⟨after, inserts.processes_eq ▸ found, .refl after⟩
  | process adds => exact (adds.parties.1 key after found).imp id fun made => ⟨rfl, made⟩
  | thread adds => exact .inl (adds.parties.2 key after found)
  | sessions adds => exact .inl (kept adds.keepsParties)
  | arena => exact .inl ⟨after, found, .refl after⟩
  | kernel => exact .inl ⟨after, found, .refl after⟩
  | changed => exact .inl ⟨after, found, .refl after⟩

/-- A thread that is there was there before, or it is the one that was made. -/
theorem thread_cases (does : op.Does w gained w') {key : Key Thread} {after : Thread}
    (found : w'.threads.get? key = some after) :
    (∃ thread, w.threads.get? key = some thread ∧ thread.Same after) ∨
      (op.creates? = some (.counted .thread) ∧ key.index = w.threads.next ∧
        w.Issues w' .thread after.object.arena after.threadId ∧
        ∃ process, w.processes.get? after.owner = some process ∧
          w'.object? after.object = some (after.record process.processId)) := by
  have kept (keeps : w.KeepsParties w') := keeps.threads key after found
  cases does with
  | drifts drifts => exact .inl (kept (World.Drifts.keepsParties drifts))
  | inserts _ inserts => exact .inl ⟨after, inserts.threads_eq ▸ found, .refl after⟩
  | process adds => exact .inl ⟨after, adds.parties.2 ▸ found, .refl after⟩
  | thread adds => exact (adds.parties.1 key after found).imp id fun made => ⟨rfl, made⟩
  | sessions adds => exact .inl (kept adds.keepsParties)
  | arena => exact .inl ⟨after, found, .refl after⟩
  | kernel => exact .inl ⟨after, found, .refl after⟩
  | changed => exact .inl ⟨after, found, .refl after⟩

end Operation.Does

/-! ## Records -/

namespace World

/-- Every process has its record in an arena, and so has every thread, with the identifier of the
process that it is in. -/
structure Recorded (w : World) : Prop where
  processes : ∀ key process, w.processes.get? key = some process →
    w.object? process.object = some process.record
  threads : ∀ key thread, w.threads.get? key = some thread → ∃ processId,
    w.object? thread.object = some (thread.record processId) ∧
      ∀ process, w.processes.get? thread.owner = some process → process.processId = processId

variable {w w' past past' : World} {inserted inserted' : Nat} {held held' : Multiset ObjectRef}

section

variable {ref : ObjectRef} {object : KernelObject} (keeps : w.KeepsObjects w')
variable (sound : Sound True past inserted held w) (there : w.object? ref = some object)
variable (fixed : object.isFixed)
include keeps sound there fixed

/-- What cannot change is what it was, as long as it is there. -/
theorem KeepsObjects.eq_of_isFixed {after : KernelObject} (later : w'.object? ref = some after) :
    after = object := by
  obtain ⟨before, here, becomes⟩ := keeps ref after (sound.known_of_object there) later
  obtain rfl := Option.some.inj (there.symm.trans here)
  exact becomes.eq_of_isFixed fixed

/-- What cannot change and is still referred to is what it was. -/
theorem KeepsObjects.object?_of_isFixed (sound' : Sound True past' inserted' held' w')
    (counted : 0 < w'.count ref) : w'.object? ref = some object := by
  obtain ⟨after, later⟩ := sound'.exists_object counted
  rw [later, keeps.eq_of_isFixed sound there fixed later]

end

end World

theorem Operation.Does.recorded {w w' past past' : World} {inserted inserted' : Nat}
    {held held' : Multiset ObjectRef} {op : Operation} {gained : Multiset ObjectRef}
    (does : op.Does w gained w') (keeps : w.KeepsObjects w')
    (sound : World.Sound True past inserted held w)
    (sound' : World.Sound True past' inserted' held' w') (slotted : w.Slotted)
    (recorded : w.Recorded) : w'.Recorded where
  processes key after found := by
    rcases does.process_cases found with ⟨process, there, same⟩ | ⟨-, -, -, made⟩
    · have counted := World.count_pos_of_process found
      rw [same.object, same.record] at *
      exact keeps.object?_of_isFixed sound (recorded.processes key process there) rfl sound' counted
    · exact made
  threads key after found := by
    rcases does.thread_cases found with ⟨thread, there, same⟩ | ⟨-, -, -, owner, there, made⟩
    · obtain ⟨processId, record, owners⟩ := recorded.threads key thread there
      have counted := World.count_pos_of_thread found
      refine ⟨processId, ?_, fun process holds => ?_⟩
      · rw [same.object] at counted ⊢
        rw [same.record]
        exact keeps.object?_of_isFixed sound record rfl sound' counted
      · rw [same.owner] at holds
        rcases does.process_cases holds with ⟨before, here, still⟩ | ⟨-, new, -, -⟩
        · exact still.processId.trans (owners before here)
        · -- the process of a thread was made before the thread
          obtain ⟨_, -, old, -⟩ := slotted.reserved key thread there
          omega
    · refine ⟨owner.processId, made, fun process holds => ?_⟩
      rcases does.process_cases holds with ⟨before, here, still⟩ | ⟨-, new, -, -⟩
      · obtain rfl := Option.some.inj (there.symm.trans here)
        exact still.processId
      · have := Roster.index_lt_next there
        omega

/-! ## Identifiers are not shared -/

namespace World

/-- A process or a thread bears an identifier that the kernel of the arena gave out. -/
inductive IdOf (w : World) : Counter → Nat → Key Arena → UInt32 → Prop
  | process {key : Key Process} {process : Process} (found : w.processes.get? key = some process) :
      IdOf w .process key.index process.object.arena process.processId
  | thread {key : Key Thread} {thread : Thread} (found : w.threads.get? key = some thread) :
      IdOf w .thread key.index thread.object.arena thread.threadId

/-- The identifier was given out, and to none but the one under the index, whether or not that is
still there. -/
structure Claims (w : World) (counter : Counter) (most index : Nat) (place : Key Arena) (id : UInt32) :
    Prop where
  spent : w.Spent counter most place id
  alone : ∀ other another, w.IdOf counter other place another → other ≠ index → another ≠ id

/-- Each kind is counted, and whoever bears an identifier bears it alone. -/
structure Numbered (w : World) (made : Counter → Nat) : Prop where
  counts : ∀ counter, w.Counts counter (made counter)
  claims : ∀ counter index place id, w.IdOf counter index place id →
    w.Claims counter (made counter) index place id

theorem numbered_new : World.new.Numbered 0 where
  counts counter := ⟨0, le_rfl, (Kernel.next_new _ counter).trans (UInt32.add_zero _).symm⟩
  claims counter index place id bears := by
    cases bears with
    | process found => simp [World.new, Roster.empty, Roster.get?] at found
    | thread found => simp [World.new, Roster.empty, Roster.get?] at found

theorem AddsSessionPair.issues {w w' : World} {name : String} {server client : ObjectRef}
    (adds : w.AddsSessionPair name server client w') :
    w.Issues w' .session server.arena w.kernel.nextSessionId ∧ client.arena = server.arena := by
  cases adds with
  | intro first second =>
    refine ⟨⟨first.arena_eq, rfl, ?_, second.kernel_eq.trans first.kernel_eq⟩, ?_⟩
    · rw [first.arena_eq]
      exact first.index_lt
    · rw [first.arena_eq, second.arena_eq]

end World

namespace Operation.Does

variable {w w' : World} {op : Operation} {gained : Multiset ObjectRef} {counter : Counter}
variable {most index : Nat} {place : Key Arena} {id : UInt32}

/-- An identifier was borne before, or it was given out to the only one that is new. -/
theorem idOf_cases (does : op.Does w gained w') (bears : w'.IdOf counter index place id) :
    w.IdOf counter index place id ∨
      (op.creates? = some (.counted counter) ∧ w.Issues w' counter place id ∧
        ∀ other another, w'.IdOf counter other place another → other ≠ index →
          w.IdOf counter other place another) := by
  cases bears with
  | @process _ after found =>
    rcases does.process_cases found with ⟨process, there, same⟩ | ⟨creates, new, issues, -⟩
    · exact .inl (same.object ▸ same.processId ▸ .process there)
    · refine .inr ⟨creates, issues, fun other another bears apart => ?_⟩
      generalize after.object.arena = place at bears ⊢
      cases bears with
      | process found' =>
        rcases does.process_cases found' with ⟨process, there, same⟩ | ⟨-, new', -, -⟩
        · exact same.object ▸ same.processId ▸ .process there
        · exact absurd (new'.trans new.symm) apart
  | @thread _ after found =>
    rcases does.thread_cases found with ⟨thread, there, same⟩ | ⟨creates, new, issues, -⟩
    · exact .inl (same.object ▸ same.threadId ▸ .thread there)
    · refine .inr ⟨creates, issues, fun other another bears apart => ?_⟩
      generalize after.object.arena = place at bears ⊢
      cases bears with
      | thread found' =>
        rcases does.thread_cases found' with ⟨thread, there, same⟩ | ⟨-, new', -, -⟩
        · exact same.object ▸ same.threadId ▸ .thread there
        · exact absurd (new'.trans new.symm) apart

/-- An identifier that was given out is not given out again. -/
theorem claims (does : op.Does w gained w') (few : most < 2 ^ 32)
    (claims : w.Claims counter most index place id) :
    w'.Claims counter (most + created [op] (.counted counter)) index place id where
  spent := does.spent claims.spent
  alone other another bears apart := by
    rcases does.idOf_cases bears with old | ⟨-, issues, -⟩
    · exact claims.alone other another old apart
    · rw [issues.next]
      exact claims.spent.ne_next few issues.here.symm

theorem numbered {made : Counter → Nat} (does : op.Does w gained w') (few : ∀ counter, made counter < 2 ^ 32)
    (numbered : w.Numbered made) :
    w'.Numbered fun counter => made counter + created [op] (.counted counter) where
  counts counter := does.counts (numbered.counts counter)
  claims counter index place id bears := by
    rcases does.idOf_cases bears with old | ⟨creates, issues, others⟩
    · exact does.claims (few counter) (numbered.claims counter index place id old)
    · have here := issues.here.symm
      constructor
      · have made : w.kernel.arena.index < w'.arenas.next :=
          (here ▸ issues.arena).trans_le does.arenas_next
        have spent := (numbered.counts counter).spent made issues.advanced
        rw [created_singleton, if_pos creates]
        rwa [here, ← issues.next] at spent
      · intro other another bears apart
        have old := numbered.claims counter other place another (others other another bears apart)
        rw [issues.next]
        exact (old.spent.ne_next (few counter) here).symm

end Operation.Does

end MicrokernelIpc
