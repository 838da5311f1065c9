import MicrokernelIpc.Proofs.Kernel.Effects

/-!
# The slots of threads

A process gives out the slots of its thread-local storage one after the other, and nothing but the
making of a thread asks for one. So in every situation that is reached the threads of a process have
slots of their own, and the slot of a thread that is gone is not given out again.
-/

namespace MicrokernelIpc

namespace World

/-- The process, which was made before, gave out the slot at the address. -/
def Reserved (w : World) (owner : Key Process) (address : UInt32) : Prop :=
  ∃ slot, address.toNat = tlsAreaAddress + slot * tlsEntrySize ∧ owner.index < w.processes.next ∧
    ∀ process, w.processes.get? owner = some process → slot < process.nextTlsSlot.toNat

/-- Every thread has a slot of its process, and no two threads have the same. -/
structure Slotted (w : World) : Prop where
  reserved : ∀ key thread, w.threads.get? key = some thread →
    w.Reserved thread.owner thread.tlsAddress
  apart : ∀ key other thread another, w.threads.get? key = some thread →
    w.threads.get? other = some another → key ≠ other → thread.owner = another.owner →
      thread.tlsAddress ≠ another.tlsAddress

/-- No thread came or changed its slot, no process that was there gave out a slot or took one back,
and a process that came gave out none yet. -/
structure KeepsSlots (w w' : World) : Prop where
  threads : ∀ key after, w'.threads.get? key = some after → ∃ thread,
    w.threads.get? key = some thread ∧ after.owner = thread.owner ∧
      after.tlsAddress = thread.tlsAddress
  processes : ∀ place after, w'.processes.get? place = some after →
    (∃ process, w.processes.get? place = some process ∧ after.nextTlsSlot = process.nextTlsSlot) ∨
      w.processes.next ≤ place.index ∧ after.nextTlsSlot = 0
  next : w.processes.next ≤ w'.processes.next
  made : w.threads.next ≤ w'.threads.next

/-- A thread that was there and did not go is where it was. -/
structure KeepsPlaces (w w' : World) : Prop where
  threads : ∀ key after, w'.threads.get? key = some after → key.index < w.threads.next →
    ∃ thread, w.threads.get? key = some thread ∧ after.owner = thread.owner ∧
      after.tlsAddress = thread.tlsAddress
  made : w.threads.next ≤ w'.threads.next

/-- The process gave out the slot at the address, and to no thread but the one under the key,
whether or not that one is still there. -/
structure Belongs (w : World) (key : Key Thread) (owner : Key Process) (address : UInt32) : Prop where
  reserved : w.Reserved owner address
  alone : ∀ other thread, w.threads.get? other = some thread → other ≠ key → thread.owner = owner →
    thread.tlsAddress ≠ address

variable {w next w' : World} {key : Key Thread} {owner : Key Process} {address : UInt32}

theorem slotted_new : World.new.Slotted where
  reserved key thread found := by simp [World.new, Roster.empty, Roster.get?] at found
  apart key other thread another found := by simp [World.new, Roster.empty, Roster.get?] at found

theorem Slotted.belongs (slotted : w.Slotted) {thread : Thread}
    (found : w.threads.get? key = some thread) :
    w.Belongs key thread.owner thread.tlsAddress where
  reserved := slotted.reserved key thread found
  alone other another there apart same :=
    slotted.apart other key another thread there found apart same

/-! ## Worlds that keep the slots -/

theorem KeepsSlots.refl (w : World) : w.KeepsSlots w where
  threads _ thread found := ⟨thread, found, rfl, rfl⟩
  processes _ process found := .inl ⟨process, found, rfl⟩
  next := le_rfl
  made := le_rfl

theorem KeepsSlots.trans (first : w.KeepsSlots next) (second : next.KeepsSlots w') :
    w.KeepsSlots w' where
  threads key after found := by
    obtain ⟨mid, there, owner, address⟩ := second.threads key after found
    obtain ⟨thread, here, owner', address'⟩ := first.threads key mid there
    exact ⟨thread, here, owner.trans owner', address.trans address'⟩
  processes place after found := by
    rcases second.processes place after found with ⟨mid, there, same⟩ | ⟨new, none⟩
    · rcases first.processes place mid there with ⟨process, here, same'⟩ | ⟨new, none⟩
      · exact .inl ⟨process, here, same.trans same'⟩
      · exact .inr ⟨new, same.trans none⟩
    · exact .inr ⟨first.next.trans new, none⟩
  next := first.next.trans second.next
  made := first.made.trans second.made

theorem KeepsSlots.keepsPlaces (keeps : w.KeepsSlots w') : w.KeepsPlaces w' :=
  ⟨fun key after found _ => keeps.threads key after found, keeps.made⟩

theorem KeepsPlaces.refl (w : World) : w.KeepsPlaces w := (KeepsSlots.refl w).keepsPlaces

theorem KeepsPlaces.trans (first : w.KeepsPlaces next) (second : next.KeepsPlaces w') :
    w.KeepsPlaces w' where
  threads key after found old := by
    obtain ⟨mid, there, owner, address⟩ :=
      second.threads key after found (old.trans_le first.made)
    obtain ⟨thread, here, owner', address'⟩ := first.threads key mid there old
    exact ⟨thread, here, owner.trans owner', address.trans address'⟩
  made := first.made.trans second.made

theorem Reserved.keep (reserved : w.Reserved owner address) (keeps : w.KeepsSlots w') :
    w'.Reserved owner address := by
  obtain ⟨slot, place, made, given⟩ := reserved
  refine ⟨slot, place, made.trans_le keeps.next, fun after found => ?_⟩
  rcases keeps.processes owner after found with ⟨process, here, same⟩ | ⟨new, -⟩
  · exact same ▸ given process here
  · exact absurd made (Nat.not_lt.2 new)

theorem Belongs.keep (belongs : w.Belongs key owner address) (keeps : w.KeepsSlots w') :
    w'.Belongs key owner address where
  reserved := belongs.reserved.keep keeps
  alone other after found apart same := by
    obtain ⟨thread, here, owner, address⟩ := keeps.threads other after found
    exact address ▸ belongs.alone other thread here apart (owner ▸ same)

theorem Slotted.keep (slotted : w.Slotted) (keeps : w.KeepsSlots w') : w'.Slotted where
  reserved key after found := by
    obtain ⟨thread, here, owner, address⟩ := keeps.threads key after found
    rw [owner, address]
    exact (slotted.reserved key thread here).keep keeps
  apart key other after after' found found' apart same := by
    obtain ⟨thread, here, owner, address⟩ := keeps.threads key after found
    obtain ⟨another, there, owner', address'⟩ := keeps.threads other after' found'
    rw [address, address']
    exact slotted.apart key other thread another here there apart (owner ▸ owner' ▸ same)

/-- Threads and processes are told by their rosters alone. -/
theorem keepsSlots_of_eq (threads : w'.threads = w.threads) (processes : w'.processes = w.processes) :
    w.KeepsSlots w' where
  threads _ thread found := ⟨thread, threads ▸ found, rfl, rfl⟩
  processes _ process found := .inl ⟨process, processes ▸ found, rfl⟩
  next := by rw [processes]
  made := by rw [threads]

theorem keepsSlots_modifyProcess {place : Key Process} {f : Process → Process}
    (same : ∀ process, w.processes.get? place = some process →
      (f process).nextTlsSlot = process.nextTlsSlot) :
    w.KeepsSlots { w with processes := w.processes.modify place f } where
  threads _ thread found := ⟨thread, found, rfl, rfl⟩
  processes other after found := by
    rw [Roster.get?_modify] at found
    split at found
    · next e =>
      subst e
      obtain ⟨process, here, rfl⟩ := Option.map_eq_some_iff.1 found
      exact .inl ⟨process, here, same process here⟩
    · exact .inl ⟨after, found, rfl⟩
  next := le_rfl
  made := le_rfl

theorem Alters.keepsSlots (alters : w.Alters w') : w.KeepsSlots w' := by
  cases alters with
  | retained retained =>
    rw [of_retain? retained]
    exact keepsSlots_of_eq rfl rfl
  | released released =>
    rw [of_release? released]
    exact keepsSlots_of_eq rfl rfl
  | table table key =>
    cases key with
    | process place => exact keepsSlots_modifyProcess fun _ _ => rfl
    | standalone place => exact keepsSlots_of_eq rfl rfl
  | tables tables => exact keepsSlots_of_eq rfl rfl
  | process found same slots =>
    refine keepsSlots_modifyProcess fun other there => ?_
    obtain rfl := Option.some.inj (found.symm.trans there)
    exact slots
  | @thread place thread found holders =>
    refine ⟨fun other after there => ?_, fun _ process there => .inl ⟨process, there, rfl⟩,
      le_rfl, le_rfl⟩
    rw [setThread, Roster.get?_modify] at there
    split at there
    · next e =>
      subst e
      obtain ⟨_, -, rfl⟩ := Option.map_eq_some_iff.1 there
      exact ⟨thread, found, rfl, rfl⟩
    · exact ⟨after, there, rfl, rfl⟩
  | processGone place =>
    refine ⟨fun _ thread found => ⟨thread, found, rfl, rfl⟩, fun other after found => ?_, le_rfl,
      le_rfl⟩
    rw [Roster.get?_remove] at found
    split at found
    · cases found
    · exact .inl ⟨after, found, rfl⟩
  | threadGone place =>
    refine ⟨fun other after found => ?_, fun _ process found => .inl ⟨process, found, rfl⟩, le_rfl,
      le_rfl⟩
    rw [Roster.get?_remove] at found
    split at found
    · cases found
    · exact ⟨after, found, rfl, rfl⟩

theorem Drifts.keepsSlots (drifts : w.Drifts w') : w.KeepsSlots w' := by
  induction drifts with
  | refl => exact .refl w
  | tail _ alters ih => exact ih.trans alters.keepsSlots

theorem Writes.keepsSlots {place : Key Process} {words : List UInt32}
    {outcome : Except MemoryError Unit} (writes : w.Writes place address words outcome w') :
    w.KeepsSlots w' :=
  Drifts.keepsSlots writes.drifts

theorem Inserts.keepsSlots {place : Key Arena} {object : KernelObject} {ref : ObjectRef}
    (inserts : w.Inserts place object ref w') : w.KeepsSlots w' :=
  keepsSlots_of_eq inserts.threads_eq inserts.processes_eq

theorem AddsProcess.keepsSlots {name : String} {place : Key Process}
    (adds : w.AddsProcess name place w') : w.KeepsSlots w' := by
  cases adds with
  | @intro object mid inserts =>
    have kept : w.KeepsSlots mid := keepsSlots_of_eq inserts.threads_eq inserts.processes_eq
    refine kept.trans ⟨fun _ thread found => ⟨thread, found, rfl, rfl⟩, fun other after found => ?_,
      Nat.le_succ _, le_rfl⟩
    rw [Roster.get?_add] at found
    split at found
    · next e =>
      subst e
      obtain rfl := Option.some.inj found
      exact .inr ⟨le_rfl, rfl⟩
    · exact .inl ⟨after, found, rfl⟩

theorem AddsSessionPair.keepsSlots {name : String} {server client : ObjectRef}
    (adds : w.AddsSessionPair name server client w') : w.KeepsSlots w' := by
  cases adds with
  | @intro mid _ first second =>
    have kept : w.KeepsSlots mid := keepsSlots_of_eq first.threads_eq first.processes_eq
    exact kept.trans second.keepsSlots

end World

theorem Delivers.keepsSlots {w w' : World} {source target : Key Thread}
    {sourceAddress targetAddress : UInt32} {outcome : Except DeliveryError Unit}
    (delivers : Delivers source target sourceAddress targetAddress w outcome w') :
    w.KeepsSlots w' :=
  World.Drifts.keepsSlots delivers.drifts

/-! ## Making a thread -/

theorem Process.of_takeTlsSlot {process next : Process} {address : UInt32}
    (taken : process.takeTlsSlot = .ok (address, next)) :
    address.toNat = tlsAreaAddress + process.nextTlsSlot.toNat * tlsEntrySize ∧
      next.nextTlsSlot.toNat = process.nextTlsSlot.toNat + 1 := by
  unfold takeTlsSlot at taken
  dsimp only at taken
  split at taken
  · next inside =>
    obtain ⟨rfl, rfl⟩ := Prod.mk.inj (Except.ok.inj taken)
    simp only [tlsAreaAddress, tlsEntrySize, AddressSpace.addressLimit] at inside ⊢
    refine ⟨UInt32.toNat_ofNat_of_lt' inside, ?_⟩
    rw [UInt32.toNat_add, Nat.mod_eq_of_lt]
    · rfl
    · rw [UInt32.toNat_one]
      omega
  · cases taken

namespace World

variable {w w' : World} {key : Key Thread} {owner : Key Process} {address given : UInt32}
variable {process next : Process}

section

variable (found : w.processes.get? owner = some process)
include found

theorem Reserved.giveSlot {place : Key Process} (reserved : w.Reserved place address)
    (more : process.nextTlsSlot.toNat ≤ next.nextTlsSlot.toNat) :
    (w.setProcess owner next).Reserved place address := by
  obtain ⟨slot, same, made, given⟩ := reserved
  refine ⟨slot, same, made, fun after there => ?_⟩
  rw [setProcess, Roster.get?_modify] at there
  split at there
  · next e =>
    subst e
    rw [found] at there
    obtain rfl := Option.some.inj there
    exact (given process found).trans_le more
  · exact given after there

variable (place : given.toNat = tlsAreaAddress + process.nextTlsSlot.toNat * tlsEntrySize)
include place

/-- The next slot of a process was not given out before. -/
theorem Reserved.ne_given (reserved : w.Reserved owner address) : given ≠ address := by
  rintro rfl
  obtain ⟨slot, old, -, before⟩ := reserved
  have := before process found
  rw [place, tlsEntrySize] at old
  omega

/-- A process gives out its next slot, to no thread that is there. -/
theorem Slotted.giveSlot (slotted : w.Slotted)
    (count : next.nextTlsSlot.toNat = process.nextTlsSlot.toNat + 1) :
    (w.setProcess owner next).Slotted ∧ (w.setProcess owner next).Belongs key owner given := by
  have more : process.nextTlsSlot.toNat ≤ next.nextTlsSlot.toNat := by omega
  have kept : (w.setProcess owner next).Slotted :=
    ⟨fun key thread there => (slotted.reserved key thread there).giveSlot found more, slotted.apart⟩
  have made : owner.index < w.processes.next := Roster.index_lt_next found
  refine ⟨kept, ⟨_, place, made, fun after there => ?_⟩, ?_⟩
  · rw [setProcess, Roster.get?_modify, if_pos rfl, found] at there
    obtain rfl : next = after := Option.some.inj there
    omega
  · rintro other thread there - rfl
    exact ((slotted.reserved other thread there).ne_given found place).symm

end

variable {thread : Thread}

theorem Slotted.addThread (slotted : w.Slotted)
    (belongs : w.Belongs (w.threads.add thread).1 thread.owner thread.tlsAddress) :
    Slotted { w with threads := (w.threads.add thread).2 } where
  reserved key other found := by
    rw [Roster.get?_add] at found
    split at found
    · exact Option.some.inj found ▸ belongs.reserved
    · exact slotted.reserved key other found
  apart key other first second found found' apart same := by
    rw [Roster.get?_add] at found found'
    split at found
    · next e =>
      obtain rfl := Option.some.inj found
      rw [if_neg (e ▸ apart)] at found'
      exact (belongs.alone other second found' (e ▸ apart.symm) same.symm).symm
    · next new =>
      split at found'
      · obtain rfl := Option.some.inj found'
        exact belongs.alone key first found (Ne.symm new) same
      · exact slotted.apart key other first second found found' apart same

theorem Belongs.addThread (belongs : w.Belongs key owner address)
    (differs : thread.owner = owner → thread.tlsAddress ≠ address) :
    Belongs { w with threads := (w.threads.add thread).2 } key owner address where
  reserved := belongs.reserved
  alone other another found apart same := by
    rw [Roster.get?_add] at found
    split at found
    · obtain rfl := Option.some.inj found
      exact differs same
    · exact belongs.alone other another found apart same

theorem keepsPlaces_setProcess (place : Key Process) (process : Process) :
    w.KeepsPlaces (w.setProcess place process) :=
  ⟨fun _ thread found _ => ⟨thread, found, rfl, rfl⟩, le_rfl⟩

theorem keepsPlaces_addThread (thread : Thread) :
    w.KeepsPlaces { w with threads := (w.threads.add thread).2 } where
  threads key after found old := by
    rw [Roster.get?_add] at found
    split at found
    · next e =>
      subst e
      exact absurd old (Nat.lt_irrefl _)
    · exact ⟨after, found, rfl, rfl⟩
  made := Nat.le_succ _

/-- A thread that is made gets a slot of its own, and takes none from a thread that was there. -/
theorem AddsThread.slotted {name : String} {made : Key Thread}
    (adds : w.AddsThread owner name made w') (slotted : w.Slotted) :
    w'.Slotted ∧ w.KeepsPlaces w' ∧
      ∀ key place address, w.Belongs key place address → w'.Belongs key place address := by
  cases adds with
  | @intro process next object given mid found inserts taken =>
    obtain ⟨place, count⟩ := Process.of_takeTlsSlot taken
    have kept : w.KeepsSlots mid := keepsSlots_of_eq inserts.threads_eq inserts.processes_eq
    have there : mid.processes.get? owner = some process := inserts.processes_eq ▸ found
    have count : { next with holders := next.holders + 1 }.nextTlsSlot.toNat
        = process.nextTlsSlot.toNat + 1 := count
    obtain ⟨slotted, belongs⟩ := (slotted.keep kept).giveSlot there place count
    refine ⟨slotted.addThread belongs, ?_, fun key other address old => ?_⟩
    · exact kept.keepsPlaces.trans
        ((keepsPlaces_setProcess owner _).trans (keepsPlaces_addThread _))
    · have old := old.keep kept
      have more : process.nextTlsSlot.toNat
          ≤ { next with holders := next.holders + 1 }.nextTlsSlot.toNat := by omega
      have given : (mid.setProcess owner { next with holders := next.holders + 1 }).Belongs key other
          address := ⟨old.reserved.giveSlot there more, old.alone⟩
      refine given.addThread ?_
      rintro rfl
      exact old.reserved.ne_given there place

end World

/-! ## Runs -/

/-- An operation that makes no thread leaves every slot to its thread. -/
theorem Operation.Does.addsThread_or_keepsSlots {w w' : World} {op : Operation}
    {gained : Multiset ObjectRef} (does : op.Does w gained w') :
    (∃ owner name key, op = .createThread owner name ∧ w.AddsThread owner name key w') ∨
      w.KeepsSlots w' := by
  cases does with
  | drifts drifts => exact .inr (World.Drifts.keepsSlots drifts)
  | inserts _ inserts => exact .inr inserts.keepsSlots
  | process adds => exact .inr adds.keepsSlots
  | thread adds => exact .inl ⟨_, _, _, rfl, adds⟩
  | sessions adds => exact .inr adds.keepsSlots
  | arena => exact .inr (World.keepsSlots_of_eq rfl rfl)
  | kernel => exact .inr (World.keepsSlots_of_eq rfl rfl)
  | changed => exact .inr (World.keepsSlots_of_eq rfl rfl)

/-- Every operation leaves the threads where they are, with slots of their own, and those that are
gone with theirs. -/
theorem Operation.Does.slotted {w w' : World} {op : Operation} {gained : Multiset ObjectRef}
    (does : op.Does w gained w') (slotted : w.Slotted) :
    w'.Slotted ∧ w.KeepsPlaces w' ∧
      ∀ key place address, w.Belongs key place address → w'.Belongs key place address := by
  rcases does.addsThread_or_keepsSlots with ⟨_, _, _, -, adds⟩ | keeps
  · exact adds.slotted slotted
  · exact ⟨slotted.keep keeps, keeps.keepsPlaces, fun _ _ _ belongs => belongs.keep keeps⟩

section

variable {s t : Situation} {admitted : Situation → Prop} (run : Run admitted s t)
include run

/-- A run leaves the threads where they are, with slots of their own. -/
theorem Run.slotted (slotted : s.machine.world.Slotted) :
    t.machine.world.Slotted ∧ s.machine.world.KeepsPlaces t.machine.world := by
  induction run with
  | refl => exact ⟨slotted, .refl _⟩
  | @step _ op _ _ _ _ returned _ _ ih =>
    obtain ⟨kept, places⟩ := ih
    obtain ⟨last, later, -⟩ := (op.does_run.of_ok returned).slotted kept
    exact ⟨last, places.trans later⟩

/-- A slot stays its thread's, even when the thread is gone. -/
theorem Run.belongs (slotted : s.machine.world.Slotted) {key : Key Thread} {owner : Key Process}
    {address : UInt32} (belongs : s.machine.world.Belongs key owner address) :
    t.machine.world.Belongs key owner address := by
  induction run with
  | refl => exact belongs
  | @step _ op _ _ run _ returned _ _ ih =>
    obtain ⟨-, -, kept⟩ := (op.does_run.of_ok returned).slotted (run.slotted slotted).1
    exact kept _ _ _ ih

end

end MicrokernelIpc
