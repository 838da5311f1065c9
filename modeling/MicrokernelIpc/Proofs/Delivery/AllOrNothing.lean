import MicrokernelIpc.Proofs.HandleTable.Extensions
import MicrokernelIpc.Proofs.Kernel.Gains
import MicrokernelIpc.Proofs.Runs

/-!
# Deliveries are all or nothing

Until a carriage is settled a delivery only issues handles in the receiver's table, each with a
reference of its own. When it is refused the handles are closed again in the order in which
they were issued, and with the last of them every reference that was taken is gone. What
remains of the delivery is how the slots of the one table are laid out.
-/

namespace MicrokernelIpc

/-- The worlds differ at most in how one handle table is laid out, and not in what it names. -/
structure World.SameBut (key : TableKey) (w w' : World) : Prop where
  arenas : w'.arenas = w.arenas
  kernel : w'.kernel = w.kernel
  threads : w'.threads = w.threads
  processes : ∀ place, Option.Rel (fun old new : Process => new = { old with handles := new.handles })
    (w.processes.get? place) (w'.processes.get? place)
  tables : ∀ other, key ≠ other → w'.table? other = w.table? other
  table : Option.Rel (fun old new : HandleTable => new.live = old.live ∧
    ∀ handle, new.resolve handle = old.resolve handle) (w.table? key) (w'.table? key)

/-- Since a world nothing happened but that handles were issued in one table, each with a
reference of its own. -/
structure World.Issued (before : World) (key : TableKey) (issued : List (Handle × ObjectRef))
    (w : World) : Prop where
  gained : Gained (issued.map Prod.snd : List ObjectRef) before w
  counted : ∀ ref, w.count ref = before.count ref + (issued.map Prod.snd).count ref
  few : issued.length ≤ HandleTable.maxCount
  table : ∃ table, w = (before.setTable table key).withArenas w.arenas ∧
    ∀ base, before.table? key = some base → base.Extends issued table

namespace World

variable {before w w' : World} {key : TableKey} {issued : List (Handle × ObjectRef)}
variable {table next : HandleTable} {handle : Handle} {object : ObjectRef}

theorem setTable_of_none (lost : w.table? key = none) : w.setTable table key = w := by
  cases key with
  | process key =>
    have absent : w.processes.get? key = none := by simpa [table?] using lost
    simp [setTable, Roster.modify_of_none absent]
  | standalone key => simp [setTable, Roster.modify_of_none lost]

theorem issued_refl (wf : ∀ table, w.table? key = some table → table.WellFormed) :
    w.Issued key [] w := by
  refine ⟨.refl w, fun _ => rfl, Nat.zero_le _, ?_⟩
  cases found : w.table? key with
  | none => exact ⟨.empty, by simp [setTable_of_none found], by simp⟩
  | some table =>
    refine ⟨table, by simp [setTable_self found], fun base same => ?_⟩
    obtain rfl := Option.some.inj same
    exact (wf _ found).extends

theorem Issued.extends (issues : before.Issued key issued w) (found : w.table? key = some table) :
    ∃ base, before.table? key = some base ∧ base.Extends issued table ∧
      w = (before.setTable table key).withArenas w.arenas := by
  obtain ⟨current, same, extended⟩ := issues.table
  rw [same, table?_withArenas, table?_setTable, if_pos rfl] at found
  obtain ⟨base, there, rfl⟩ := Option.map_eq_some_iff.1 found
  exact ⟨base, there, extended base there, same⟩

/-- A handle is issued with a reference that was taken for it. -/
theorem Issued.allocate {held : World} (issues : before.Issued key issued w)
    (retained : w.retain? object = some held) (found : w.table? key = some table)
    (allocated : table.allocate object = some (handle, next)) :
    before.Issued key (issued ++ [(handle, object)]) (held.setTable next key) := by
  obtain ⟨base, there, extended, same⟩ := issues.extends found
  refine ⟨?_, fun ref => ?_, (extended.allocate allocated).length_le, next, ?_, fun other h => ?_⟩
  · have gained : Gained _ before (held.setTable next key) :=
      (issues.gained.retain retained).of_arenas (arenas_setTable next)
    have perm := List.perm_append_singleton object (issued.map Prod.snd)
    rwa [List.map_append, List.map_singleton, Multiset.coe_eq_coe.2 perm]
  · obtain ⟨index, -, -, fills⟩ := extended.wellFormed.fills_of_allocate allocated
    have moved := count_setTable ((table?_of_retain? retained).trans found) next ref
    have more := fills.count_objects ref
    have old := issues.counted ref
    rw [count_of_retain? retained] at moved
    simp only [List.map_append, List.count_append, List.map_singleton, List.count_singleton,
      beq_iff_eq]
    omega
  · rw [of_retain? retained, same]
    simp
  · obtain rfl := Option.some.inj (there.symm.trans h)
    exact extended.allocate allocated

/-- A reference that was taken in vain is let go again. -/
theorem Issued.release {held : World} (issues : before.Issued key issued w)
    (bears : before.Bears (issued.map Prod.snd : List ObjectRef)) (found : w.table? key = some table)
    (retained : w.retain? object = some held) (released : held.release? object = some w') :
    before.Issued key issued w' := by
  obtain ⟨base, there, extended, same⟩ := issues.extends found
  refine ⟨(issues.gained.retain retained).release bears released, fun ref => ?_, issues.few, table,
    ?_, fun other h => ?_⟩
  · rw [count_of_release? released, count_of_retain? retained, issues.counted]
  · rw [of_release? released, of_retain? retained, same]
    simp
  · obtain rfl := Option.some.inj (there.symm.trans h)
    exact extended

/-- The handle that was issued first is closed. -/
theorem Issued.close {outcome : Except HandleTableError Unit}
    (issues : before.Issued key ((handle, object) :: issued) w)
    (bears : before.Bears (issued.map Prod.snd : List ObjectRef))
    (closes : w.Closes key handle outcome w') :
    before.Issued key issued w' := by
  cases closes with
  | unknown found unresolved =>
    obtain ⟨base, there, extended, same⟩ := issues.extends found
    exact (extended.take_ne_none unresolved).elim
  | @closed table next _ _ found taken released =>
    obtain ⟨base, there, extended, same⟩ := issues.extends found
    obtain ⟨rfl, rest⟩ := extended.take taken
    refine ⟨?_, fun ref => ?_, rest.length_le, next, ?_, fun other h => ?_⟩
    · have gained : Gained _ before (w.setTable next key) :=
        issues.gained.of_arenas (arenas_setTable next)
      exact Gained.release gained bears released
    · obtain ⟨-, generation, empties⟩ := HandleTable.empties_of_take taken
      have moved := count_setTable found next ref
      have less := empties.count_objects ref
      have old := issues.counted ref
      simp only [List.map_cons, List.count_cons, beq_iff_eq] at old
      rw [count_of_release? released]
      omega
    · rw [of_release? released, same]
      simp
    · obtain rfl := Option.some.inj (there.symm.trans h)
      exact rest

/-- Whatever handles were issued between the worlds, their references can be counted. -/
def Withstands (before w : World) : Prop :=
  ∀ issued : List (Handle × ObjectRef), issued.length ≤ HandleTable.maxCount →
    (∀ ref, w.count ref = before.count ref + (issued.map Prod.snd).count ref) →
      before.Bears (issued.map Prod.snd : List ObjectRef)

theorem Roomy.withstands (roomy : before.Roomy HandleTable.maxCount) : before.Withstands w :=
  fun issued few _ => roomy.bears (by rwa [Multiset.coe_card, List.length_map])

/-- All handles that were issued are closed, from the first one on. -/
theorem Issued.closeAll (issues : before.Issued key issued w)
    (bears : before.Bears (issued.map Prod.snd : List ObjectRef))
    (closes : ClosesAll key (issued.map Prod.fst) w w') : before.Issued key [] w' := by
  induction issued generalizing w with
  | nil =>
    cases closes
    exact issues
  | cons entry rest ih =>
    cases closes with
    | cons first after =>
      have bears : before.Bears (rest.map Prod.snd : List ObjectRef) :=
        bears.mono (Multiset.coe_le.2 (List.sublist_cons_self _ _).subperm)
      exact ih (issues.close bears first) bears after

/-- With no handle left everything is as it was, but for the layout of the table. -/
theorem Issued.sameBut (issues : before.Issued key [] w) : before.SameBut key w := by
  obtain ⟨table, same, extended⟩ := issues.table
  have arenas := issues.gained.arenas_eq
  rw [arenas, ← arenas_setTable table, withArenas_self] at same
  subst same
  refine ⟨arenas, by cases key <;> rfl, by cases key <;> rfl, fun place => ?_, fun other h => ?_, ?_⟩
  · rw [get?_processes_setTable]
    cases before.processes.get? place with
    | none => exact .none
    | some process =>
      refine .some ?_
      split <;> rfl
  · rw [table?_setTable, if_neg h]
  · rw [table?_setTable, if_pos rfl]
    cases found : before.table? key with
    | none => exact .none
    | some base =>
      have extended := extended base found
      exact .some ⟨by simpa using extended.live, fun handle => extended.others handle (by simp)⟩

end World

/-! ## Through a delivery -/

variable {before w w' : World} {source target : Key Thread} {sourceAddress targetAddress : UInt32}
variable {carriage : Carriage}

/-- The ledger has the handles that were issued in the receiver's table. -/
def Route.Issues (route : Route) (before : World) (ledger : Ledger) (w : World) : Prop :=
  ∃ issued, issued.map Prod.fst = ledger.created ∧
    before.Issued route.receiverTable issued w

theorem Route.kept_issues (route : Route) : route.Kept (route.Issues before) := by
  rintro moving ledger w handle word entered next ⟨issued, created, issues⟩ hands
  cases hands with
  | unresolved => exact ⟨issued, created, issues⟩
  | issued named retained found allocated =>
    refine ⟨_, ?_, issues.allocate retained found allocated⟩
    simp [Ledger.enter, created]

/-- Whatever way a command was taken up, handles were issued and nothing else happened, if the
counts can bear it. -/
theorem PicksUp.issues_of_withstands (picks : PicksUp source target sourceAddress before (.ok carriage) w)
    (wf : ∀ key table, before.table? key = some table → table.WellFormed)
    (withstands : before.Withstands w) :
    before.threads.get? target = some carriage.route.receiver ∧
      carriage.route.Issues before carriage.ledger w := by
  have start : ∀ route : Route, route.Issues before .empty before :=
    fun route => ⟨[], rfl, World.issued_refl (wf _)⟩
  cases picks with
  | @carried route _ _ _ _ _ _ _ sender receiver owner fetched tiles carries =>
    exact ⟨receiver, carries.kept route.kept_issues (start route)⟩
  | @full route _ _ _ _ _ _ sender receiver owner fetched tiles carries =>
    obtain ⟨moving, handle, mid, ⟨issued, created, issues⟩, hands⟩ :=
      carries.stopped route.kept_issues (start route)
    cases hands with
    | full named retained found refused released =>
      have bears := withstands issued issues.few fun ref => by
        rw [World.count_of_release? released, World.count_of_retain? retained, issues.counted]
      exact ⟨receiver, issued, created, issues.release bears found retained released⟩

theorem PicksUp.issues (picks : PicksUp source target sourceAddress before (.ok carriage) w)
    (wf : ∀ key table, before.table? key = some table → table.WellFormed)
    (roomy : before.Roomy (HandleTable.maxCount + 1)) :
    before.threads.get? target = some carriage.route.receiver ∧
      carriage.route.Issues before carriage.ledger w :=
  picks.issues_of_withstands wf (roomy.mono (Nat.le_succ _)).withstands

/-- A carriage that is refused in the end is undone. -/
theorem Carriage.Settles.sameBut_of_withstands {error : DeliveryError}
    (settles : carriage.Settles targetAddress w (.error error) w')
    (issues : carriage.route.Issues before carriage.ledger w)
    (withstands : before.Withstands w) :
    before.SameBut carriage.route.receiverTable w' := by
  obtain ⟨issued, created, issues⟩ := issues
  have rolled := settles.rolled
  rw [← created] at rolled
  exact (issues.closeAll (withstands issued issues.few issues.counted) rolled).sameBut

theorem Carriage.Settles.sameBut {error : DeliveryError}
    (settles : carriage.Settles targetAddress w (.error error) w')
    (issues : carriage.route.Issues before carriage.ledger w)
    (roomy : before.Roomy (HandleTable.maxCount + 1)) :
    before.SameBut carriage.route.receiverTable w' :=
  settles.sameBut_of_withstands issues (roomy.mono (Nat.le_succ _)).withstands

theorem World.Sound.roomy {strict : Prop} {past : World} {inserted : Nat} {held : Multiset ObjectRef}
    (sound : World.Sound strict past inserted held w)
    (few : ∀ ref, w.references held ref < 2 ^ 31) : w.Roomy (2 ^ 31) := by
  intro ref entry found
  have agrees := sound.counts ref
  rw [World.refs?_eq_map, found] at agrees
  obtain ⟨k, low, high, same, -⟩ := agrees
  have := few ref
  rw [same, UInt32.toNat_ofNat']
  omega

/-- Where there are few references to each object, none gets too many when a command is taken up. -/
theorem World.Sound.within_of_few {strict : Prop} {past : World} {inserted : Nat}
    {held : Multiset ObjectRef} (sound : Sound strict past inserted held before)
    (few : ∀ ref, before.references held ref < 2 ^ 31)
    (reaches : Reaches before (pickUp source target sourceAddress).run (.ok carriage) w) :
    Within held w := by
  intro ref
  have roomy := (sound.roomy few).mono (show HandleTable.maxCount + 1 ≤ 2 ^ 31 by decide)
  obtain ⟨-, issued, -, issues⟩ :=
    ((sound_pickUp sound).of_reaches reaches).issues sound.tables roomy
  have old := few ref
  have bound := issues.few
  have length := (issued.map Prod.snd).count_le_length (a := ref)
  rw [List.length_map] at length
  rw [references, issues.counted]
  rw [references] at old
  rw [HandleTable.maxCount] at bound
  omega

/-- **Deliveries are all or nothing.** A delivery that is refused leaves every object with its
references, every memory and all that any handle table names as they were. -/
theorem deliver_refused {s : Situation} {machine : Machine} {error : DeliveryError}
    (reachable : s.Reachable) (few : ∀ ref, s.references ref < 2 ^ 31)
    (refused : (deliver source target sourceAddress targetAddress).run s.machine
      = .ok (.error error) machine) :
    ∃ receiver, s.machine.world.threads.get? target = some receiver ∧
      s.machine.world.SameBut (.process receiver.owner) machine.world := by
  have sound := reachable.sound
  have roomy := (sound.roomy few).mono (show HandleTable.maxCount + 1 ≤ 2 ^ 31 by decide)
  have delivers := delivers_of_ok refused
  generalize machine.world = w' at delivers ⊢
  cases delivers with
  | refused picks =>
    cases picks with
    | refused receiver =>
      exact ⟨_, receiver, (World.issued_refl (sound.tables _)).sameBut⟩
  | settled picks settles =>
    obtain ⟨receiver, issues⟩ := picks.issues sound.tables roomy
    exact ⟨_, receiver, settles.sameBut issues roomy⟩

/-- The receiver has no page at the address. -/
theorem deliver_refused_unmapped : ∃ receiver machine,
    (deliver ⟨0⟩ ⟨1⟩ 0 0).run Situation.sending.machine
        = .ok (.error (.memory (.unmapped 0))) machine ∧
      Situation.sending.machine.world.SameBut (.process receiver) machine.world := by
  have few : ∀ ref, Situation.sending.references ref < 2 ^ 31 :=
    Situation.references_lt (by decide +kernel)
  have ends : (Effect.runFrom (deliver ⟨0⟩ ⟨1⟩ 0 0).run Situation.sending.machine).map Prod.fst
      = .ok (.error (.memory (.unmapped 0))) := by decide +kernel
  obtain ⟨_, machine, refused, rfl⟩ := exists_of_runFrom ends
  obtain ⟨receiver, -, same⟩ := deliver_refused (Situation.reachable_performAll _) few refused
  exact ⟨receiver.owner, machine, refused, same⟩

end MicrokernelIpc
