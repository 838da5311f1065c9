import Mathlib.Data.List.Forall2
import MicrokernelIpc.Proofs.Delivery.Handings
import MicrokernelIpc.Proofs.HandleTable.Extensions
import MicrokernelIpc.Proofs.Kernel.Changes

/-!
# What the handles of a command name

Between two processes nothing that is issued to the receiver is seen at the sender, so what each
handle of a command names can be told in advance: what it names when the delivery begins, unless
it is moved by an earlier word. The receiver's table gets one entry for each handle that names
something.
-/

namespace MicrokernelIpc

/-- What handles name, one after the other, if a handle that is moved is gone for those after it. -/
def names (find : Handle → Option ObjectRef) (gone : List Handle) :
    List (Bool × Handle) → List (Option ObjectRef)
  | [] => []
  | (moving, handle) :: rest =>
    match if gone.contains handle then none else find handle with
    | none => none :: names find gone rest
    | some object =>
      some object ::
        names find (if moving && !handle.isPseudo then gone ++ [handle] else gone) rest

/-- The handle of a table for what is to be named, zero for nothing. -/
def HandleTable.Names (table : HandleTable) : Option ObjectRef → Handle → Prop
  | none, handle => handle = .invalid
  | some object, handle => handle ≠ .invalid ∧ table.resolve handle = some object

/-- The entry that the receiver's table gets for a handle that is handed over. -/
def Handing.grant (handing : Handing) : Option (Handle × ObjectRef) :=
  handing.object.map fun object => (handing.issued, object)

theorem Handing.mem_grants {handings : List Handing} {handing : Handing} {object : ObjectRef}
    (mem : handing ∈ handings) (named : handing.object = some object) :
    (handing.issued, object) ∈ handings.filterMap Handing.grant :=
  List.mem_filterMap.2 ⟨handing, mem, by simp [Handing.grant, named]⟩

theorem Handing.length_grants (handings : List Handing) :
    (handings.filterMap Handing.grant).length
      = (handings.map Handing.object).countP Option.isSome := by
  induction handings with
  | nil => rfl
  | cons handing rest ih => cases h : handing.object <;> simp [Handing.grant, h, ih]

theorem World.table?_receiverTable {route : Route} {w : World} {receiver : Process}
    (receiving : w.processes.get? route.receiver.owner = some receiver) :
    w.table? route.receiverTable = some receiver.handles := by
  simp [table?, Route.receiverTable, receiving]

namespace Route

variable {route : Route} {ledger entered final : Ledger} {w held w' : World} {moving : Bool}
variable {handle : Handle} {word : UInt32} {handings : List Handing} {table base : HandleTable}
variable {issued : List (Handle × ObjectRef)}

theorem HandsOver.get?_processes
    (hands : route.HandsOver moving ledger handle w (.ok (word, entered)) w') (place : Key Process) :
    ∃ f : Process → HandleTable, w'.processes.get? place
      = (w.processes.get? place).map fun process => { process with handles := f process } := by
  cases hands with
  | unresolved => exact ⟨Process.handles, by simp⟩
  | @issued _ _ _ next _ _ retained found allocated =>
    refine ⟨fun process => if route.receiverTable = .process place then next else process.handles, ?_⟩
    rw [World.of_retain? retained, World.setTable_withArenas]
    refine (World.get?_processes_setTable place).trans (congrArg (Option.map · _) ?_)
    funext process
    split <;> rfl

/-- Handing handles over leaves everything alone of a process but its handles. -/
theorem HandsEach.get?_processes (each : route.HandsEach ledger handings w final w')
    (place : Key Process) : ∃ f : Process → HandleTable, w'.processes.get? place
      = (w.processes.get? place).map fun process => { process with handles := f process } := by
  induction each with
  | nil => exact ⟨Process.handles, by simp⟩
  | cons first _ ih =>
    obtain ⟨f, here⟩ := first.get?_processes place
    obtain ⟨g, later⟩ := ih
    refine ⟨fun process => g { process with handles := f process }, ?_⟩
    rw [later, here, Option.map_map]
    rfl

theorem HandsEach.memory?_eq (each : route.HandsEach ledger handings w final w')
    (place : Key Process) : w'.memory? place = w.memory? place := by
  obtain ⟨f, processes⟩ := each.get?_processes place
  rw [World.memory?, processes, Option.map_map]
  rfl

theorem HandsEach.threads_eq (each : route.HandsEach ledger handings w final w') :
    w'.threads = w.threads := by
  induction each with
  | nil => rfl
  | cons first _ ih =>
    rw [ih]
    cases first with
    | unresolved => rfl
    | issued named retained => rw [World.threads_setTable, World.threads_of_retain? retained]

/-- Between two processes nothing that is issued to the receiver is seen at the sender. -/
theorem HandsOver.find?_eq (apart : route.senderTable ≠ route.receiverTable)
    (hands : route.HandsOver moving ledger handle w (.ok (word, entered)) w') :
    route.find? w' = route.find? w := by
  obtain ⟨f, processes⟩ := hands.get?_processes route.sender.owner
  refine find?_congr ?_ ?_
  · rw [processes, Option.map_map]
    rfl
  · cases hands with
    | unresolved => rfl
    | issued named retained found allocated =>
      rw [World.table?_setTable, if_neg apart.symm, World.table?_of_retain? retained]

theorem HandsEach.names_eq (apart : route.senderTable ≠ route.receiverTable)
    (each : route.HandsEach ledger handings w final w') (rest : List (Bool × Handle)) :
    names (route.find? w) ledger.moved (handings.map Handing.sent ++ rest)
      = handings.map Handing.object ++ names (route.find? w') final.moved rest := by
  induction each with
  | nil => rfl
  | @cons ledger _ _ moving handle _ _ w _ _ first _ ih =>
    have same := first.find?_eq apart
    have looks : (if ledger.moved.contains handle then none else route.find? w handle)
        = route.named w ledger handle := rfl
    rw [List.map_cons, List.map_cons, List.cons_append, List.cons_append, ← ih, same,
      Handing.sent, names, looks]
    cases first with
    | unresolved named => rw [named]
    | issued named retained found allocated =>
      rw [named]
      rfl

/-- The receiver's table gets its entries one by one. -/
theorem HandsEach.extends (each : route.HandsEach ledger handings w final w')
    (found : w.table? route.receiverTable = some table) (extended : base.Extends issued table) :
    ∃ next, w'.table? route.receiverTable = some next ∧
      base.Extends (issued ++ handings.filterMap Handing.grant) next := by
  induction each generalizing issued table with
  | nil => exact ⟨table, found, by simpa using extended⟩
  | cons first _ ih =>
    cases first with
    | unresolved named =>
      obtain ⟨next, there, extended⟩ := ih found extended
      exact ⟨next, there, by simpa [List.filterMap_cons, Handing.grant, named] using extended⟩
    | @issued object _ _ next handle named retained found' allocated =>
      obtain rfl := Option.some.inj (found.symm.trans found')
      have same := (World.table?_of_retain? retained).trans found
      obtain ⟨last, there, extended⟩ :=
        ih (World.table?_setTable_self same next) (extended.allocate allocated)
      exact ⟨last, there, by simpa [List.filterMap_cons, Handing.grant, named] using extended⟩

/-- Zero is issued for what names nothing. -/
theorem HandsEach.issued_of_none (each : route.HandsEach ledger handings w final w')
    {handing : Handing} (mem : handing ∈ handings) (none : handing.object = none) :
    handing.issued = .invalid := by
  induction each with
  | nil => cases mem
  | cons first _ ih =>
    rcases List.mem_cons.1 mem with rfl | later
    · cases first with
      | unresolved => rfl
      | issued named => simp [named] at none
    · exact ih later

/-- What was issued to the receiver names there what was handed over. -/
theorem HandsEach.issued_names (each : route.HandsEach ledger handings w final w')
    (found : w.table? route.receiverTable = some table) (wf : table.WellFormed) :
    ∃ next, w'.table? route.receiverTable = some next ∧
      List.Forall₂ next.Names (handings.map Handing.object) (handings.map Handing.issued) := by
  obtain ⟨next, there, extended⟩ := each.extends found wf.extends
  rw [List.nil_append] at extended
  refine ⟨next, there, ?_⟩
  rw [List.forall₂_map_left_iff, List.forall₂_map_right_iff, List.forall₂_same]
  intro handing mem
  cases named : handing.object with
  | none => exact each.issued_of_none mem named
  | some object =>
    have granted := Handing.mem_grants mem named
    exact ⟨(extended.real_of_mem granted).1, extended.named _ granted⟩

end Route

end MicrokernelIpc
