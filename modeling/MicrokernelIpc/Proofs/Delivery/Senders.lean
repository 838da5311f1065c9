import MicrokernelIpc.Proofs.Delivery.SharedTable

/-!
# Who sent a command

A command that arrives tells who sent it: where its region asks for the sender's process id stands
that id, and where a pseudo-handle was sent stands a handle of the receiver for the record of the
sending thread or of its process. No word of the command can make it tell anything else.
-/

namespace MicrokernelIpc

/-- The words of a transfer region that stand for the id of the process that sends it. -/
def callerIds : List UInt32 → List UInt32
  | [] => []
  | word :: rest =>
    match Descriptor.decode word with
    | .error _ => []
    | .ok descriptor =>
      (if descriptor = .callingPid then rest.take 1 else [])
        ++ callerIds (rest.drop descriptor.payloadWords)
termination_by words => words.length
decreasing_by
  rw [List.length_drop, List.length_cons]
  exact Nat.lt_succ_of_le (Nat.sub_le _ _)

theorem callerIds_cons {word : UInt32} {payload rest : List UInt32} {descriptor : Descriptor}
    (decoded : Descriptor.decode word = .ok descriptor)
    (length : payload.length = descriptor.payloadWords) :
    callerIds (word :: (payload ++ rest))
      = (if descriptor = .callingPid then payload else []) ++ callerIds rest := by
  rw [callerIds, decoded]
  dsimp only
  rw [List.drop_left' length]
  split
  · next pid =>
    subst pid
    have one : payload.length = 1 := length
    rw [List.take_left' one]
  · rfl

/-- The object that a pseudo-handle stands for at the sender. -/
def Route.own (route : Route) (process : Process) : PseudoHandle → ObjectRef
  | .currentThread => route.sender.object
  | .currentProcess => process.object

/-- The handle of the table names the object, unless it was closed again, and no other. -/
structure HandleTable.Tells (table : HandleTable) (closed : Prop) (handle : Handle)
    (object : ObjectRef) : Prop where
  named : ¬ closed → table.resolve handle = some object
  only : ∀ other, table.resolve handle = some other → other = object

/-- A command that arrived tells who sent it. What was issued for a pseudo-handle is only closed again
inside of a process, by a later handle of the command that is moved and happens to have its value. -/
structure Route.Attests (route : Route) (process : Process) (sent received : List UInt32)
    (table : HandleTable) : Prop where
  ids : callerIds received = (callerIds sent).map fun _ => process.processId
  handles : ∃ handings : List Handing, survey sent = .ok (handings.map Handing.sent) ∧
    survey received = .ok (handings.map Handing.received) ∧
    ∀ earlier handing later, handings = earlier ++ handing :: later →
      ∀ pseudo, handing.handle.pseudo? = some pseudo →
        table.Tells (route.senderTable = route.receiverTable ∧
            ∃ other ∈ later, other.moving = true ∧ other.handle = handing.issued)
          handing.issued (route.own process pseudo)

namespace Route

variable {route : Route} {ledger entered final : Ledger} {w held w' : World} {process : Process}
variable {moving : Bool} {handle : Handle} {word : UInt32} {handings : List Handing}
variable {words new : List UInt32}

/-- No pseudo-handle is lost by its sender. -/
def Real (ledger : Ledger) : Prop := ∀ handle ∈ ledger.moved, handle.pseudo? = none

theorem HandsOver.real (hands : route.HandsOver moving ledger handle w (.ok (word, entered)) w')
    (real : Real ledger) : Real entered := by
  cases hands with
  | unresolved => exact real
  | issued =>
    by_cases moves : (moving && !handle.isPseudo) = true
    · intro other mem
      rw [ledger.moved_enter_of_moves _ moves, List.mem_append, List.mem_singleton] at mem
      rcases mem with old | rfl
      · exact real other old
      · simpa [Handle.isPseudo] using (Bool.and_eq_true_iff.1 moves).2
    · unfold Real
      rw [ledger.moved_enter_of_stays _ moves]
      exact real

theorem named_of_pseudo (real : Real ledger) {pseudo : PseudoHandle}
    (found : w.processes.get? route.sender.owner = some process)
    (stands : handle.pseudo? = some pseudo) :
    route.named w ledger handle = some (route.own process pseudo) := by
  have kept : ledger.moved.contains handle = false := by
    rw [Bool.eq_false_iff]
    intro moved
    have := real handle (List.contains_iff_mem.1 moved)
    simp [stands] at this
  rw [named, kept, if_neg Bool.false_ne_true, find?, stands]
  cases pseudo with
  | currentThread => rfl
  | currentProcess =>
    dsimp only
    rw [found]
    rfl

/-- A pseudo-handle names the sender, wherever it stands in a command. -/
theorem HandsEach.object_of_pseudo (each : route.HandsEach ledger handings w final w')
    (real : Real ledger) (found : w.processes.get? route.sender.owner = some process)
    {handing : Handing} (mem : handing ∈ handings) {pseudo : PseudoHandle}
    (stands : handing.handle.pseudo? = some pseudo) :
    handing.object = some (route.own process pseudo) := by
  induction each generalizing process with
  | nil => cases mem
  | cons first _ ih =>
    rcases List.mem_cons.1 mem with rfl | later
    · exact named_of_pseudo real found stands
    · obtain ⟨f, processes⟩ := first.get?_processes route.sender.owner
      rw [found] at processes
      rw [ih (first.real real) processes later]
      cases pseudo <;> rfl

/-- A walk puts the sender's process id where it is asked for, and nowhere is it lost. -/
theorem Walks.callerIds_eq (walks : route.Walks ledger words w new final w')
    (found : w.processes.get? route.sender.owner = some process) :
    callerIds new = (callerIds words).map fun _ => process.processId := by
  induction walks generalizing process with
  | nil => rw [callerIds, List.map_nil]
  | @cons ledger entered final descriptor word payload new rest after w held w' decoded length first
      _ ih =>
    obtain ⟨handings, -, -, each⟩ := first.handsEach
    obtain ⟨f, processes⟩ := each.get?_processes route.sender.owner
    rw [found] at processes
    have later := ih processes
    rw [callerIds_cons decoded length, callerIds_cons decoded (first.length length), later,
      List.map_append]
    congr 1
    split
    · next pid =>
      subst pid
      cases first with
      | handles announced => cases announced
      | @callingPid other _ there =>
        obtain rfl := Option.some.inj (found.symm.trans there)
        obtain ⟨word, rfl⟩ := List.length_eq_one_iff.1 length
        rfl
      | buffer _ plain => exact (plain rfl).elim
    · rfl

end Route

/-- **A command tells who sent it.** -/
theorem Arrives.attests {route : Route} {w held w' : World} {sender receiver : AddressSpace}
    {sourceAddress targetAddress : UInt32} {new : List UInt32} {ledger : Ledger} {process : Process}
    {table : HandleTable}
    (arrives : Arrives route w sender receiver sourceAddress targetAddress new ledger held w')
    (sending : w.processes.get? route.sender.owner = some process)
    (found : w.table? route.receiverTable = some table) (wf : table.WellFormed) :
    ∃ last, w'.table? route.receiverTable = some last ∧
      route.Attests process (sender.regionAt sourceAddress) new last := by
  obtain ⟨handings, sents, receiveds, each⟩ := arrives.walks.handsEach
  obtain ⟨next, there, extended⟩ := each.extends found wf.extends
  have ids := arrives.walks.callerIds_eq sending
  have issued {handing : Handing} (mem : handing ∈ handings) {pseudo : PseudoHandle}
      (stands : handing.handle.pseudo? = some pseudo) :
      handing.object = some (route.own process pseudo) ∧
        next.resolve handing.issued = some (route.own process pseudo) := by
    have named := each.object_of_pseudo (fun _ none => nomatch none) sending mem stands
    exact ⟨named, extended.named _ (List.mem_append_right _ (Handing.mem_grants mem named))⟩
  by_cases shared : route.senderTable = route.receiverTable
  · obtain ⟨last, holds, closes⟩ := arrives.closed next (shared ▸ there)
    refine ⟨last, shared ▸ holds, ids, handings, sents, receiveds, ?_⟩
    rintro earlier handing later rfl pseudo stands
    obtain ⟨named, names⟩ := issued (by simp) stands
    constructor
    · intro kept
      rw [closes, if_neg, names]
      exact fun gone => kept ⟨shared, each.moved_later shared found wf named gone⟩
    · intro other resolved
      rw [closes] at resolved
      split at resolved
      · cases resolved
      · exact Option.some.inj (resolved.symm.trans names)
  · refine ⟨next, (arrives.others _ shared).trans there, ids, handings, sents, receiveds, ?_⟩
    rintro earlier handing later rfl pseudo stands
    obtain ⟨-, names⟩ := issued (by simp) stands
    exact ⟨fun _ => names, fun other resolved => Option.some.inj (resolved.symm.trans names)⟩

/-- The handle that arrived in the place of a pseudo-handle names its record, unless its value is moved
later. -/
theorem Route.Attests.resolve_issued {route : Route} {process : Process} {sent received : List UInt32}
    {table : HandleTable} {before after before' after' : List (Bool × Handle)} {moving moving' : Bool}
    {handle issued : Handle} {pseudo : PseudoHandle}
    (attests : route.Attests process sent received table)
    (asked : survey sent = .ok (before ++ (moving, handle) :: after))
    (arrived : survey received = .ok (before' ++ (moving', issued) :: after'))
    (beside : before.length = before'.length) (stands : handle.pseudo? = some pseudo)
    (kept : (true, issued) ∉ after) : table.resolve issued = some (route.own process pseudo) := by
  obtain ⟨handings, sents, receiveds, tells⟩ := attests.handles
  obtain ⟨earlier, rest, rfl, rfl, placed⟩ :=
    List.map_eq_append_iff.1 (Except.ok.inj (sents.symm.trans asked))
  obtain ⟨handing, later, rfl, here, rfl⟩ := List.map_eq_cons_iff.1 placed
  have rows := Except.ok.inj (receiveds.symm.trans arrived)
  rw [List.map_append, List.map_cons] at rows
  obtain ⟨-, rows⟩ := List.append_inj rows (by simpa using beside)
  obtain rfl := (Prod.mk.inj here).2
  obtain rfl := (Prod.mk.inj (List.cons.inj rows).1).2
  refine (tells earlier handing later rfl pseudo stands).named ?_
  rintro ⟨-, other, mem, moves, same⟩
  exact kept (List.mem_map.2 ⟨other, mem, Prod.ext moves same⟩)

end MicrokernelIpc
