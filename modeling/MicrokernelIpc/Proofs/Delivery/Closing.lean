import MicrokernelIpc.Proofs.Delivery.Returning
import MicrokernelIpc.Proofs.Kernel.Notices

/-!
# Handles that are closed one after the other

A handle that names an object of an arena that is there is closed without an error, and every other
one stays what it is. So none of a row of handles is missed in which no handle stands twice, whether
the outcomes are kept, thrown away or noted.
-/

namespace MicrokernelIpc

/-- The handle names an object whose arena is there. -/
def World.Closable (w : World) (key : TableKey) (handle : Handle) : Prop :=
  ∃ table object, w.table? key = some table ∧ table.resolve handle = some object ∧
    (w.arenas.get? object.arena).isSome

/-- Close handles one after the other, and tell of each how that ended. -/
def closeEach (key : TableKey) (handles : List Handle) :
    Action (List (Except HandleTableError Unit)) :=
  handles.mapM fun handle => (closeHandle key handle).run

/-- None of the handles is missed if they are closed one after the other. -/
def World.ClosesEach (w : World) (key : TableKey) (handles : List Handle) : Prop :=
  Leads w (closeEach key handles) (fun outcomes _ => outcomes = handles.map fun _ => .ok ())
    fun _ => False

namespace World.Closable

variable {w w' : World} {key : TableKey} {handle : Handle} {table next : HandleTable}
variable {stop : Fault → Prop}

theorem of_lasts (closable : w.Closable key handle) (lasts : w.Lasts w')
    (same : w'.table? key = w.table? key) : w'.Closable key handle := by
  obtain ⟨table, object, found, named, there⟩ := closable
  exact ⟨table, object, same.trans found, named, (lasts.arenas _).trans there⟩

/-- A handle that is not touched stays what it is when a table changes. -/
theorem setTable {changed : TableKey} (closable : w.Closable key handle)
    (found : w.table? changed = some table)
    (kept : changed = key → next.resolve handle = table.resolve handle) :
    (w.setTable next changed).Closable key handle := by
  obtain ⟨old, object, found', named, there⟩ := closable
  by_cases same : changed = key
  · subst same
    obtain rfl := Option.some.inj (found.symm.trans found')
    exact ⟨next, object, table?_setTable_self found next, (kept rfl).trans named,
      by simpa using there⟩
  · refine ⟨old, object, ?_, named, by simpa using there⟩
    rw [table?_setTable, if_neg same, found']

theorem closes (closable : w.Closable key handle) : Leads w (closeHandle key handle).run
    (fun outcome next => outcome = .ok () ∧
      ∀ other, other ≠ handle → w.Closable key other → next.Closable key other) stop := by
  obtain ⟨table, object, found, named, there⟩ := closable
  refine (leads_closeHandle (fun none => ?_) fun table' object' found' named' none => ?_).mono ?_
    fun _ h => h
  · cases found.symm.trans none
  · obtain rfl := Option.some.inj (found.symm.trans found')
    obtain rfl := Option.some.inj (named.symm.trans named')
    simp [none] at there
  · rintro outcome next closes
    cases closes with
    | unknown found' unresolved =>
      obtain rfl := Option.some.inj (found.symm.trans found')
      cases named.symm.trans (HandleTable.take_eq_none_iff.1 unresolved)
    | closed found' taken released =>
      refine ⟨rfl, fun other apart stays => ?_⟩
      refine (stays.setTable found' fun _ => ?_).of_lasts (lasts_of_release? released)
        (table?_of_release? released)
      rw [(HandleTable.drops_of_take taken).resolve, if_neg apart]

theorem missesNothing (closable : w.Closable key handle) :
    MissesNothing w (closeHandle key handle).run := by
  obtain ⟨table, object, found, named, -⟩ := closable
  exact missesNothing_closeHandle found named

end World.Closable

section

variable {w next : World} {key : TableKey} {handle : Handle} {rest handles : List Handle}
variable {ledger : Ledger}

theorem closeEach_cons : closeEach key (handle :: rest) = (do
    let outcome ← (closeHandle key handle).run
    let outcomes ← closeEach key rest
    return outcome :: outcomes) :=
  List.mapM_cons

/-- Once the first handle of a row is closed, the others are what they were. -/
theorem World.Closable.of_cons (once : (handle :: rest).Nodup)
    (closable : ∀ other ∈ handle :: rest, w.Closable key other)
    (others : ∀ other, other ≠ handle → w.Closable key other → next.Closable key other) :
    ∀ other ∈ rest, next.Closable key other := by
  intro other mem
  have apart : other ≠ handle := by
    rintro rfl
    exact (List.nodup_cons.1 once).1 mem
  exact others other apart (closable other (List.mem_cons_of_mem _ mem))

theorem World.closesEach (once : handles.Nodup)
    (closable : ∀ handle ∈ handles, w.Closable key handle) : w.ClosesEach key handles := by
  unfold World.ClosesEach
  induction handles generalizing w with
  | nil => exact leads_pure rfl
  | cons handle rest ih =>
    rw [closeEach_cons]
    apply (closable handle List.mem_cons_self).closes.bind
    rintro outcome next ⟨rfl, others⟩
    apply (ih once.of_cons (World.Closable.of_cons once closable others)).bind
    rintro outcomes last rfl
    exact leads_pure rfl

theorem missesNothing_closeEach (once : handles.Nodup)
    (closable : ∀ handle ∈ handles, w.Closable key handle) :
    MissesNothing w (closeEach key handles) := by
  induction handles generalizing w with
  | nil => exact notes_pure
  | cons handle rest ih =>
    have first := closable handle List.mem_cons_self
    have closes : Leads w (closeHandle key handle).run _ fun _ => False := first.closes
    rw [closeEach_cons]
    apply first.missesNothing.bind closes
    rintro outcome next ⟨-, others⟩
    exact (ih once.of_cons (World.Closable.of_cons once closable others)).andThen
      fun _ _ => notes_pure

namespace Ledger

/-- A rollback closes each handle that was issued and throws the outcomes away. -/
theorem rollback_eq (ledger : Ledger) :
    ledger.rollback key = (closeEach key ledger.created >>= fun _ => pure ()) := by
  obtain ⟨created, moved⟩ := ledger
  induction created with
  | nil => rfl
  | cons handle rest ih =>
    have first : (Ledger.mk (handle :: rest) moved).rollback key
        = ((closeHandle key handle).run >>= fun _ => (Ledger.mk rest moved).rollback key) := by
      simp [rollback]
    rw [first, ih]
    simp [closeEach_cons]

/-- A commit closes each handle that is moved. Where all of them can be closed it notes nothing of
its own. -/
theorem commit_eq (ledger : Ledger) (once : ledger.moved.Nodup)
    (closable : ∀ handle ∈ ledger.moved, w.Closable key handle) (journal : Array Notice) :
    ledger.commit key ⟨w, journal⟩
      = (closeEach key ledger.moved >>= fun _ => pure ()) ⟨w, journal⟩ := by
  obtain ⟨created, moved⟩ := ledger
  induction moved generalizing w journal with
  | nil => rfl
  | cons handle rest ih =>
    have closes : Leads w (closeHandle key handle).run _ fun _ => False :=
      (closable handle List.mem_cons_self).closes
    have returns : ∃ outcome next,
        (closeHandle key handle).run ⟨w, journal⟩ = .ok outcome next ∧ _ := closes.returns
    obtain ⟨outcome, next, closed, rfl, others⟩ := returns
    have first : (Ledger.mk created (handle :: rest)).commit key ⟨w, journal⟩
        = (Ledger.mk created rest).commit key next := by
      show EStateM.bind (EStateM.bind _ _) _ _ = _
      simp only [EStateM.bind, closed]
      rfl
    have second : (closeEach key (handle :: rest) >>= fun _ => pure ()) ⟨w, journal⟩
        = (closeEach key rest >>= fun _ => pure ()) next := by
      rw [closeEach_cons, bind_assoc]
      show EStateM.bind _ _ _ = _
      simp only [EStateM.bind, closed]
      simp
    rw [first, second]
    exact ih next.journal once.of_cons (World.Closable.of_cons once closable others)

end Ledger

theorem missesNothing_rollback (once : ledger.created.Nodup)
    (closable : ∀ handle ∈ ledger.created, w.Closable key handle) :
    MissesNothing w (ledger.rollback key) := by
  rw [ledger.rollback_eq]
  exact (missesNothing_closeEach once closable).andThen fun _ _ => notes_pure

theorem missesNothing_commit (once : ledger.moved.Nodup)
    (closable : ∀ handle ∈ ledger.moved, w.Closable key handle) :
    MissesNothing w (ledger.commit key) := by
  have closes : MissesNothing w (closeEach key ledger.moved >>= fun _ => pure ()) :=
    (missesNothing_closeEach once closable).andThen fun _ _ => notes_pure
  exact closes.congr (ledger.commit_eq once closable)

end

end MicrokernelIpc
