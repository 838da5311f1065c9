import MicrokernelIpc.Kernel.Memory
import MicrokernelIpc.Proofs.Kernel.Calls

/-!
# What actions note

Nothing depends on the journal, but it tells what the kernel did, even where nothing else does: a
close whose outcome is thrown away is noted all the same. `Notes` says of what kind the notices are
that an action adds, whether it returns or stops on a fault. Where that depends on the world,
`Leads` says in which worlds the action goes on.
-/

namespace MicrokernelIpc

/-- The state that a computation leaves, whether it returns or stops on a fault. -/
def Effect.leaves {σ α : Type} (effect : Effect σ α) (start : σ) : σ :=
  match effect start with
  | .ok _ state => state
  | .error _ state => state

/-- Whatever an action adds to the journal is of one kind, however the action ends. -/
def Notes {α : Type} (world : World) (action : Action α) (kind : Notice → Prop) : Prop :=
  ∀ journal, ∃ notices, (∀ notice ∈ notices, kind notice) ∧
    (Effect.leaves action ⟨world, journal⟩).journal.toList = journal.toList ++ notices

section

variable {ε α β : Type} {world : World} {kind : Notice → Prop} {stop : Fault → Prop}

theorem notes_pure {value : α} : Notes world (pure value : Action α) kind :=
  fun _ => ⟨[], by simp, (List.append_nil _).symm⟩

theorem notes_throw {fault : Fault} : Notes world (throw fault : Action α) kind :=
  fun _ => ⟨[], by simp, (List.append_nil _).symm⟩

theorem notes_note {notice : Notice} (h : kind notice) : Notes world (note notice) kind :=
  fun _ => ⟨[notice], by simpa using h, Array.toList_push⟩

theorem notes_modifyWorld {f : World → World} : Notes world (modifyWorld f) kind :=
  fun _ => ⟨[], by simp, (List.append_nil _).symm⟩

/-- What is noted later is noted in a world that the action leads to. -/
theorem Notes.bind {action : Action α} {rest : α → Action β} {mid : α → World → Prop}
    (first : Notes world action kind) (leads : Leads world action mid stop)
    (after : ∀ value next, mid value next → Notes next (rest value) kind) :
    Notes world (action >>= rest) kind := by
  intro journal
  obtain ⟨early, fits, noted⟩ := first journal
  have judged := leads journal
  show ∃ notices, _ ∧ (Effect.leaves (EStateM.bind action rest) _).journal.toList = _
  unfold Effect.leaves EStateM.bind at *
  cases h : action ⟨world, journal⟩ with
  | ok value machine =>
    rw [h] at noted judged
    obtain ⟨late, fits', noted'⟩ := after value machine.world judged machine.journal
    refine ⟨early ++ late, ?_, ?_⟩
    · intro notice mem
      exact (List.mem_append.1 mem).elim (fits notice) (fits' notice)
    · rw [← List.append_assoc, ← noted]
      exact noted'
  | error fault machine =>
    rw [h] at noted
    exact ⟨early, fits, noted⟩

theorem Notes.congr {action other : Action α} (notes : Notes world other kind)
    (same : ∀ journal, action ⟨world, journal⟩ = other ⟨world, journal⟩) :
    Notes world action kind := by
  intro journal
  unfold Effect.leaves
  rw [same]
  exact notes journal

/-- What is noted later is of the kind in every world. -/
theorem Notes.andThen {action : Action α} {rest : α → Action β} (first : Notes world action kind)
    (after : ∀ value next, Notes next (rest value) kind) : Notes world (action >>= rest) kind := by
  have anywhere : Leads world action (fun _ _ => True) fun _ => True :=
    leads_of_ok fun _ _ _ _ => trivial
  exact first.bind anywhere fun value next _ => after value next

theorem notes_note_bind {notice : Notice} {rest : Unit → Action β} (h : kind notice)
    (after : Notes world (rest ()) kind) : Notes world (note notice >>= rest) kind := by
  have leads : Leads world (note notice) (fun _ next => next = world) fun _ => True :=
    leads_note rfl
  exact (notes_note h).bind leads fun _ _ same => by rwa [same]

theorem notes_modifyWorld_bind {f : World → World} {rest : Unit → Action β}
    (after : Notes (f world) (rest ()) kind) : Notes world (modifyWorld f >>= rest) kind := by
  have leads : Leads world (modifyWorld f) (fun _ next => next = f world) fun _ => True :=
    leads_modifyWorld rfl
  exact notes_modifyWorld.bind leads fun _ _ same => by rwa [same]

theorem notes_read_bind (read : World → Option α) {rest : α → Action β}
    (after : ∀ value, read world = some value → Notes world (rest value) kind) :
    Notes world ((do present (read (← get).world)) >>= rest) kind := by
  intro journal
  show ∃ notices, _ ∧
    (Effect.leaves (present (read world) >>= rest) ⟨world, journal⟩).journal.toList = _
  cases found : read world with
  | none => exact ⟨[], by simp, (List.append_nil _).symm⟩
  | some value => exact after value found journal

theorem notes_liftExcept_bind {step : Except Fault α} {rest : α → Action β}
    (after : ∀ value, step = .ok value → Notes world (rest value) kind) :
    Notes world ((liftM step : Action α) >>= rest) kind := by
  cases h : step with
  | ok value => exact after value h
  | error fault => exact fun _ => ⟨[], by simp, (List.append_nil _).symm⟩

theorem notes_run_pure {value : α} : Notes world (pure value : Attempt ε α).run kind :=
  notes_pure

theorem notes_run_throw {error : ε} : Notes world (throw error : Attempt ε α).run kind :=
  notes_pure

theorem notes_halt {fault : Fault} : Notes world (halt fault : Attempt ε α).run kind :=
  fun _ => ⟨[], by simp, (List.append_nil _).symm⟩

theorem Notes.bindRun {attempt : Attempt ε α} {rest : α → Attempt ε β}
    {mid : Except ε α → World → Prop} (first : Notes world attempt.run kind)
    (leads : Leads world attempt.run mid stop)
    (after : ∀ value next, mid (.ok value) next → Notes next (rest value).run kind) :
    Notes world (attempt >>= rest).run kind := by
  rw [ExceptT.run_bind]
  apply first.bind leads
  intro outcome next h
  cases outcome with
  | ok value => exact after value next h
  | error error => exact notes_pure

theorem Notes.andThenRun {attempt : Attempt ε α} {rest : α → Attempt ε β}
    (first : Notes world attempt.run kind)
    (after : ∀ value next, Notes next (rest value).run kind) :
    Notes world (attempt >>= rest).run kind := by
  have anywhere : Leads world attempt.run (fun _ _ => True) fun _ => True :=
    leads_of_ok fun _ _ _ _ => trivial
  exact first.bindRun anywhere fun value next _ => after value next

theorem Notes.adapt {δ : Type} {attempt : Attempt ε α} (notes : Notes world attempt.run kind)
    (rename : ε → δ) : Notes world (attempt.adapt rename).run kind := by
  show Notes world ((fun first => first.mapError rename) <$> attempt.run) kind
  rw [map_eq_pure_bind]
  exact notes.andThen fun _ _ => notes_pure

end

/-! ## Closes that are missed -/

/-- The notice tells that a handle was to be closed that names nothing. -/
def Notice.missesClose : Notice → Bool
  | .unknownHandleClosed _ => true
  | .movedHandleGone _ => true
  | _ => false

/-- No handle that the action closes is missed. -/
abbrev MissesNothing {α : Type} (w : World) (action : Action α) : Prop :=
  Notes w action fun notice => notice.missesClose = false

section

variable {α : Type} {w : World} {key : TableKey} {ref object : ObjectRef} {handle : Handle}

theorem missesNothing_retain : MissesNothing w (retain ref) := by
  refine notes_read_bind (fun w => w.arenas.get? ref.arena) fun arena _ => ?_
  cases arena.retain ref.id with
  | none => exact notes_throw
  | some next => exact notes_modifyWorld

theorem missesNothing_release : MissesNothing w (release ref) := by
  refine notes_read_bind (fun w => w.arenas.get? ref.arena) fun arena _ => ?_
  cases arena.release ref.id with
  | mk destroyed next =>
    apply notes_modifyWorld_bind
    cases destroyed with
    | none => exact notes_pure
    | some object => exact notes_note rfl

theorem missesNothing_acquireHandle : MissesNothing w (acquireHandle key handle) := by
  refine notes_read_bind (fun w => w.table? key) fun table _ => ?_
  cases table.resolve handle with
  | none => exact notes_pure
  | some object => exact missesNothing_retain.andThen fun _ _ => notes_pure

theorem missesNothing_takeHandle : MissesNothing w (takeHandle key handle) := by
  refine notes_read_bind (fun w => w.table? key) fun table _ => ?_
  split
  · exact notes_modifyWorld_bind notes_pure
  · exact notes_pure

theorem missesNothing_createHandle : MissesNothing w (createHandle key object).run := by
  unfold createHandle
  rw [run_lift_bind]
  refine notes_read_bind (fun w => w.table? key) fun table _ => ?_
  split
  · simp only [run_lift_bind]
    exact notes_modifyWorld_bind (notes_note_bind rfl notes_run_pure)
  · simp only [run_lift_bind]
    exact missesNothing_release.andThen fun _ _ => notes_note_bind rfl notes_run_throw

theorem missesNothing_accessMemory {place : Key Process} {access : MemoryAccess α} :
    MissesNothing w (accessMemory place access).run := by
  unfold accessMemory
  rw [run_lift_bind]
  refine notes_read_bind (fun w => w.processes.get? place) fun process _ => ?_
  split <;> rw [run_lift_bind] <;> apply notes_modifyWorld_bind
  · exact notes_run_pure
  · exact notes_run_throw
  · exact notes_halt

/-- A handle that names something is not missed. -/
theorem missesNothing_closeHandle {table : HandleTable} (found : w.table? key = some table)
    (named : table.resolve handle = some object) :
    MissesNothing w (closeHandle key handle).run := by
  have leads : Leads w (takeHandle key handle) (w.Takes key handle) fun _ => True :=
    leads_takeHandle fun _ => trivial
  unfold closeHandle
  rw [run_lift_bind]
  apply missesNothing_takeHandle.bind leads
  intro taken next takes
  cases takes with
  | unknown there unresolved =>
    obtain rfl := Option.some.inj (found.symm.trans there)
    simp [HandleTable.take_eq_none_iff.1 unresolved] at named
  | taken =>
    simp only [run_lift_bind, run_lift]
    exact notes_note_bind rfl (missesNothing_release.andThen fun _ _ => notes_pure)

end

end MicrokernelIpc
