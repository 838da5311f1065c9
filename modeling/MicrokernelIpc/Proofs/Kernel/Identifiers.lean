import MicrokernelIpc.Proofs.Kernel.ThreadSlots
import MicrokernelIpc.Proofs.Trails

/-!
# Identifiers

A kernel counts the processes, the threads and the sessions that it makes, and each of them gets the
number that the count has come to. As long as there are fewer than 2^32 of a kind, no number is
given out twice, whoever bore it and whether or not its bearer is still there.
-/

namespace MicrokernelIpc

/-- What a kernel counts. -/
inductive Counter
  | process | thread | session
  deriving DecidableEq

/-- What is made. Some of it is counted. -/
inductive Creation
  | counted (counter : Counter)
  | event | semaphore | sharedMemory | object
  deriving DecidableEq

/-- The first identifier of a kind. -/
def Counter.first : Counter → UInt32
  | .process => 0
  | .thread => 1
  | .session => 1

namespace Kernel

/-- The next identifier of a kind. -/
def next (kernel : Kernel) : Counter → UInt32
  | .process => kernel.nextProcessId
  | .thread => kernel.nextThreadId
  | .session => kernel.nextSessionId

/-- The kernel after an identifier was given out. -/
def advance (kernel : Kernel) : Counter → Kernel
  | .process => { kernel with nextProcessId := kernel.nextProcessId + 1 }
  | .thread => { kernel with nextThreadId := kernel.nextThreadId + 1 }
  | .session => { kernel with nextSessionId := kernel.nextSessionId + 1 }

theorem arena_advance (kernel : Kernel) (counter : Counter) :
    (kernel.advance counter).arena = kernel.arena := by
  cases counter <;> rfl

/-- The next identifier is that of one more. -/
theorem next_advance {kernel : Kernel} {counter : Counter} {made : Nat}
    (next : kernel.next counter = counter.first + UInt32.ofNat made) :
    (kernel.advance counter).next counter = counter.first + UInt32.ofNat (made + 1) := by
  have one : (kernel.advance counter).next counter = kernel.next counter + 1 := by
    cases counter <;> rfl
  rw [one, next, UInt32.ofNat_add, UInt32.add_assoc]
  rfl

theorem next_advance_of_ne (kernel : Kernel) {counter other : Counter} (apart : counter ≠ other) :
    (kernel.advance counter).next other = kernel.next other := by
  cases counter <;> cases other <;> first | rfl | exact (apart rfl).elim

theorem next_new (arena : Key Arena) (counter : Counter) :
    (Kernel.new arena).next counter = counter.first := by
  cases counter <;> rfl

end Kernel

/-- What an operation makes, if it makes anything. -/
def Operation.creates? : Operation → Option Creation
  | createProcess _ => some (.counted .process)
  | createThread .. => some (.counted .thread)
  | createSessionPair _ => some (.counted .session)
  | createEvent .. => some .event
  | createSemaphore .. => some .semaphore
  | createSharedMemory .. => some .sharedMemory
  | insert .. => some .object
  | _ => none

/-- How many times a kind is made by the operations. -/
def created (ops : List Operation) (kind : Creation) : Nat :=
  ops.countP fun op => op.creates? = some kind

theorem created_append (ops more : List Operation) (kind : Creation) :
    created (ops ++ more) kind = created ops kind + created more kind :=
  List.countP_append

theorem created_singleton (op : Operation) (kind : Creation) :
    created [op] kind = if op.creates? = some kind then 1 else 0 := by
  simp [created, List.countP_singleton]

/-! ## Few creations -/

/-- Less than 2^32 things of a kind are made. -/
def Few (ops : List Operation) : Prop := ∀ kind, created ops kind < 2 ^ 32

/-- How many times anything is made. -/
def creations (ops : List Operation) : Nat := ops.countP fun op => op.creates?.isSome

theorem creations_eq (ops : List Operation) :
    creations ops = created ops (.counted .process) + created ops (.counted .thread)
      + created ops (.counted .session) + created ops .event + created ops .semaphore
      + created ops .sharedMemory + created ops .object := by
  unfold creations created
  induction ops with
  | nil => rfl
  | cons op rest ih =>
    simp only [List.countP_cons, ih]
    cases op.creates? with
    | none => simp
    | some kind =>
      cases kind with
      | counted counter => cases counter <;> simp <;> omega
      | event => simp; omega
      | semaphore => simp; omega
      | sharedMemory => simp; omega
      | object => simp; omega

theorem Few.creations_lt {ops : List Operation} (few : Few ops) : creations ops < 7 * 2 ^ 32 := by
  have := few (.counted .process)
  have := few (.counted .thread)
  have := few (.counted .session)
  have := few .event
  have := few .semaphore
  have := few .sharedMemory
  have := few .object
  rw [creations_eq]
  omega

theorem Few.of_append {ops more : List Operation} (few : Few (ops ++ more)) : Few ops := by
  intro kind
  have := few kind
  rw [created_append] at this
  omega

/-- What is made are one object or two. -/
theorem Operation.inserts_le (op : Operation) : op.inserts ≤ 2 * creations [op] := by
  cases op with
  | createSemaphore name initial maxCount =>
    show (if (Semaphore.make name initial maxCount).isOk then 1 else 0) ≤ 2
    split <;> omega
  | _ => simp [inserts, creations, creates?]

/-! ## Counting -/

namespace World

/-- The kernel's counter has come to what it was begun with and one more for each that was made, at
most as many as are told. -/
def Counts (w : World) (counter : Counter) (most : Nat) : Prop :=
  ∃ made ≤ most, w.kernel.next counter = counter.first + UInt32.ofNat made

/-- The identifier was given out by the kernel of the arena, if that is the current one, before its
counter came to where it is. -/
structure Spent (w : World) (counter : Counter) (most : Nat) (place : Key Arena) (id : UInt32) :
    Prop where
  made : place.index < w.arenas.next
  before : w.kernel.arena = place → ∃ made ≤ most, ∃ number < made,
    w.kernel.next counter = counter.first + UInt32.ofNat made ∧
      id = counter.first + UInt32.ofNat number

variable {w w' : World} {counter : Counter} {most : Nat} {place : Key Arena} {id : UInt32}

/-- An identifier that was given out is not the next. -/
theorem Spent.ne_next (spent : w.Spent counter most place id) (few : most < 2 ^ 32)
    (here : w.kernel.arena = place) : w.kernel.next counter ≠ id := by
  obtain ⟨made, le, number, lt, next, rfl⟩ := spent.before here
  rw [next]
  intro same
  have numbers := congrArg UInt32.toNat ((UInt32.add_right_inj _).1 same)
  rw [UInt32.toNat_ofNat', UInt32.toNat_ofNat'] at numbers
  omega

/-- The identifier that is given out is spent. -/
theorem Counts.spent (counts : w.Counts counter most) (made : w.kernel.arena.index < w'.arenas.next)
    (advanced : w'.kernel = w.kernel.advance counter) :
    w'.Spent counter (most + 1) w.kernel.arena (w.kernel.next counter) := by
  obtain ⟨number, le, next⟩ := counts
  refine ⟨made, fun _ => ⟨number + 1, by omega, number, by omega, ?_, next⟩⟩
  rw [advanced, Kernel.next_advance next]

/-! ## What the kernel is afterwards -/

theorem Alters.kernel_eq (alters : w.Alters w') : w'.kernel = w.kernel := by
  cases alters with
  | retained retained =>
    rw [of_retain? retained]
    rfl
  | released released =>
    rw [of_release? released]
    rfl
  | table table key => cases key <;> rfl
  | tables => rfl
  | process => rfl
  | thread => rfl
  | processGone => rfl
  | threadGone => rfl

theorem Drifts.kernel_eq (drifts : w.Drifts w') : w'.kernel = w.kernel := by
  induction drifts with
  | refl => rfl
  | tail _ alters ih => rw [alters.kernel_eq, ih]

theorem Alters.arenas_next (alters : w.Alters w') : w'.arenas.next = w.arenas.next := by
  cases alters with
  | retained retained =>
    obtain ⟨_, _, _, _, rfl⟩ := exists_of_retain? retained
    rfl
  | released released =>
    obtain ⟨_, _, rfl⟩ := exists_of_release? released
    rfl
  | table table key => rw [arenas_setTable]
  | tables => rfl
  | process => rfl
  | thread => rfl
  | processGone => rfl
  | threadGone => rfl

theorem Inserts.arenas_next {a : Key Arena} {object : KernelObject} {ref : ObjectRef}
    (inserts : w.Inserts a object ref w') : w'.arenas.next = w.arenas.next := by
  cases inserts
  rfl

end World

namespace Operation.Does

variable {w w' : World} {op : Operation} {gained : Multiset ObjectRef} {counter : Counter}
variable {most : Nat} {place : Key Arena} {id : UInt32}

/-- The kernel stays as it is, gives out an identifier, or is a new one with an arena of its own. -/
theorem kernel_eq (does : op.Does w gained w') :
    w'.kernel = w.kernel ∨
      (∃ counter, op.creates? = some (.counted counter) ∧ w'.kernel = w.kernel.advance counter) ∨
      w'.kernel = .new ⟨w.arenas.next⟩ := by
  cases does with
  | drifts drifts => exact .inl (World.Drifts.kernel_eq drifts)
  | inserts _ inserts => exact .inl inserts.kernel_eq
  | process adds =>
    cases adds with
    | intro inserts => exact .inr (.inl ⟨.process, rfl, inserts.kernel_eq⟩)
  | thread adds =>
    cases adds with
    | intro _ inserts _ => exact .inr (.inl ⟨.thread, rfl, inserts.kernel_eq⟩)
  | sessions adds =>
    cases adds with
    | intro first second =>
      exact .inr (.inl ⟨.session, rfl, second.kernel_eq.trans first.kernel_eq⟩)
  | arena => exact .inl rfl
  | kernel => exact .inr (.inr rfl)
  | changed => exact .inl rfl

/-- No arena goes. -/
theorem arenas_next (does : op.Does w gained w') : w.arenas.next ≤ w'.arenas.next := by
  cases does with
  | drifts drifts =>
    induction drifts with
    | refl => exact le_rfl
    | tail _ alters ih => exact ih.trans_eq alters.arenas_next.symm
  | inserts _ inserts => exact inserts.arenas_next.ge
  | process adds =>
    cases adds with
    | intro inserts => exact inserts.arenas_next.ge
  | thread adds =>
    cases adds with
    | intro _ inserts _ => exact inserts.arenas_next.ge
  | sessions adds =>
    cases adds with
    | intro first second => exact (second.arenas_next.trans first.arenas_next).ge
  | arena => exact Nat.le_succ _
  | kernel => exact Nat.le_succ _
  | changed => exact le_rfl

theorem counts (does : op.Does w gained w') (counts : w.Counts counter most) :
    w'.Counts counter (most + created [op] (.counted counter)) := by
  obtain ⟨made, le, next⟩ := counts
  rcases does.kernel_eq with same | ⟨other, creates, advanced⟩ | new
  · exact ⟨made, le.trans (Nat.le_add_right _ _), by rw [same, next]⟩
  · by_cases counted : other = counter
    · subst counted
      refine ⟨made + 1, ?_, ?_⟩
      · rw [created_singleton, if_pos creates]
        omega
      · rw [advanced, Kernel.next_advance next]
    · refine ⟨made, le.trans (Nat.le_add_right _ _), ?_⟩
      rw [advanced, Kernel.next_advance_of_ne _ counted, next]
  · refine ⟨0, Nat.zero_le _, ?_⟩
    rw [new, Kernel.next_new]
    exact (UInt32.add_zero _).symm

theorem spent (does : op.Does w gained w') (spent : w.Spent counter most place id) :
    w'.Spent counter (most + created [op] (.counted counter)) place id := by
  refine ⟨spent.made.trans_le does.arenas_next, fun here => ?_⟩
  rcases does.kernel_eq with same | ⟨other, creates, advanced⟩ | new
  · obtain ⟨made, le, number, lt, next, bears⟩ := spent.before (same ▸ here)
    exact ⟨made, le.trans (Nat.le_add_right _ _), number, lt, by rw [same, next], bears⟩
  · rw [advanced, Kernel.arena_advance] at here
    obtain ⟨made, le, number, lt, next, bears⟩ := spent.before here
    by_cases counted : other = counter
    · subst counted
      refine ⟨made + 1, ?_, number, by omega, ?_, bears⟩
      · rw [created_singleton, if_pos creates]
        omega
      · rw [advanced, Kernel.next_advance next]
    · refine ⟨made, le.trans (Nat.le_add_right _ _), number, lt, ?_, bears⟩
      rw [advanced, Kernel.next_advance_of_ne _ counted, next]
  · -- the arena of a new kernel is none that was there
    rw [new] at here
    subst here
    exact absurd spent.made (Nat.lt_irrefl _)

end Operation.Does

end MicrokernelIpc
