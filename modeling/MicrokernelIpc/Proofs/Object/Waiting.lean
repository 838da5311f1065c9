import Mathlib.Data.List.Basic
import Mathlib.Data.List.Induction
import MicrokernelIpc.Object.Basic
import MicrokernelIpc.Proofs.Object.SemaphoreCounts

/-!
# What waiters see of an object

Whether a waiter would block and whether one is let through are told by two functions, each with its
own cases. They agree on every object, and a waiter that is let through takes exactly one token. How
the tokens come about is a matter of the whole run: the signals of an event coalesce, so that an
event holds a signal exactly if none of the deeds that end a signal came after the latest one
(`SignalStands`). What ends a signal is the event's reset type: a waiter that is let through ends that
of a one-shot event and leaves that of a sticky one.
-/

namespace MicrokernelIpc

/-- What was done to an object. -/
inductive Deed
  | signal
  | clear
  /-- Slots were released, or the release was refused. -/
  | release (count : UInt32)
  /-- A waiter asked for a token, and was given one or not. -/
  | acquire (taken : Bool)
  deriving DecidableEq

/-- There was a signal, and none of these deeds after it. -/
def SignalStands (ending deeds : List Deed) : Prop :=
  ∃ before after, deeds = before ++ Deed.signal :: after ∧ ∀ deed ∈ after, deed ∉ ending

namespace SignalStands

variable {ending deeds : List Deed} {deed : Deed}

theorem not_nil : ¬ SignalStands ending [] := by
  rintro ⟨before, after, same, -⟩
  simp at same

theorem append_signal : SignalStands ending (deeds ++ [.signal]) :=
  ⟨deeds, [], rfl, fun _ none => absurd none List.not_mem_nil⟩

/-- A deed that is no signal leaves a signal standing unless it ends it. -/
theorem append_iff (other : deed ≠ .signal) :
    SignalStands ending (deeds ++ [deed]) ↔ SignalStands ending deeds ∧ deed ∉ ending := by
  constructor
  · rintro ⟨before, after, same, unended⟩
    obtain rfl | ⟨earlier, last, rfl⟩ := after.eq_nil_or_concat'
    · obtain ⟨-, rfl⟩ := List.append_inj' same rfl |>.imp_right List.singleton_inj.1
      exact absurd rfl other
    · rw [← List.cons_append, ← List.append_assoc] at same
      obtain ⟨rfl, only⟩ := List.append_inj' same rfl
      obtain rfl := List.singleton_inj.1 only
      exact ⟨⟨before, earlier, rfl, fun deed member => unended deed (by simp [member])⟩,
        unended deed (by simp)⟩
  · rintro ⟨⟨before, after, rfl, unended⟩, passes⟩
    refine ⟨before, after ++ [deed], by simp, fun deed' member => ?_⟩
    obtain earlier | rfl := List.mem_append.1 member |>.imp_right List.mem_singleton.1
    · exact unended deed' earlier
    · exact passes

end SignalStands

/-- The deeds that end an event's signal. The signal of a sticky event lasts until the next signal or
clear. -/
def ResetType.endings : ResetType → List Deed
  | .oneShot => [.clear, .acquire true]
  | .sticky => [.signal, .clear]
  | .pulse => []

namespace KernelObject

/-- An object as it is made. -/
inductive Made : KernelObject → Prop
  | event (name : String) (reset : ResetType) : Made (.event (.new name reset))
  | semaphore {name : String} {initial maxCount : UInt32} {semaphore : Semaphore}
      (made : Semaphore.make name initial maxCount = .ok semaphore) : Made (.semaphore semaphore)
  | other (object : KernelObject) (noEvent : object.kind ≠ .event)
      (noSemaphore : object.kind ≠ .semaphore) : Made object

/-- What a deed makes of an object. Only an event can be signaled and cleared, and only a semaphore
released; waiters may ask for a token of anything. -/
inductive Does : KernelObject → Deed → KernelObject → Prop
  | signal (event : EventObject) : Does (.event event) .signal (.event event.signal)
  | clear (event : EventObject) : Does (.event event) .clear (.event event.clear)
  | release {semaphore next : Semaphore} {count previous : UInt32}
      (call : semaphore.release count = .ok (previous, next)) :
      Does (.semaphore semaphore) (.release count) (.semaphore next)
  | refuse {semaphore : Semaphore} {count : UInt32} {error : SemaphoreError}
      (call : semaphore.release count = .error error) :
      Does (.semaphore semaphore) (.release count) (.semaphore semaphore)
  | acquire (object : KernelObject) : Does object (.acquire object.acquire.1) object.acquire.2

/-- Deeds one after the other. -/
inductive Course (start : KernelObject) : List Deed → KernelObject → Prop
  | refl : Course start [] start
  | step {deeds : List Deed} {deed : Deed} {object next : KernelObject}
      (course : Course start deeds object) (does : object.Does deed next) :
      Course start (deeds ++ [deed]) next

/-- A waiter was let through and took exactly one token. -/
inductive TakesToken : KernelObject → KernelObject → Prop
  | oneShot (name : String) :
      TakesToken (.event ⟨name, .oneShot, true⟩) (.event ⟨name, .oneShot, false⟩)
  | sticky (name : String) :
      TakesToken (.event ⟨name, .sticky, true⟩) (.event ⟨name, .sticky, true⟩)
  | semaphore {semaphore : Semaphore} {rest : UInt32}
      (one : rest.toNat + 1 = semaphore.available.toNat) :
      TakesToken (.semaphore semaphore) (.semaphore { semaphore with available := rest })

variable {start object next : KernelObject} {deeds earlier later : List Deed} {deed : Deed}
variable {name : String} {reset : ResetType}

/-! ## One deed -/

/-- A waiter is let through exactly if it would not block. -/
theorem acquire_eq_not_shouldWait (object : KernelObject) :
    object.acquire.1 = !object.shouldWait := by
  cases object with
  | event event => exact (Bool.not_not _).symm
  | semaphore semaphore =>
    simp only [acquire, shouldWait, Semaphore.acquire]
    split <;> simp [*]
  | sharedMemory block => rfl
  | thread record => rfl
  | process record => rfl
  | session session => rfl

/-- A waiter that is turned away changes nothing. -/
theorem acquire_of_missed (missed : object.acquire.1 = false) : object.acquire.2 = object := by
  cases object with
  | event event =>
    obtain ⟨name, reset, signaled⟩ := event
    obtain rfl : signaled = false := missed
    rfl
  | semaphore semaphore =>
    exact congrArg KernelObject.semaphore (Semaphore.eq_of_missed (Prod.ext missed rfl))
  | sharedMemory block => rfl
  | thread record => rfl
  | process record => rfl
  | session session => rfl

/-- An object that is neither an event nor a semaphore has no token. -/
theorem acquire_of_other (noEvent : object.kind ≠ .event) (noSemaphore : object.kind ≠ .semaphore) :
    object.acquire = (false, object) := by
  cases object with
  | event event => exact absurd rfl noEvent
  | semaphore semaphore => exact absurd rfl noSemaphore
  | sharedMemory block => rfl
  | thread record => rfl
  | process record => rfl
  | session session => rfl

theorem takesToken_of_semaphore {semaphore : Semaphore}
    (taken : (KernelObject.semaphore semaphore).acquire.1 = true) :
    TakesToken (.semaphore semaphore) (KernelObject.semaphore semaphore).acquire.2 := by
  obtain ⟨free, next⟩ := Semaphore.of_acquire (Prod.ext taken rfl : semaphore.acquire = (true, _))
  have same : (KernelObject.semaphore semaphore).acquire.2
      = .semaphore { semaphore with available := semaphore.available - 1 } :=
    congrArg KernelObject.semaphore next
  exact same ▸ .semaphore (Semaphore.toNat_sub_one free)

/-- A deed of a waiter tells whether it was let through. -/
theorem Does.of_acquire {taken : Bool} (does : object.Does (.acquire taken) next) :
    taken = object.acquire.1 ∧ next = object.acquire.2 := by
  generalize same : Deed.acquire taken = deed at does
  cases does with
  | acquire => exact ⟨Deed.acquire.inj same, rfl⟩
  | signal | clear | release | refuse => cases same

/-! ## Deeds one after the other -/

/-- A course is what its last deed made of what the deeds before it had left. -/
theorem Course.of_append_singleton (course : start.Course (deeds ++ [deed]) next) :
    ∃ object, start.Course deeds object ∧ object.Does deed next := by
  generalize same : deeds ++ [deed] = all at course
  cases course with
  | refl => simp at same
  | step course does =>
    obtain ⟨rfl, only⟩ := List.append_inj' same rfl
    obtain rfl := List.singleton_inj.1 only
    exact ⟨_, course, does⟩

/-- Each deed of a course was done to what the deeds before it had left. -/
theorem Course.split (course : start.Course (earlier ++ deed :: later) object) :
    ∃ before after, start.Course earlier before ∧ before.Does deed after := by
  induction later using List.reverseRecOn generalizing object with
  | nil =>
    obtain ⟨before, course, does⟩ := course.of_append_singleton
    exact ⟨before, object, course, does⟩
  | append_singleton later last ih =>
    rw [← List.cons_append, ← List.append_assoc] at course
    obtain ⟨before, course, -⟩ := course.of_append_singleton
    exact ih course

/-- An object that is neither an event nor a semaphore stays as it is. -/
theorem Course.eq_of_other (course : start.Course deeds object) (noEvent : start.kind ≠ .event)
    (noSemaphore : start.kind ≠ .semaphore) : object = start := by
  induction course with
  | refl => rfl
  | step course does ih =>
    subst ih
    cases does with
    | signal event | clear event => exact absurd rfl noEvent
    | release call | refuse call => exact absurd rfl noSemaphore
    | acquire => exact congrArg Prod.snd (acquire_of_other noEvent noSemaphore)

/-- A semaphore stays one. -/
theorem Course.of_semaphore {semaphore : Semaphore}
    (course : (KernelObject.semaphore semaphore).Course deeds object) :
    ∃ left, object = .semaphore left := by
  induction course with
  | refl => exact ⟨semaphore, rfl⟩
  | step course does ih =>
    obtain ⟨left, rfl⟩ := ih
    cases does with
    | release call | refuse call | acquire => exact ⟨_, rfl⟩

/-! ## Events -/

/-- Whether an event with these deeds behind it is signaled: a signal stands after them, and the
event is no pulse event. -/
def SignaledAfter (reset : ResetType) (deeds : List Deed) (signaled : Bool) : Prop :=
  signaled = true ↔ reset ≠ .pulse ∧ SignalStands reset.endings deeds

/-- Each deed leaves an event signaled exactly if a signal stands after it. -/
theorem Does.signaledAfter {signaled : Bool}
    (does : (KernelObject.event ⟨name, reset, signaled⟩).Does deed next)
    (before : SignaledAfter reset deeds signaled) :
    ∃ after, next = .event ⟨name, reset, after⟩ ∧ SignaledAfter reset (deeds ++ [deed]) after := by
  unfold SignaledAfter at before ⊢
  cases does with
  | signal =>
    refine ⟨signaled || reset != .pulse, rfl, ?_⟩
    have stands : SignalStands reset.endings (deeds ++ [.signal]) := .append_signal
    cases reset <;> simp_all
  | clear =>
    have ended : reset ≠ .pulse → Deed.clear ∈ reset.endings := by cases reset <;> decide
    refine ⟨false, rfl, iff_of_false Bool.false_ne_true fun ⟨pulse, stands⟩ => ?_⟩
    exact ((SignalStands.append_iff (by decide)).1 stands).2 (ended pulse)
  | acquire =>
    -- A waiter that is let through ends the signal of a one-shot event; no other ends any.
    have ends : .acquire signaled ∈ reset.endings ↔ signaled = true ∧ reset = .oneShot := by
      cases reset <;> cases signaled <;> decide
    have passes : SignalStands reset.endings (deeds ++ [.acquire signaled]) ↔
        SignalStands reset.endings deeds ∧ ¬ (signaled = true ∧ reset = .oneShot) :=
      (SignalStands.append_iff (by simp)).trans (and_congr_right fun _ => not_congr ends)
    refine ⟨signaled && reset != .oneShot, rfl, ?_⟩
    refine Iff.trans ?_ (and_congr_right fun _ => passes).symm
    rw [← and_assoc, ← before]
    cases reset <;> cases signaled <;> decide

/-- An event is signaled exactly if a signal stands after all that was done to it. -/
theorem Course.signaledAfter (course : (KernelObject.event (.new name reset)).Course deeds object) :
    ∃ signaled, object = .event ⟨name, reset, signaled⟩ ∧ SignaledAfter reset deeds signaled := by
  induction course with
  | refl =>
    exact ⟨false, rfl, iff_of_false Bool.false_ne_true fun stands => SignalStands.not_nil stands.2⟩
  | step course does ih =>
    obtain ⟨signaled, rfl, before⟩ := ih
    exact does.signaledAfter before

/-- Waiters are let through by an event while a signal stands. -/
theorem Course.taken_iff {taken : Bool}
    (course : (KernelObject.event (.new name reset)).Course deeds object)
    (split : deeds = earlier ++ .acquire taken :: later) :
    SignaledAfter reset earlier taken := by
  subst split
  obtain ⟨before, after, earlier, does⟩ := course.split
  obtain ⟨signaled, rfl, stands⟩ := earlier.signaledAfter
  obtain rfl : taken = signaled := does.of_acquire.1
  exact stands

/-- One signal lets at most one waiter through a one-shot event. -/
theorem Course.count_taken_le
    (course : (KernelObject.event (.new name .oneShot)).Course deeds object) :
    ∃ signaled, object = .event ⟨name, .oneShot, signaled⟩ ∧
      deeds.count (.acquire true) + signaled.toNat ≤ deeds.count .signal := by
  induction course with
  | refl => exact ⟨false, rfl, Nat.le_refl 0⟩
  | step course does ih =>
    obtain ⟨signaled, rfl, le⟩ := ih
    simp only [List.count_append]
    cases does with
    | signal =>
      refine ⟨true, by cases signaled <;> rfl, ?_⟩
      simp
      omega
    | clear =>
      refine ⟨false, rfl, ?_⟩
      simp
      omega
    | acquire =>
      refine ⟨false, by cases signaled <;> rfl, ?_⟩
      cases signaled <;> simp_all [acquire, EventObject.acquire]

/-! ## Every object -/

/-- From an object as it was made, each waiter that is let through takes one token. -/
theorem Course.takesToken (made : Made start) (course : start.Course deeds object)
    (taken : object.acquire.1 = true) : TakesToken object object.acquire.2 := by
  cases made with
  | event name reset =>
    obtain ⟨signaled, rfl, stands⟩ := course.signaledAfter
    obtain rfl : signaled = true := taken
    cases reset with
    | oneShot => exact .oneShot name
    | sticky => exact .sticky name
    | pulse => exact absurd rfl (stands.1 rfl).1
  | semaphore made =>
    obtain ⟨left, rfl⟩ := course.of_semaphore
    exact takesToken_of_semaphore taken
  | other object noEvent noSemaphore =>
    obtain rfl := course.eq_of_other noEvent noSemaphore
    rw [acquire_of_other noEvent noSemaphore] at taken
    cases taken

/-- Nothing but events that keep their signals and semaphores lets a waiter through. -/
theorem Course.taken_not_mem (course : start.Course deeds object)
    (tokenless : (∃ name, start = .event (.new name .pulse)) ∨
      start.kind ≠ .event ∧ start.kind ≠ .semaphore) : Deed.acquire true ∉ deeds := by
  intro member
  obtain ⟨earlier, later, split⟩ := List.append_of_mem member
  obtain ⟨name, rfl⟩ | ⟨noEvent, noSemaphore⟩ := tokenless
  · exact absurd rfl ((course.taken_iff split).1 rfl).1
  · subst split
    obtain ⟨before, after, earlier, does⟩ := course.split
    obtain rfl := earlier.eq_of_other noEvent noSemaphore
    cases does.of_acquire.1.trans (congrArg Prod.fst (acquire_of_other noEvent noSemaphore))

/-- **What waiters are told is what they are given.** Whatever was done to an object since it was
made, a waiter is let through exactly if it would not have blocked; one that is turned away changes
nothing, and one that is let through takes exactly one token. A waiter is let through by a one-shot
event only after a signal with no clear and no other waiter let through in between, so that there
are never more of these than signals; by a sticky event, exactly if the latest signal or clear was a
signal; and by a pulse event, a session, a block of shared memory, a thread or a process, never. -/
theorem Course.waits_consistently (made : Made start) (course : start.Course deeds object) :
    (object.acquire.1 = true ↔ object.shouldWait = false) ∧
    (object.acquire.1 = false → object.acquire.2 = object) ∧
    (object.acquire.1 = true → TakesToken object object.acquire.2) ∧
    (∀ name, start = .event (.new name .oneShot) →
      (∀ earlier later, deeds = earlier ++ .acquire true :: later →
        SignalStands [.clear, .acquire true] earlier) ∧
      deeds.count (.acquire true) ≤ deeds.count .signal) ∧
    (∀ name, start = .event (.new name .sticky) →
      ∀ earlier taken later, deeds = earlier ++ .acquire taken :: later →
        (taken = true ↔ SignalStands [.signal, .clear] earlier)) ∧
    ((∃ name, start = .event (.new name .pulse)) ∨
      start.kind ≠ .event ∧ start.kind ≠ .semaphore → Deed.acquire true ∉ deeds) := by
  refine ⟨?_, acquire_of_missed, course.takesToken made, ?_, ?_, course.taken_not_mem⟩
  · rw [acquire_eq_not_shouldWait, Bool.not_eq_true']
  · rintro name rfl
    refine ⟨fun earlier later split => ((course.taken_iff split).1 rfl).2, ?_⟩
    obtain ⟨signaled, -, le⟩ := course.count_taken_le
    exact Nat.le_of_add_right_le le
  · rintro name rfl earlier taken later split
    exact (course.taken_iff split).trans (and_iff_right (by decide))

/-- A one-shot event that is signaled twice lets one waiter through and no second. -/
theorem waits_consistently_of_one_shot :
    ∃ object, (KernelObject.event (.new "bell" .oneShot)).Course
        [.signal, .signal, .acquire true, .acquire false] object ∧
      object.shouldWait = true ∧ object.acquire.2 = object ∧
      SignalStands [.clear, .acquire true] [.signal, .signal] := by
  have rung : (KernelObject.event (.new "bell" .oneShot)).Course [.signal, .signal]
      (.event ⟨"bell", .oneShot, true⟩) :=
    (Course.refl.step (.signal (.new "bell" .oneShot))).step (.signal ⟨"bell", .oneShot, true⟩)
  have course := (rung.step (.acquire _)).step (.acquire _)
  obtain ⟨waits, missed, -, oneShot, -, -⟩ := course.waits_consistently (.event "bell" .oneShot)
  exact ⟨_, course, rfl, missed rfl, (oneShot _ rfl).1 [.signal, .signal] _ rfl⟩

end KernelObject

end MicrokernelIpc
