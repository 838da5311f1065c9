import MicrokernelIpc.Proofs.Runs

/-!
# References are conserved

Through every run that keeps to the limits the arenas count what there is: each count is the
number of references, wherever they are held, and an object is there exactly as long as it has
one. What is destroyed stays so, no reference is taken to it, and once nothing is held any
more the arenas are empty.
-/

namespace MicrokernelIpc

variable {s t u : Situation}

/-- An object is there in its arena. -/
def Situation.Contains (s : Situation) (ref : ObjectRef) : Prop :=
  ∃ arena, s.machine.world.arenas.get? ref.arena = some arena ∧ arena.contains ref.id

/-- Nothing holds a reference: no caller, no process or thread and no handle table. -/
structure Situation.Deserted (s : Situation) : Prop where
  held : s.held = 0
  processes : ∀ key, s.machine.world.processes.get? key = none
  threads : ∀ key, s.machine.world.threads.get? key = none
  tables : ∀ key, s.machine.world.tables.get? key = none

/-- The attempt at an operation stays within the limits. -/
structure Situation.Attempts (s : Situation) (op : Operation) : Prop where
  allowed : op.Allowed s.held
  inserts : s.inserted + op.inserts < 2 ^ 64
  moments : ∀ moment : Machine, op.Passes s.machine.world moment.world →
    { s with machine := moment }.WithinLimits

/-- The references of a situation are accounted for, and stay so. -/
structure Situation.Conserved (s : Situation) : Prop where
  counted : ∀ key arena id, s.machine.world.arenas.get? key = some arena →
    (arena.refCount id).toNat = s.references ⟨key, id⟩
  there : ∀ key arena id, s.machine.world.arenas.get? key = some arena →
    (arena.contains id ↔ 0 < s.references ⟨key, id⟩)
  never_again : ∀ t u ref, s.Contains ref → Run Situation.WithinLimits s t → ¬ t.Contains ref →
    Run Situation.WithinLimits t u → ¬ u.Contains ref
  never_missed : ∀ op fault machine, s.Attempts op → op.run s.machine = .error fault machine →
    ∀ id, fault ≠ .retainDestroyed id
  emptied : s.Deserted → ∀ key arena, s.machine.world.arenas.get? key = some arena →
    arena.size = 0

theorem Situation.contains_iff {ref : ObjectRef} :
    s.Contains ref ↔ (s.machine.world.refs? ref).isSome := by
  unfold Contains World.refs?
  cases s.machine.world.arenas.get? ref.arena with
  | none => simp
  | some arena => simp [Arena.contains_eq_isSome]

theorem Roster.total_eq_zero {α : Type} {roster : Roster α} (none : ∀ key, roster.get? key = none)
    (f : α → Nat) : roster.total f = 0 := by
  simp [total, none]

theorem Situation.Deserted.references (deserted : s.Deserted) (ref : ObjectRef) :
    s.references ref = 0 := by
  simp [Situation.references, World.references, World.count, deserted.held,
    Roster.total_eq_zero deserted.processes, Roster.total_eq_zero deserted.threads,
    Roster.total_eq_zero deserted.tables]

theorem Arena.size_eq_zero {arena : Arena} (none : ∀ id, arena.contains id = false) :
    arena.size = 0 := by
  have empty : arena.entries = ∅ := by
    apply Std.ExtTreeMap.ext_getElem?
    intro raw
    have := none ⟨raw⟩
    rw [Arena.contains_eq_isSome, Option.isSome_eq_false_iff, Option.isNone_iff_eq_none] at this
    simpa [Arena.find?] using this
  rw [Arena.size, empty]
  rfl

section

variable {past : World} (sound : s.Sound True past)
include sound

theorem Situation.Sound.known {ref : ObjectRef} (h : s.Contains ref) :
    s.machine.world.Known ref := by
  obtain ⟨arena, found, contained⟩ := h
  rw [Arena.contains_eq_isSome] at contained
  exact ⟨arena, found, (sound.numbered trivial _ _ found).2 _ contained⟩

theorem Situation.Sound.accounts (within : s.WithinLimits) : s.Conserved where
  counted key arena id found := by
    have count := (sound.counts ⟨key, id⟩).toNat trivial (within.1 _)
    rw [World.refs?_eq_some found] at count
    exact count
  there key arena id found := by
    have agrees := sound.counts ⟨key, id⟩
    rw [World.refs?_eq_some found] at agrees
    rw [Arena.contains_eq_isSome]
    cases h : arena.find? id with
    | none =>
      rw [h] at agrees
      have zero : s.references ⟨key, id⟩ = 0 := agrees trivial
      simp [zero]
    | some entry =>
      rw [h] at agrees
      have pos : 0 < s.references ⟨key, id⟩ := agrees.pos
      simp [pos]
  never_again t u ref contained toGone gone later back := by
    -- what was known when it was there is still known when it is gone, and is not given out again
    obtain ⟨atGone, withinGone⟩ :=
      toGone.sound True (fun _ _ h => h) (World.Sound.now sound) fun _ => within
    have known := (atGone.since trivial).known ref (sound.known contained)
    obtain ⟨atBack, -⟩ := later.sound True (fun _ _ h => h) (World.Sound.now atGone) withinGone
    rw [Situation.contains_iff] at gone back
    exact gone ((atBack.since trivial).gone ref known back)
  never_missed op fault machine attempts faulted :=
    (Operation.sound_run op sound (fun _ => within.1) (fun _ => attempts.inserts)
      attempts.allowed fun _ moment passes =>
        (attempts.moments ⟨moment, #[]⟩ passes).1).of_error faulted trivial
  emptied deserted key arena found := by
    apply Arena.size_eq_zero
    intro id
    rw [Arena.contains_eq_isSome, Option.isSome_eq_false_iff, Option.isNone_iff_eq_none]
    have agrees := sound.counts ⟨key, id⟩
    rw [World.refs?_eq_some found] at agrees
    cases h : arena.find? id with
    | none => rfl
    | some entry =>
      rw [h] at agrees
      have := agrees.pos
      have : s.references ⟨key, id⟩ = 0 := deserted.references _
      unfold Situation.references at this
      omega

end

theorem Run.sound_of_new (run : Run Situation.WithinLimits .new s) :
    s.Sound True World.new ∧ s.WithinLimits := by
  obtain ⟨sound, within⟩ := run.sound True (fun _ _ h => h) (Situation.sound_new True)
    fun _ => Situation.withinLimits_new
  exact ⟨sound, within trivial⟩

/-- **References are conserved** in every situation that a run within the limits reaches. -/
theorem Run.conserved (run : Run Situation.WithinLimits .new s) : s.Conserved := by
  obtain ⟨sound, within⟩ := run.sound_of_new
  exact sound.accounts within

/-- An event that its creator shared once. -/
theorem conserved_after_sharing :
    ∃ s, Run Situation.WithinLimits .new s ∧ s.references ⟨⟨0⟩, ⟨1⟩⟩ = 2 ∧ s.Conserved := by
  have created : Situation.new.perform? (.createEvent "" .oneShot) = some _ := rfl
  have run : Run Situation.WithinLimits .new _ :=
    .perform .refl created (fun _ => False.elim)
      (Situation.withinLimits_of_size (by decide +kernel) (by decide +kernel))
  have run := run.perform (show Situation.perform? _ (.share ⟨⟨0⟩, ⟨1⟩⟩) = some _ from rfl)
    (fun _ => False.elim) (Situation.withinLimits_of_size (by decide +kernel) (by decide +kernel))
  exact ⟨_, run, by decide +kernel, Run.conserved run⟩

end MicrokernelIpc
