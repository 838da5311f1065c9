import MicrokernelIpc.Kernel.Machine

/-!
# Where an action leads

An action is judged by the world that it leaves, for nothing depends on the journal: `Leads`
says what holds of its value and of the world it leaves, and which faults may stop it. There
is a rule for each way that actions are put together. A judgement that allows no fault is the
promise that the action returns.
-/

namespace MicrokernelIpc

variable {ε α β : Type} {world : World} {post mid : α → World → Prop} {stop halted : Fault → Prop}

/-- What an action comes to from a world, whatever was noted before. -/
def Leads (world : World) (action : Action α) (post : α → World → Prop) (stop : Fault → Prop) :
    Prop :=
  ∀ journal, match action ⟨world, journal⟩ with
    | .ok value machine => post value machine.world
    | .error fault _ => stop fault

theorem Leads.of_ok {action : Action α} {machine next : Machine} {value : α}
    (leads : Leads machine.world action post stop) (h : action machine = .ok value next) :
    post value next.world := by
  have := leads machine.journal
  rwa [h] at this

theorem Leads.of_error {action : Action α} {machine next : Machine} {fault : Fault}
    (leads : Leads machine.world action post stop) (h : action machine = .error fault next) :
    stop fault := by
  have := leads machine.journal
  rwa [h] at this

/-- A judgement that allows every fault is about returns alone. -/
theorem leads_of_ok {action : Action α} (returns : ∀ journal value machine,
    action ⟨world, journal⟩ = .ok value machine → post value machine.world) :
    Leads world action post fun _ => True := by
  intro journal
  split
  · next h => exact returns journal _ _ h
  · trivial

/-- An action that no fault can stop returns. -/
theorem Leads.returns {action : Action α} {machine : Machine}
    (leads : Leads machine.world action post fun _ => False) :
    ∃ value next, action machine = .ok value next ∧ post value next.world := by
  cases h : action machine with
  | ok value next => exact ⟨value, next, rfl, leads.of_ok h⟩
  | error fault next => exact (leads.of_error h).elim

theorem Leads.mono {action : Action α} (leads : Leads world action mid halted)
    (posts : ∀ value next, mid value next → post value next)
    (stops : ∀ fault, halted fault → stop fault) : Leads world action post stop := by
  intro journal
  have := leads journal
  split
  · next h =>
    rw [h] at this
    exact posts _ _ this
  · next h =>
    rw [h] at this
    exact stops _ this

/-- From some journal the action gives the value and leaves the world. -/
def Reaches (world : World) (action : Action α) (value : α) (next : World) : Prop :=
  ∃ journal machine, action ⟨world, journal⟩ = .ok value machine ∧ machine.world = next

/-- A run that leaves something to read has returned. -/
theorem exists_of_runFrom {action : Action α} {machine : Machine} {read : α × Machine → β}
    {result : β} (run : (Effect.runFrom action machine).map read = .ok result) :
    ∃ value next, action machine = .ok value next ∧ read (value, next) = result := by
  unfold Effect.runFrom at run
  cases h : action machine with
  | ok value next =>
    rw [h] at run
    exact ⟨value, next, rfl, Except.ok.inj run⟩
  | error fault next =>
    rw [h] at run
    cases run

/-- What an action gives when it is run is reached. -/
theorem exists_reaches {action : Action α} {machine : Machine} (read : α → β) {result : β}
    (run : (Effect.runFrom action machine).map (fun ended => read ended.1) = .ok result) :
    ∃ value next, Reaches machine.world action value next ∧ read value = result := by
  obtain ⟨value, next, returned, reads⟩ := exists_of_runFrom run
  exact ⟨value, next.world, ⟨machine.journal, next, returned, rfl⟩, reads⟩

theorem Leads.of_reaches {action : Action α} {value : α} {next : World}
    (leads : Leads world action post stop) (reaches : Reaches world action value next) :
    post value next := by
  obtain ⟨journal, machine, h, rfl⟩ := reaches
  have := leads journal
  rwa [h] at this

/-- What is judged of an action's end may use that the action reaches it. -/
theorem Leads.reaches {action : Action α} (leads : Leads world action post stop) :
    Leads world action (fun value next => post value next ∧ Reaches world action value next)
      stop := by
  intro journal
  have := leads journal
  split
  · next value machine h =>
    rw [h] at this
    exact ⟨this, journal, machine, h, rfl⟩
  · next h => rwa [h] at this

/-! ## Putting actions together -/

theorem leads_pure {value : α} (h : post value world) :
    Leads world (pure value : Action α) post stop :=
  fun _ => h

theorem leads_throw {fault : Fault} (h : stop fault) :
    Leads world (throw fault : Action α) post stop :=
  fun _ => h

theorem Leads.bind {action : Action α} {rest : α → Action β} {post : β → World → Prop}
    (leads : Leads world action mid stop)
    (after : ∀ value next, mid value next → Leads next (rest value) post stop) :
    Leads world (action >>= rest) post stop := by
  intro journal
  have first := leads journal
  show match EStateM.bind action rest ⟨world, journal⟩ with
    | .ok value machine => post value machine.world
    | .error fault _ => stop fault
  unfold EStateM.bind
  cases h : action ⟨world, journal⟩ with
  | ok value machine =>
    rw [h] at first
    exact after value machine.world first machine.journal
  | error fault machine =>
    rw [h] at first
    exact first

/-- Two actions one after the other give what the second gives for what the first gave. -/
theorem bind_eq_ok_iff {action : Action α} {rest : α → Action β} {machine last : Machine}
    {result : β} : (action >>= rest) machine = .ok result last ↔
      ∃ value next, action machine = .ok value next ∧ rest value next = .ok result last := by
  show EStateM.bind action rest machine = _ ↔ _
  unfold EStateM.bind
  cases action machine with
  | ok value next =>
    constructor
    · exact fun h => ⟨value, next, rfl, h⟩
    · rintro ⟨_, _, ⟨⟩, h⟩
      exact h
  | error =>
    constructor
    · exact fun h => nomatch h
    · rintro ⟨_, _, h, -⟩
      cases h

/-- Looking at the machine: what is done with it has to hold whatever its journal is. -/
theorem leads_get_bind {rest : Machine → Action β} {post : β → World → Prop}
    (after : ∀ journal, Leads world (rest ⟨world, journal⟩) post stop) :
    Leads world ((get : Action Machine) >>= rest) post stop :=
  fun journal => after journal journal

/-- Looking at a part of the world that has to be there. -/
theorem leads_read_bind (read : World → Option α) {rest : α → Action β} {post : β → World → Prop}
    (some : ∀ value, read world = some value → Leads world (rest value) post stop)
    (none : read world = none → stop .discarded) :
    Leads world ((do present (read (← get).world)) >>= rest) post stop := by
  have looks : Leads world (do present (read (← get).world))
      (fun value next => next = world ∧ read world = .some value) stop := by
    apply leads_get_bind
    intro journal
    cases h : read world with
    | none => exact leads_throw (none h)
    | some value => exact leads_pure ⟨rfl, rfl⟩
  apply looks.bind
  rintro value _ ⟨rfl, h⟩
  exact some value h

theorem leads_note {notice : Notice} {post : Unit → World → Prop} (h : post () world) :
    Leads world (note notice) post stop :=
  fun _ => h

theorem leads_note_bind {notice : Notice} {rest : Unit → Action β} {post : β → World → Prop}
    (after : Leads world (rest ()) post stop) :
    Leads world (note notice >>= rest) post stop :=
  fun journal => after (journal.push notice)

theorem leads_modifyWorld {f : World → World} {post : Unit → World → Prop} (h : post () (f world)) :
    Leads world (modifyWorld f) post stop :=
  fun _ => h

theorem leads_modifyWorld_bind {f : World → World} {rest : Unit → Action β}
    {post : β → World → Prop} (after : Leads (f world) (rest ()) post stop) :
    Leads world (modifyWorld f >>= rest) post stop :=
  fun journal => after journal

/-- A step without a state that may fault. -/
theorem leads_liftExcept_bind {step : Except Fault α} {rest : α → Action β}
    {post : β → World → Prop}
    (ok : ∀ value, step = .ok value → Leads world (rest value) post stop)
    (error : ∀ fault, step = .error fault → stop fault) :
    Leads world ((liftM step : Action α) >>= rest) post stop := by
  cases h : step with
  | ok value => exact ok value h
  | error fault => exact fun _ => error fault h

/-! ## Attempts -/

theorem leads_run_pure {value : α} {post : Except ε α → World → Prop} (h : post (.ok value) world) :
    Leads world (pure value : Attempt ε α).run post stop :=
  fun _ => h

theorem leads_run_throw {error : ε} {post : Except ε α → World → Prop}
    (h : post (.error error) world) : Leads world (throw error : Attempt ε α).run post stop :=
  fun _ => h

/-- An attempt goes on after what was attempted first, and ends with it if that is refused. -/
theorem Leads.bindRun {attempt : Attempt ε α} {rest : α → Attempt ε β}
    {mid : Except ε α → World → Prop} {post : Except ε β → World → Prop}
    (leads : Leads world attempt.run mid stop)
    (after : ∀ value next, mid (.ok value) next → Leads next (rest value).run post stop)
    (refused : ∀ error next, mid (.error error) next → post (.error error) next) :
    Leads world (attempt >>= rest).run post stop := by
  rw [ExceptT.run_bind]
  apply leads.bind
  intro value next h
  cases value with
  | ok value => exact after value next h
  | error error => exact leads_pure (refused error next h)

/-- An action inside of an attempt cannot be refused. -/
theorem run_lift_bind (action : Action α) (rest : α → Attempt ε β) :
    ((liftM action : Attempt ε α) >>= rest).run = action >>= fun value => (rest value).run := by
  funext machine
  show EStateM.bind (EStateM.bind action _) _ machine = EStateM.bind action _ machine
  unfold EStateM.bind
  cases action machine <;> rfl

/-- An attempt whose errors are renamed. -/
theorem Leads.adapt {δ : Type} {attempt : Attempt ε α} {mid : Except ε α → World → Prop}
    (leads : Leads world attempt.run mid stop) (rename : ε → δ) :
    Leads world (attempt.adapt rename).run
      (fun outcome next => ∃ first, outcome = first.mapError rename ∧ mid first next) stop := by
  show Leads world ((fun first => first.mapError rename) <$> attempt.run) _ _
  rw [map_eq_pure_bind]
  exact leads.bind fun first next h => leads_pure ⟨first, rfl, h⟩

theorem run_lift (action : Action α) :
    (liftM action : Attempt ε α).run = action >>= fun value => pure (.ok value) :=
  rfl

end MicrokernelIpc
