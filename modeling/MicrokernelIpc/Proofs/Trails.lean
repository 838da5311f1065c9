import MicrokernelIpc.Proofs.Runs

/-!
# Trails of runs

A trail is a run that remembers its operations, so that it can be said how often something was
asked for, and a run that asks only for what its guests can ask for.
-/

namespace MicrokernelIpc

/-- The situations that a sequence of operations leads to, as long as all on the way are admitted
and each operation may be asked for in the world that it is asked in. -/
inductive Trail (admitted : Situation → Prop) (asks : World → Operation → Prop) (start : Situation) :
    List Operation → Situation → Prop
  | refl : Trail admitted asks start [] start
  | step {ops : List Operation} {s : Situation} {op : Operation} {gained : Multiset ObjectRef}
      {machine : Machine} (trail : Trail admitted asks start ops s)
      (asked : asks s.machine.world op) (allowed : op.Allowed s.held)
      (returned : op.run s.machine = .ok gained machine)
      (moments : ∀ moment : Machine, op.Passes s.machine.world moment.world →
        admitted { s with machine := moment })
      (reached : admitted (s.after op gained machine)) :
      Trail admitted asks start (ops ++ [op]) (s.after op gained machine)

namespace Trail

variable {admitted : Situation → Prop} {asks : World → Operation → Prop} {start s t : Situation}
variable {ops more : List Operation}

theorem run (trail : Trail admitted asks start ops s) : Run admitted start s := by
  induction trail with
  | refl => exact .refl
  | step _ _ allowed returned moments reached ih => exact .step ih allowed returned moments reached

theorem append (trail : Trail admitted asks start ops s) (later : Trail admitted asks s more t) :
    Trail admitted asks start (ops ++ more) t := by
  induction later with
  | refl => rwa [List.append_nil]
  | step _ asked allowed returned moments reached ih =>
    rw [← List.append_assoc]
    exact .step ih asked allowed returned moments reached

theorem perform {op : Operation} (trail : Trail admitted asks start ops s)
    (asked : asks s.machine.world op) (performed : s.perform? op = some t)
    (moments : ∀ moment : Machine, op.Passes s.machine.world moment.world →
      admitted { s with machine := moment })
    (reached : admitted t) : Trail admitted asks start (ops ++ [op]) t := by
  unfold Situation.perform? at performed
  split at performed
  · next allowed =>
    split at performed
    · next returned =>
      obtain rfl := Option.some.inj performed
      exact .step trail asked allowed returned moments reached
    · cases performed
  · cases performed

/-- Operations that may be asked for in any world are performed one after the other. -/
theorem performs (trail : Trail admitted asks start ops s) (asked : ∀ op ∈ more, ∀ w, asks w op)
    (moments : ∀ op ∈ more, ∀ (s : Situation) (moment : Machine),
      op.Passes s.machine.world moment.world → admitted { s with machine := moment })
    (reached : ∀ n t, (more.take n).foldlM Situation.perform? s = some t → admitted t)
    (performed : more.foldlM Situation.perform? s = some t) :
    Trail admitted asks start (ops ++ more) t := by
  induction more generalizing ops s with
  | nil =>
    obtain rfl : s = t := Option.some.inj performed
    rwa [List.append_nil]
  | cons op rest ih =>
    obtain ⟨next, first, after⟩ := Option.bind_eq_some_iff.1 performed
    have here : admitted next := by
      refine reached 1 next ?_
      rw [List.take_succ_cons, List.foldlM_cons, first]
      rfl
    have step : Trail admitted asks start (ops ++ [op]) next :=
      trail.perform (asked op List.mem_cons_self _) first (moments op List.mem_cons_self s) here
    rw [List.append_cons]
    refine ih step (fun op mem => asked op (List.mem_cons_of_mem _ mem))
      (fun op mem => moments op (List.mem_cons_of_mem _ mem)) (fun n t later => ?_) after
    refine reached (n + 1) t ?_
    rw [List.take_succ_cons, List.foldlM_cons, first]
    exact later

end Trail

end MicrokernelIpc
