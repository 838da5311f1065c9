import MicrokernelIpc.Fault

/-!
# Computations over a state

The library's computations work on a state and may stop on a fault; the state that was
reached stays known even then. A computation that may also be refused gives back an error
of its own kind, again with the state that was reached: whether a refused computation left
the state alone is a fact to be proved, not a matter of types.
-/

namespace MicrokernelIpc

/-- A computation over a state that may stop on a fault. -/
abbrev Effect (σ : Type) := EStateM Fault σ

/-- A computation over a state that may be refused with an error or stop on a fault. -/
abbrev Refusable (ε σ : Type) := ExceptT ε (Effect σ)

/-- A stateless computation that may fault is one that leaves the state alone. -/
instance {σ : Type} : MonadLift (Except Fault) (Effect σ) where
  monadLift
    | .ok value => pure value
    | .error fault => throw fault

namespace Effect

variable {τ α : Type}

/-- Run a computation from a state of its own and keep the state it reaches. -/
def runFrom (effect : Effect τ α) (start : τ) : Except Fault (α × τ) :=
  match effect start with
  | .ok value state => .ok (value, state)
  | .error fault _ => .error fault

end Effect

/-- Stop on a fault inside a computation that may be refused. -/
def halt {ε σ α : Type} (fault : Fault) : Refusable ε σ α :=
  ExceptT.lift (throw fault : Effect σ α)

end MicrokernelIpc
