import MicrokernelIpc.Script.Objects

/-!
# Steps on handle tables

A step issues handles for references that a script holds. It takes one more reference for
the table, except when the script gives its own away; that one is gone then, even when the
table is full.
-/

namespace MicrokernelIpc.Script

/-- Issue a handle for one more reference to an object. -/
def createHandleFor (key : TableKey) (ref : ObjectRef) :
    Action (Except HandleTableError Handle) := do
  retain ref
  (createHandle key ref).run

/-- Issue a number of handles for an object, up to the first error. Gives how many were
issued and what came of the last attempt. -/
def fillTable (key : TableKey) (ref : ObjectRef) (created : Nat)
    (last : Option (Except HandleTableError Handle)) :
    Nat → Action (Nat × Option (Except HandleTableError Handle))
  | 0 => return (created, last)
  | count + 1 => do
    match ← createHandleFor key ref with
    | .ok handle => fillTable key ref (created + 1) (some (.ok handle)) count
    | .error error => return (created, some (.error error))

/-- Issue a handle for an object and close it again, a number of times or up to the first
error. Gives what came of the last attempt. -/
def churnTable (key : TableKey) (ref : ObjectRef)
    (last : Option (Except HandleTableError Handle)) :
    Nat → Action (Option (Except HandleTableError Handle))
  | 0 => return last
  | count + 1 => do
    match ← createHandleFor key ref with
    | .ok handle =>
      let _ ← (closeHandle key handle).run
      churnTable key ref (some (.ok handle)) count
    | .error error => return some (.error error)

/-- Bind the handle of a step that may have failed. -/
def bindHandle (name : Option String) (outcome : Except HandleTableError Handle) : Run Unit :=
  match name, outcome with
  | some name, .ok handle => bindName name (.handle handle)
  | _, _ => return ()

/-- Bind the handle of a step, and answer with it. -/
def issue (name : Option String) (outcome : Except HandleTableError Handle) : Run Answer := do
  bindHandle name outcome
  return .ofHandle outcome

/-- Bind the last handle of several attempts. -/
def bindLast (name : Option String) (last : Option (Except HandleTableError Handle)) :
    Run (Option (Except Refusal Handle)) := do
  match last with
  | none => return none
  | some outcome =>
    bindHandle name outcome
    return some (outcome.mapError Refusal.table)

/-- Answer with what is known of a reference that came out of a table, then bind it. -/
def receive (name : Option String) : Option ObjectRef → Run Answer
  | none => return .nothing
  | some ref => do
    let summary ← summarize ref
    bindOrDiscard name (.reference ref)
    return .counted summary

/-- Do one step on a handle table. -/
def runTableStep (key : TableKey) : TableStep → Run Answer
  | .create name ref => do
    issue name (← createHandleFor key (← refNamed ref))
  | .give name ref => do
    match ← unbind ref with
    | .reference object => issue name (← (createHandle key object).run)
    | _ => misuse (ref ++ " is no reference of its own")
  | .fill name ref count => do
    let (created, last) ← fillTable key (← refNamed ref) 0 none count
    return .filled created (← bindLast name last)
  | .churn name ref count => do
    let last ← churnTable key (← refNamed ref) none count
    return .churned (← bindLast name last)
  | .duplicate name handle => do
    issue name (← (duplicateHandle key (← handle.handle)).run)
  | .close handle => do
    return .ofOutcome Refusal.table (← (closeHandle key (← handle.handle)).run)
  | .take name handle => do
    receive name (← takeHandle key (← handle.handle))
  | .acquire name handle => do
    receive name (← acquireHandle key (← handle.handle))
  | .get handle => do
    let handle ← handle.handle
    let table ← tableAt key
    return .resolved (table.get? handle) (table.isLive handle)
  | .clear => do
    clearTable key
    return .done
  | .describe => do
    let table ← tableAt key
    return .table table.live table.isEmpty table.text

end MicrokernelIpc.Script
