import MicrokernelIpc.Script.Desk
import MicrokernelIpc.Script.Memory
import MicrokernelIpc.Script.Tables

/-!
# Running scripts

A script for the kernel runs in a fresh world, a script for one command buffer on that
buffer. A fault ends a script: its last answer is the fault. Steps inside of steps have a
command buffer before them, and the answer of a step whose inner steps end on a fault is
just the fault.
-/

namespace MicrokernelIpc.Script

/-- Where a step stands: the request being handled, if any, and the command buffer that the
steps around it work on, if any. -/
structure Place where
  request : Option RequestContext
  desk : Option Desk

/-- The ids of those who take part in a request. -/
def describeContext (context : RequestContext) : Run Answer := do
  let caller ← threadAt context.caller
  let server ← threadAt context.server
  return .context caller.threadId server.threadId
    (← processAt caller.owner).processId (← processAt server.owner).processId

/-- One object in the overview. -/
def lineOf (arena : Arena) (id : ObjectId) : Option ObjectLine :=
  (arena.find? id).map fun entry =>
    ⟨⟨id, some entry.object.kind, entry.refs⟩, entry.object.name, entry.object.shouldWait⟩

/-- The number of handles of every handle table that has a name. -/
def tableSizes (state : ScriptState) : List (String × Nat) :=
  state.names.toList.filterMap fun (name, value) =>
    match value with
    | .process key => (state.machine.world.table? (.process key)).map fun t => (name, t.live)
    | .table key => (state.machine.world.table? (.standalone key)).map fun t => (name, t.live)
    | _ => none

/-- All objects of the current kernel, and the handle tables. -/
def describeState : Run Answer := do
  let arena ← arenaAt (← arenaOrCurrent none)
  return .state (arena.ids.filterMap (lineOf arena)) arena.size (tableSizes (← get))

mutual

/-- Do one step where it stands. Gives the command buffer as the step left it. -/
def runStep (place : Place) : Step → Run (Answer × Option Desk)
  | .buffer step => do
    match place.desk with
    | some desk =>
      let (answer, desk) ← desk.run step
      return (answer, some desk)
    | none => misuse "no command buffer here"
  | .object step => return (← runObjectStep step, place.desk)
  | .newTable name => do
    bindOrDiscard name (.table (← newTable))
    return (.done, place.desk)
  | .table table step => return (← runTableStep (← tableNamed table) step, place.desk)
  | .memory process step => return (← runMemoryStep (← processNamed process) step, place.desk)
  | .command step => return (← runCommandStep step, place.desk)
  | .compose thread steps => do
    let key ← threadNamed thread
    let answer ← holdingThread key do
      let (answers, buffer) ← runInner place.request .zero steps
      let outcome ← (storeCommandBuffer key buffer).run
      return .composed answers (Refusal.ofOutcome? Refusal.memory outcome)
    return (answer, place.desk)
  | .study thread steps => do
    let key ← threadNamed thread
    let answer ← holdingThread key do
      match ← (loadCommandBuffer key).run with
      | .error error => return .refused (.memory error)
      | .ok buffer =>
        let (answers, _) ← runInner place.request buffer steps
        return .studied answers
    return (answer, place.desk)
  | .send client server handler => do
    let client ← threadNamed client
    let server ← threadNamed server
    let exchange ← holdingThread client <| holdingThread server <|
      sendRequest client server fun context request => runInner (some context) request handler
    return (.sent exchange.answer (Refusal.ofOutcome? Refusal.delivery exchange.outcome),
      place.desk)
  | .context => do
    match place.request with
    | some context => return (← describeContext context, place.desk)
    | none => misuse "no request is being handled"
  | .state => return (← describeState, place.desk)

/-- Do steps in order. -/
def runSteps (place : Place) : List Step → Run (List Answer × Option Desk)
  | [] => return ([], place.desk)
  | step :: rest => do
    let (answer, desk) ← runStep place step
    let (answers, desk) ← runSteps { place with desk } rest
    return (answer :: answers, desk)

/-- Do steps on a command buffer of their own. Gives the buffer as they left it. -/
def runInner (request : Option RequestContext) (buffer : CommandBuffer) (steps : List Step) :
    Run (List Answer × CommandBuffer) := do
  let (answers, desk) ← runSteps ⟨request, some (.idle buffer)⟩ steps
  return (answers, (desk.map Desk.buffer).getD buffer)

end

/-! ## Whole scripts -/

/-- A step of a script as a whole. What a quiet step notes is not reported. -/
structure TopStep where
  step : Step
  quiet : Bool

/-- The answer of a step and what was noted meanwhile. -/
structure Entry where
  answer : Answer
  notices : List Notice

/-- Run a script for the kernel from a state. -/
def runKernelFrom (state : ScriptState) : List TopStep → List Entry
  | [] => []
  | top :: rest =>
    let fresh := { state with machine := { state.machine with journal := #[] } }
    let notices (state : ScriptState) := if top.quiet then [] else state.machine.journal.toList
    match runStep ⟨none, none⟩ top.step fresh with
    | .ok (answer, _) state => ⟨answer, notices state⟩ :: runKernelFrom state rest
    | .error stop state => [⟨.stopped stop, notices state⟩]

/-- Run a script for the kernel in a fresh world. -/
def runKernel (steps : List TopStep) : List Entry := runKernelFrom ScriptState.new steps

/-- Run a script for one command buffer from a state. Gives the answers, and the buffer in
the end unless a fault ended the script. -/
def runBufferFrom (state : ScriptState) (desk : Desk) :
    List BufferStep → List Answer × Option CommandBuffer
  | [] => ([], some desk.buffer)
  | step :: rest =>
    match desk.run step state with
    | .ok (answer, desk) state =>
      let (answers, buffer) := runBufferFrom state desk rest
      (answer :: answers, buffer)
    | .error stop _ => ([.stopped stop], none)

/-- Run a script for one command buffer that begins with the given words. -/
def runBuffer (words : List UInt32) (steps : List BufferStep) :
    List Answer × Option CommandBuffer :=
  runBufferFrom ScriptState.new (.idle (.ofList words)) steps

end MicrokernelIpc.Script
