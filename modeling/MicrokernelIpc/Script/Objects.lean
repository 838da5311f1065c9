import MicrokernelIpc.Script.Variables

/-!
# Steps on objects

A step that makes something answers with what is known of it before it is bound, so a thing
that nothing is bound to is still described. An action on an object of another kind answers
nothing and leaves the object as it is.
-/

namespace MicrokernelIpc.Script

/-- An object's identifier, kind and references at this moment. -/
def summarize (ref : ObjectRef) : Action ObjectSummary := do
  let arena ← arenaAt ref.arena
  return ⟨ref.id, (arena.object? ref.id).map KernelObject.kind, arena.refCount ref.id⟩

/-- The object of a plan. -/
def ObjectPlan.object : ObjectPlan → Except SemaphoreError KernelObject
  | .event name reset => .ok (.event (.new name reset))
  | .semaphore name initial maxCount => (Semaphore.make name initial maxCount).map .semaphore
  | .sharedMemory name size owner other => .ok (.sharedMemory (.new name size owner other))
  | .thread name threadId processId => .ok (.thread ⟨name, threadId, processId⟩)
  | .process name processId => .ok (.process ⟨name, processId⟩)
  | .session name sessionId endpoint => .ok (.session ⟨name, sessionId, endpoint⟩)

/-- Answer with what is known of a new object, then bind it. -/
def introduce (name : Option String) (ref : ObjectRef) : Run Answer := do
  let summary ← summarize ref
  bindOrDiscard name (.reference ref)
  return .object summary

/-- What an action does with an object. Objects of a kind that the action is not for answer
nothing and stay as they are. -/
def ObjectAction.perform (action : ObjectAction) (object : KernelObject) :
    Answer × KernelObject :=
  match action, object with
  | .show, _ => (.shown object, object)
  | .acquire, _ => (.flag object.acquire.1, object.acquire.2)
  | .signal, .event e => (.flag e.signal.signaled, .event e.signal)
  | .clear, .event e => (.flag e.clear.signaled, .event e.clear)
  | .release count, .semaphore s =>
    match s.release count with
    | .ok (previous, next) => (.released previous next.available, .semaphore next)
    | .error error => (.refused (.semaphore error), object)
  | .load offset length, .sharedMemory b =>
    match b.load offset length with
    | .ok bytes => (.bytes bytes, object)
    | .error error => (.refused (.memory error), object)
  | .store offset data, .sharedMemory b =>
    match b.store offset data with
    | .ok next => (.done, .sharedMemory next)
    | .error error => (.refused (.memory error), object)
  | _, _ => (.nothing, object)

/-- Do one step on objects. -/
def runObjectStep : ObjectStep → Run Answer
  | .newKernel => do
    newKernel
    return .done
  | .newArena name => do
    bindOrDiscard name (.arena (← newArena))
    return .done
  | .createProcess bind name => do
    let key ← createProcess name
    let process ← processAt key
    bindOrDiscard bind (.process key)
    return .processMade process.processId process.object.id
  | .createThread bind process name => do
    let key ← createThread (← processNamed process) name
    let thread ← threadAt key
    bindOrDiscard bind (.thread key)
    return .threadMade thread
  | .processInfo process => do
    return .processInfo (← processAt (← processNamed process))
  | .threadInfo thread => do
    let thread ← threadAt (← threadNamed thread)
    return .threadInfo thread (← processAt thread.owner).processId
  | .createEvent bind name reset => do
    introduce bind (← createEvent name reset)
  | .createSemaphore bind name initial maxCount => do
    match ← (createSemaphore name initial maxCount).run with
    | .ok ref => introduce bind ref
    | .error error => return .refused (.semaphore error)
  | .createSharedMemory bind name size owner other => do
    introduce bind (← createSharedMemory name size owner other)
  | .createSessionPair bindServer bindClient name => do
    let (server, client) ← createSessionPair name
    let serverSummary ← summarize server
    bindOrDiscard bindServer (.reference server)
    let clientSummary ← summarize client
    bindOrDiscard bindClient (.reference client)
    return .sessionPair serverSummary clientSummary
  | .insert bind plan arena => do
    let key ← arenaOrCurrent arena
    match plan.object with
    | .error error => return .refused (.semaphore error)
    | .ok object =>
      let ref ← insertObject key object
      let summary ← summarize ref
      bindOrDiscard bind (.reference ref)
      return if arena.isSome then .counted summary else .object summary
  | .share bind ref => do
    let ref ← refNamed ref
    retain ref
    let summary ← summarize ref
    bindOrDiscard bind (.reference ref)
    return .counted summary
  | .letGo name => do
    let value ← unbind name
    value.discard
    return .done
  | .describe ref => do
    let ref ← refNamed ref
    return .described (← summarize ref) ref.text
  | .sameObject ref other => do
    return .flag ((← refNamed ref) == (← refNamed other))
  | .act object action => do
    let ref ← object.ref
    match ← objectAt ref with
    | none => return .noObject
    | some object =>
      let (answer, next) := action.perform object
      setObject ref next
      return answer
  | .arena arena => do
    let arena ← arenaAt (← arenaOrCurrent arena)
    return .arena arena.size arena.text
  | .entry id => do
    let ref : ObjectRef := ⟨← arenaOrCurrent none, id⟩
    return .entry ((← arenaAt ref.arena).contains id) (← summarize ref)

end MicrokernelIpc.Script
