import MicrokernelIpc.Proofs.Delivery.Stages

/-!
# The eager translator

What a delivery comes to can be said with less: the command's words are copied, and the
descriptors of the transfer region are taken in order, handle by handle, where each handle takes
effect at once. A handle that is moved is taken out of the sender's table on the spot, and
nothing is ever undone.
-/

namespace MicrokernelIpc

namespace Eager

/-- Put a reference into the receiver's table. Gives the word for its new handle. -/
def issue (route : Route) (object : ObjectRef) (w : World) : Option (UInt32 × World) := do
  let table ← w.table? route.receiverTable
  let (handle, table) ← table.allocate object
  return (handle.raw, w.setTable table route.receiverTable)

/-- Hand one handle over. What names nothing at the sender becomes zero. A handle that is moved
goes over with its reference; for any other one, and for pseudo-handles, a reference is taken. -/
def hand (route : Route) (moving : Bool) (w : World) (handle : Handle) :
    Option (UInt32 × World) :=
  match route.find? w handle with
  | none => some (0, w)
  | some object =>
    if moving && !handle.isPseudo then do
      let table ← w.table? route.senderTable
      let (object, table) ← table.take handle
      issue route object (w.setTable table route.senderTable)
    else do
      issue route object (← w.retain? object)

/-- Hand the handles of a payload over, word by word. -/
def handAll (route : Route) (moving : Bool) (w : World) :
    List UInt32 → Option (List UInt32 × World)
  | [] => some ([], w)
  | word :: rest => do
    let (word, w) ← hand route moving w ⟨word⟩
    let (rest, w) ← handAll route moving w rest
    return (word :: rest, w)

/-- Do what a descriptor says with its payload. -/
def carry (route : Route) (descriptor : Descriptor) (w : World) (payload : List UInt32) :
    Option (List UInt32 × World) :=
  match descriptor with
  | .copyHandle _ => handAll route false w payload
  | .moveHandle _ => handAll route true w payload
  | .callingPid => do
    let process ← w.processes.get? route.sender.owner
    return ([process.processId], w)
  | .staticBuffer _ _ => some (payload, w)
  | .mappedBuffer _ _ => some (payload, w)

theorem carry_of_moves? {route : Route} {descriptor : Descriptor} {moving : Bool} {w : World}
    {payload : List UInt32} (announced : descriptor.moves? = some moving) :
    carry route descriptor w payload = handAll route moving w payload := by
  cases descriptor with
  | copyHandle =>
    obtain rfl := Option.some.inj announced
    rfl
  | moveHandle =>
    obtain rfl := Option.some.inj announced
    rfl
  | callingPid => cases announced
  | staticBuffer => cases announced
  | mappedBuffer => cases announced

theorem carry_of_buffer {route : Route} {descriptor : Descriptor} {w : World}
    {payload : List UInt32} (other : descriptor.moves? = none)
    (plain : descriptor ≠ .callingPid) :
    carry route descriptor w payload = some (payload, w) := by
  cases descriptor with
  | copyHandle => cases other
  | moveHandle => cases other
  | callingPid => exact absurd rfl plain
  | staticBuffer => rfl
  | mappedBuffer => rfl

/-- Take the words of a transfer region in order, a descriptor and its payload at a time. -/
def walk (route : Route) (w : World) : List UInt32 → Option (List UInt32 × World)
  | [] => some ([], w)
  | word :: rest =>
    match Descriptor.decode word with
    | .error _ => none
    | .ok descriptor => do
      let (payload, w) ← carry route descriptor w (rest.take descriptor.payloadWords)
      let (after, w) ← walk route w (rest.drop descriptor.payloadWords)
      return (word :: (payload ++ after), w)
termination_by words => words.length

theorem walk_cons {route : Route} {descriptor : Descriptor} {v mid w : World} {word : UInt32}
    {payload rest new after : List UInt32} (decoded : Descriptor.decode word = .ok descriptor)
    (length : payload.length = descriptor.payloadWords)
    (carried : carry route descriptor v payload = some (new, mid))
    (walked : walk route mid rest = some (after, w)) :
    walk route v (word :: (payload ++ rest)) = some (word :: (new ++ after), w) := by
  rw [walk]
  simp [decoded, List.take_left' length, List.drop_left' length, carried, walked]

/-- Copy a command from an address of one thread's process to an address of another's and
translate it on the way. -/
def deliver (source target : Key Thread) (sourceAddress targetAddress : UInt32) (w : World) :
    Option World := do
  let route : Route := ⟨← w.threads.get? source, ← w.threads.get? target⟩
  let memory := (← w.processes.get? route.sender.owner).memory
  let header := Header.ofWord (memory.wordAt sourceAddress.toNat)
  let words := (List.range header.totalSize).map fun index =>
    memory.wordAt (sourceAddress.toNat + 4 * index)
  let (region, w) ← walk route w (words.drop header.plainSize)
  let receiver ← w.processes.get? route.receiver.owner
  return w.setProcess route.receiver.owner { receiver with
    memory := receiver.memory.setWords targetAddress.toNat
      (words.take header.plainSize ++ region) }

/-- The command that the eager translator copies is the one that a delivery fetches. -/
theorem deliver_eq {route : Route} {source target : Key Thread} {v w : World}
    {sourceAddress targetAddress : UInt32} {process last : Process} {header : Header}
    {command : CommandBuffer} {region : List UInt32}
    (sends : w.threads.get? source = some route.sender)
    (receives : w.threads.get? target = some route.receiver)
    (owner : w.processes.get? route.sender.owner = some process)
    (fetched : process.fetch? sourceAddress = .ok (header, command))
    (walked : walk route w (command.range header.plainSize header.totalSize) = some (region, v))
    (receiving : v.processes.get? route.receiver.owner = some last) :
    deliver source target sourceAddress targetAddress w
      = some (v.setProcess route.receiver.owner { last with
          memory := last.memory.setWords targetAddress.toNat
            (command.range 0 header.plainSize ++ region) }) := by
  obtain ⟨declared, copied, bound⟩ := Process.of_fetch? fetched
  have plain := header.plainSize_le_totalSize
  rw [copied, CommandBuffer.range_ofList (by simpa using bound) (by simp),
    List.take_of_length_le (by simp)] at walked
  rw [copied, CommandBuffer.range_ofList (by simpa using bound) (by simpa using plain),
    List.drop_zero, Nat.sub_zero]
  simp [deliver, sends, receives, owner, ← declared, walked, receiving]

end Eager

end MicrokernelIpc
