import MicrokernelIpc.Proofs.Delivery.Names
import MicrokernelIpc.Proofs.Memory.ReadBack

/-!
# Commands that arrived

When a command has arrived, its words stand in the receiver's memory, walked from those in the
sender's, and the handles that were moved have been closed after all of them were handed over.
-/

namespace MicrokernelIpc

namespace World

variable {w w' : World} {key other : TableKey} {handle : Handle} {handles : List Handle}
variable {outcome : Except HandleTableError Unit} {table : HandleTable}

/-! ## Handles that are closed one after the other -/

theorem Closes.resolve (closes : w.Closes key handle outcome w') (found : w.table? key = some table) :
    ∃ next, w'.table? key = some next ∧
      ∀ other, next.resolve other = if other = handle then none else table.resolve other := by
  cases closes with
  | unknown there unresolved =>
    obtain rfl := Option.some.inj (found.symm.trans there)
    refine ⟨table, found, fun other => ?_⟩
    split
    · next same => rw [same, HandleTable.take_eq_none_iff.1 unresolved]
    · rfl
  | closed there taken released =>
    obtain rfl := Option.some.inj (found.symm.trans there)
    exact ⟨_, (table?_of_release? released).trans (table?_setTable_self found _),
      (HandleTable.drops_of_take taken).resolve⟩

theorem Closes.table?_of_ne (closes : w.Closes key handle outcome w') (h : key ≠ other) :
    w'.table? other = w.table? other := by
  cases closes with
  | unknown => rfl
  | closed _ _ released => rw [table?_of_release? released, table?_setTable, if_neg h]

theorem Closes.memory?_eq (closes : w.Closes key handle outcome w') (place : Key Process) :
    w'.memory? place = w.memory? place := by
  cases closes with
  | unknown => rfl
  | closed _ _ released => rw [memory?_of_release? released, memory?_setTable]

theorem Closes.threads_eq (closes : w.Closes key handle outcome w') : w'.threads = w.threads := by
  cases closes with
  | unknown => rfl
  | closed _ _ released => rw [threads_of_release? released, threads_setTable]

theorem ClosesAll.resolve (closes : ClosesAll key handles w w') (found : w.table? key = some table) :
    ∃ next, w'.table? key = some next ∧
      ∀ handle, next.resolve handle = if handle ∈ handles then none else table.resolve handle := by
  induction closes generalizing table with
  | nil => exact ⟨table, found, by simp⟩
  | @cons first _ _ _ _ _ closed _ ih =>
    obtain ⟨mid, there, resolves⟩ := closed.resolve found
    obtain ⟨next, last, closes⟩ := ih there
    refine ⟨next, last, fun handle => ?_⟩
    rw [closes, resolves]
    by_cases same : handle = first <;> simp [same]

theorem ClosesAll.table?_of_ne (closes : ClosesAll key handles w w') (h : key ≠ other) :
    w'.table? other = w.table? other := by
  induction closes with
  | nil => rfl
  | cons closed _ ih => rw [ih, closed.table?_of_ne h]

theorem ClosesAll.memory?_eq (closes : ClosesAll key handles w w') (place : Key Process) :
    w'.memory? place = w.memory? place := by
  induction closes with
  | nil => rfl
  | cons closed _ ih => rw [ih, closed.memory?_eq]

theorem ClosesAll.threads_eq (closes : ClosesAll key handles w w') : w'.threads = w.threads := by
  induction closes with
  | nil => rfl
  | cons closed _ ih => rw [ih, closed.threads_eq]

end World

namespace AddressSpace

/-- The header of the command at an address. -/
def headerAt (space : AddressSpace) (address : UInt32) : Header :=
  Header.ofWord (space.wordAt address.toNat)

/-- The words of the command at an address. -/
def commandAt (space : AddressSpace) (address : UInt32) : List UInt32 :=
  space.wordsAt address.toNat (space.headerAt address).totalSize

/-- The plain words of the command at an address, its header among them. -/
def plainAt (space : AddressSpace) (address : UInt32) : List UInt32 :=
  (space.commandAt address).take (space.headerAt address).plainSize

/-- The transfer region of the command at an address. -/
def regionAt (space : AddressSpace) (address : UInt32) : List UInt32 :=
  (space.commandAt address).drop (space.headerAt address).plainSize

/-- The command at an address is told by as many words as its header declares. -/
theorem commandAt_eq {space : AddressSpace} {address : UInt32} {header : Header} {word : UInt32}
    {rest : List UInt32} (read : Header.ofWord word = header)
    (words : space.wordsAt address.toNat header.totalSize = word :: rest) :
    space.headerAt address = header ∧ space.commandAt address = word :: rest := by
  have same : space.headerAt address = header := by
    have total : header.totalSize = header.normal + header.transfer + 1 := by
      rw [Header.totalSize, Header.plainSize]
      omega
    rw [total, wordsAt_succ] at words
    rw [headerAt, (List.cons.inj words).1, read]
  exact ⟨same, by rw [commandAt, same, words]⟩

end AddressSpace

/-- A command that was fetched is made of its plain words and its region. -/
theorem Process.ranges_of_fetch? {process : Process} {address : UInt32} {header : Header}
    {command : CommandBuffer} (fetched : process.fetch? address = .ok (header, command)) :
    command.range 0 header.plainSize = process.memory.plainAt address ∧
      command.range header.plainSize header.totalSize = process.memory.regionAt address := by
  obtain ⟨rfl, rfl, bound⟩ := Process.of_fetch? fetched
  have fits : (process.memory.commandAt address).length ≤ 64 :=
    AddressSpace.length_wordsAt.trans_le bound
  have plain := (process.memory.headerAt address).plainSize_le_totalSize
  constructor
  · exact CommandBuffer.range_ofList fits (plain.trans_eq AddressSpace.length_wordsAt.symm)
  · refine (CommandBuffer.range_ofList fits AddressSpace.length_wordsAt.ge).trans ?_
    rw [List.take_of_length_le (by simp [AddressSpace.commandAt])]
    rfl

/-- A command arrived. Its region was walked first, which led to the world `held`, then it was
written, and at last the handles that were moved were closed. -/
structure Arrives (route : Route) (w : World) (sender receiver : AddressSpace)
    (sourceAddress targetAddress : UInt32) (new : List UInt32) (ledger : Ledger) (held w' : World) :
    Prop where
  length : new.length = (sender.headerAt sourceAddress).transfer
  walks : route.Walks .empty (sender.regionAt sourceAddress) w new ledger held
  mapped : receiver.checkMapped targetAddress ((sender.headerAt sourceAddress).totalSize * 4) = .ok ()
  memory : w'.memory? route.receiver.owner
    = some (receiver.setWords targetAddress.toNat (sender.plainAt sourceAddress ++ new))
  closed : ∀ table, held.table? route.senderTable = some table →
    ∃ next, w'.table? route.senderTable = some next ∧
      ∀ handle, next.resolve handle = if handle ∈ ledger.moved then none else table.resolve handle
  others : ∀ key, route.senderTable ≠ key → w'.table? key = held.table? key
  threads : w'.threads = w.threads
  commits : ∃ written, held.Writes route.receiver.owner targetAddress
      (sender.plainAt sourceAddress ++ new) (.ok ()) written ∧
    World.ClosesAll route.senderTable ledger.moved written w'

section

variable {route : Route} {w w' : World} {sender receiver : AddressSpace}
variable {sourceAddress targetAddress : UInt32} {source target : Key Thread}

/-- A command is only delivered between processes that are there. -/
theorem Delivers.parties (sends : w.threads.get? source = some route.sender)
    (receives : w.threads.get? target = some route.receiver)
    (delivers : Delivers source target sourceAddress targetAddress w (.ok ()) w') :
    ∃ process memory, w.processes.get? route.sender.owner = some process ∧
      w.memory? route.receiver.owner = some memory := by
  cases delivers with
  | settled picks settles =>
    cases picks with
    | full =>
      cases settles with
      | delivered finished => cases finished
    | carried sends' receives' owner fetched tiles carries =>
      obtain rfl := Route.eq_of_threads sends receives sends' receives'
      obtain ⟨-, -, bound⟩ := Process.of_fetch? fetched
      obtain ⟨walks, -⟩ := carries.walks bound tiles fun _ _ _ => rfl
      obtain ⟨handings, -, -, each⟩ := walks.handsEach
      cases settles with
      | delivered finished wrote committed =>
        cases wrote with
        | written found checked =>
          have holds := congrArg (Option.map Process.memory) found
          exact ⟨_, _, owner, (each.memory?_eq _).symm.trans holds⟩

theorem Delivers.arrives (sends : w.threads.get? source = some route.sender)
    (receives : w.threads.get? target = some route.receiver)
    (sending : w.memory? route.sender.owner = some sender)
    (receiving : w.memory? route.receiver.owner = some receiver)
    (delivers : Delivers source target sourceAddress targetAddress w (.ok ()) w') :
    ∃ new ledger held,
      Arrives route w sender receiver sourceAddress targetAddress new ledger held w' := by
  cases delivers with
  | @settled _ _ held _ picks settles =>
    cases picks with
    | full =>
      cases settles with
      | delivered finished => cases finished
    | @carried other process header command buffer items ledger _ sends' receives' owner fetched
        tiles carries =>
      obtain rfl := Route.eq_of_threads sends receives sends' receives'
      obtain ⟨plain, region⟩ := Process.ranges_of_fetch? fetched
      obtain ⟨read, -, bound⟩ := Process.of_fetch? fetched
      obtain rfl : header = process.memory.headerAt sourceAddress := read
      obtain rfl : process.memory = sender := by simpa [World.memory?, owner] using sending
      -- the walk leaves the plain words before the region alone
      obtain ⟨walks, before⟩ := carries.walks bound tiles fun _ _ _ => rfl
      obtain ⟨handings, -, -, each⟩ := walks.handsEach
      have memory := (each.memory?_eq other.receiver.owner).trans receiving
      have words := buffer.range_append (Nat.zero_le _) (Header.plainSize_le_totalSize _) bound
      rw [before 0 _ le_rfl, plain] at words
      rw [region] at walks
      cases settles with
      | @delivered _ written _ finished wrote committed =>
        obtain rfl := Option.some.inj finished
        have length : (buffer.range 0 (process.memory.headerAt sourceAddress).totalSize).length = _ :=
          CommandBuffer.length_range bound
        have checked := wrote.checkMapped_eq memory
        rw [length, Nat.sub_zero] at checked
        refine ⟨_, ledger, held,
          ⟨?_, walks, checked, ?_, fun table found => ?_, fun key apart => ?_, ?_,
            written, words ▸ wrote, committed⟩⟩
        · rw [CommandBuffer.length_range bound, Header.totalSize, Nat.add_sub_cancel_left]
        · rw [committed.memory?_eq, wrote.memory?_eq memory, words]
        · exact committed.resolve ((wrote.table?_eq _).trans found)
        · rw [committed.table?_of_ne apart, wrote.table?_eq]
        · rw [committed.threads_eq, wrote.threads_eq, each.threads_eq]

theorem AddressSpace.length_plainAt {space : AddressSpace} {address : UInt32} :
    (space.plainAt address).length = (space.headerAt address).plainSize := by
  rw [plainAt, commandAt, List.length_take, length_wordsAt]
  exact Nat.min_eq_left (Header.plainSize_le_totalSize _)

/-- The plain words begin with the header. -/
theorem AddressSpace.plainAt_eq_cons (space : AddressSpace) (address : UInt32) :
    ∃ rest, space.plainAt address = space.wordAt address.toNat :: rest := by
  have total : (space.headerAt address).totalSize
      = (space.headerAt address).normal + (space.headerAt address).transfer + 1 := by
    rw [Header.totalSize, Header.plainSize]
    omega
  have plain : (space.headerAt address).plainSize = (space.headerAt address).normal + 1 :=
    Nat.add_comm _ _
  rw [plainAt, commandAt, total, plain, wordsAt_succ, List.take_succ_cons]
  exact ⟨_, rfl⟩

variable {new : List UInt32} {ledger : Ledger} {held : World}

/-- The words that were written are read back. -/
theorem Arrives.wordsAt
    (arrives : Arrives route w sender receiver sourceAddress targetAddress new ledger held w') :
    (receiver.setWords targetAddress.toNat (sender.plainAt sourceAddress ++ new)).wordsAt
        targetAddress.toNat (sender.headerAt sourceAddress).totalSize
      = sender.plainAt sourceAddress ++ new := by
  have length : (sender.plainAt sourceAddress ++ new).length
      = (sender.headerAt sourceAddress).totalSize := by
    rw [List.length_append, AddressSpace.length_plainAt, arrives.length, Header.totalSize]
  have mapped := (AddressSpace.checkMapped_eq_ok_iff.1 arrives.mapped).2
  rw [← length] at mapped ⊢
  exact AddressSpace.wordsAt_setWords mapped

/-- The command that stands at the target address in the end. -/
theorem Arrives.readBack
    (arrives : Arrives route w sender receiver sourceAddress targetAddress new ledger held w') :
    ∃ memory, w'.memory? route.receiver.owner = some memory ∧
      memory.headerAt targetAddress = sender.headerAt sourceAddress ∧
      memory.plainAt targetAddress = sender.plainAt sourceAddress ∧
      memory.regionAt targetAddress = new := by
  have words := arrives.wordsAt
  refine ⟨_, arrives.memory, ?_⟩
  generalize receiver.setWords targetAddress.toNat (sender.plainAt sourceAddress ++ new) = memory
    at words
  obtain ⟨rest, first⟩ := sender.plainAt_eq_cons sourceAddress
  rw [first, List.cons_append] at words
  have read : Header.ofWord (sender.wordAt sourceAddress.toNat) = sender.headerAt sourceAddress := rfl
  obtain ⟨header, command⟩ := AddressSpace.commandAt_eq read words
  rw [← List.cons_append, ← first] at command
  refine ⟨header, ?_, ?_⟩
  · rw [AddressSpace.plainAt, header, command, List.take_left' AddressSpace.length_plainAt]
  · rw [AddressSpace.regionAt, header, command, List.drop_left' AddressSpace.length_plainAt]

end

end MicrokernelIpc
