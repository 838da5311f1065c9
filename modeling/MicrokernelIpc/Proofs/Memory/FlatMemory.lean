import MicrokernelIpc.Proofs.Memory.ReadBack

/-!
# Address spaces as flat memories

A flat memory has a byte at some addresses and none at the others; of pages it only knows that
they come and go as a whole. Every run of calls on an address space has the outcomes that it has on
a flat memory, and what is read afterwards is what the flat memory holds. So the pages that a range
is cut at are not seen, and no access is refused or stopped on the way.
-/

namespace MicrokernelIpc

open AddressSpace

/-- A memory without pages: the byte at each address that has one. -/
abbrev FlatMemory := Nat → Option UInt8

/-- The words of a row of bytes, four bytes a word. -/
def wordsOfBytes : List UInt8 → List UInt32
  | a :: b :: c :: d :: rest => wordOfBytes [a, b, c, d] :: wordsOfBytes rest
  | _ => []

/-- A call that changes a memory. -/
inductive MemoryCall
  | map (address : UInt32) (size : Nat)
  | unmap (address : UInt32) (size : Nat)
  | writeBlock (address : UInt32) (bytes : List UInt8)
  | writeWord (address word : UInt32)
  | writeWords (address : UInt32) (words : List UInt32)

namespace FlatMemory

/-- The memory without bytes. -/
def empty : FlatMemory := fun _ => none

/-- The page and the range have an address in common. -/
def Overlaps (page address size : Nat) : Prop :=
  size ≠ 0 ∧ page * pageSize < address + size ∧ address < (page + 1) * pageSize

instance (page address size : Nat) : Decidable (Overlaps page address size) :=
  inferInstanceAs (Decidable (_ ∧ _ ∧ _))

/-- Every byte of the page is there. -/
def HasPage (flat : FlatMemory) (page : Nat) : Prop :=
  ∀ offset < pageSize, (flat (page * pageSize + offset)).isSome

instance (flat : FlatMemory) (page : Nat) : Decidable (flat.HasPage page) :=
  inferInstanceAs (Decidable (∀ offset < _, _))

/-- The pages that a range overlaps come to be there. A new byte is zero, the others are kept. -/
def map (flat : FlatMemory) (address size : Nat) : FlatMemory := fun place =>
  if place < addressLimit ∧ Overlaps (place / pageSize) address size then
    some ((flat place).getD 0)
  else flat place

/-- The pages that a range overlaps go. -/
def unmap (flat : FlatMemory) (address size : Nat) : FlatMemory := fun place =>
  if place < addressLimit ∧ Overlaps (place / pageSize) address size then none else flat place

/-- The bytes from an address on are replaced. -/
def overwrite (flat : FlatMemory) (address : Nat) (bytes : List UInt8) : FlatMemory := fun place =>
  if address ≤ place ∧ place < address + bytes.length then bytes[place - address]? else flat place

/-- A range can be accessed if it lies in the 32-bit space and every page that it overlaps is there.
Else the access is refused at the end of the space, or at the lowest page that is not there. -/
def judge (flat : FlatMemory) (address size : Nat) : Except MemoryError Unit :=
  if addressLimit < address + size then .error (.unmapped addressLimit)
  else
    match (List.range (addressLimit / pageSize)).find? fun page =>
        decide (Overlaps page address size ∧ ¬ flat.HasPage page) with
    | some page => .error (.unmapped (page * pageSize))
    | none => .ok ()

/-- The bytes of a range. -/
def read (flat : FlatMemory) (address size : Nat) : Except MemoryError (List UInt8) :=
  (flat.judge address size).map fun _ =>
    (List.range size).map fun index => (flat (address + index)).getD 0

/-- The bytes from an address on are replaced, or none is. -/
def write (flat : FlatMemory) (address : Nat) (bytes : List UInt8) :
    Except MemoryError Unit × FlatMemory :=
  match flat.judge address bytes.length with
  | .ok () => (.ok (), flat.overwrite address bytes)
  | .error error => (.error error, flat)

/-- What a call comes to. Words are written as their bytes, the least significant first. -/
def call (flat : FlatMemory) : MemoryCall → Except MemoryError Unit × FlatMemory
  | .map address size => (.ok (), flat.map address.toNat size)
  | .unmap address size => (.ok (), flat.unmap address.toNat size)
  | .writeBlock address bytes => flat.write address.toNat bytes
  | .writeWord address word => flat.write address.toNat (wordBytes word)
  | .writeWords address words => flat.write address.toNat (words.flatMap wordBytes)

/-- What several calls come to, one after the other. -/
def callAll (flat : FlatMemory) : List MemoryCall → List (Except MemoryError Unit) × FlatMemory
  | [] => ([], flat)
  | first :: rest =>
    let (outcome, next) := flat.call first
    let (outcomes, last) := callAll next rest
    (outcome :: outcomes, last)

end FlatMemory

namespace MemoryCall

/-- The call on an address space. -/
def run : MemoryCall → MemoryAccess Unit
  | map address size => modify fun space => space.map address size
  | unmap address size => modify fun space => space.unmap address size
  | writeBlock address bytes => MemoryAccess.writeBlock address bytes
  | writeWord address word => MemoryAccess.writeWord address word
  | writeWords address words => MemoryAccess.writeWords address words

/-- Several calls on an address space, one after the other, whatever each of them comes to. -/
def runAll : List MemoryCall → Effect AddressSpace (List (Except MemoryError Unit))
  | [] => return []
  | first :: rest => do
    let outcome ← first.run.run
    return outcome :: (← runAll rest)

end MemoryCall

/-- Whatever is asked of the address space, the flat memory has the answer. -/
structure AddressSpace.AnswersAs (space : AddressSpace) (flat : FlatMemory) : Prop where
  isMapped : ∀ address size, space.isMapped address size = (flat.judge address.toNat size).isOk
  isMapped_zero : ∀ address, space.isMapped address 0 = true
  readBlock : ∀ address size, (MemoryAccess.readBlock address size).run space
    = .ok (flat.read address.toNat size) space
  readWord : ∀ address, (MemoryAccess.readWord address).run space
    = .ok ((flat.read address.toNat 4).map wordOfBytes) space
  readWords : ∀ address count, (MemoryAccess.readWords address count).run space
    = .ok ((flat.read address.toNat (count * 4)).map wordsOfBytes) space

namespace AddressSpace

variable {space : AddressSpace} {address : UInt32} {a size count : Nat} {bytes : List UInt8}
variable {words : List UInt32}

/-! ## Pages -/

theorem hasPage_byte?_iff {page : Nat} :
    FlatMemory.HasPage space.byte? page ↔ space.pages.contains page := by
  have number {offset : Nat} (h : offset < pageSize) : (page * pageSize + offset) / pageSize = page := by
    simp only [pageSize] at *
    omega
  constructor
  · intro has
    have first := has 0 (by decide)
    rwa [isSome_byte?, number (by decide)] at first
  · intro mapped offset h
    rwa [isSome_byte?, number h]

theorem mem_pageRange_iff_overlaps {page : Nat} : page ∈ pageRange address size
    ↔ page < addressLimit / pageSize ∧ FlatMemory.Overlaps page address.toNat size := by
  rw [mem_pageRange]
  simp only [FlatMemory.Overlaps, pageSize]
  omega

/-- The pages of a range stand in their order, so the one found first is the lowest. -/
theorem find?_pageRange_eq_some {absent : Nat → Bool} {page : Nat}
    (found : (pageRange address size).find? absent = some page) :
    ∀ other < page, other ∈ pageRange address size → absent other = false := by
  unfold pageRange at *
  intro other before mem
  split at found
  · cases found
  · next some =>
    rw [if_neg some] at mem
    obtain ⟨-, -, lowest⟩ := List.find?_range'_eq_some.1 found
    simpa using lowest other (List.mem_range'_1.1 mem).1 before

theorem checkMapped_eq_judge (space : AddressSpace) (address : UInt32) (size : Nat) :
    space.checkMapped address size = FlatMemory.judge space.byte? address.toNat size := by
  unfold checkMapped FlatMemory.judge
  split
  · rfl
  · cases found : (pageRange address size).find? fun page => !space.pages.contains page with
    | none =>
      rw [List.find?_eq_none] at found
      rw [List.find?_eq_none.2 fun page mem => ?_]
      rw [List.mem_range] at mem
      simp only [hasPage_byte?_iff, decide_eq_true_eq, not_and, not_not]
      intro overlaps
      simpa using found page (mem_pageRange_iff_overlaps.2 ⟨mem, overlaps⟩)
    | some page =>
      have absent := List.find?_some found
      rw [Bool.not_eq_true', ← Bool.not_eq_true] at absent
      obtain ⟨low, overlaps⟩ := mem_pageRange_iff_overlaps.1 (List.mem_of_find?_eq_some found)
      have same : (List.range (addressLimit / pageSize)).find? (fun page =>
          decide (FlatMemory.Overlaps page address.toNat size ∧
            ¬ FlatMemory.HasPage space.byte? page)) = some page := by
        rw [List.find?_range_eq_some]
        simp only [hasPage_byte?_iff, decide_eq_true_eq, List.mem_range]
        refine ⟨⟨overlaps, absent⟩, low, fun other before => ?_⟩
        simp only [Bool.not_eq_true', decide_eq_false_iff_not, not_and, not_not]
        intro meets
        have mem := mem_pageRange_iff_overlaps.2 ⟨Nat.lt_trans before low, meets⟩
        simpa using find?_pageRange_eq_some found other before mem
      rw [same]

theorem div_mem_pageRange_iff {place : Nat} : place / pageSize ∈ pageRange address size
    ↔ place < addressLimit ∧ FlatMemory.Overlaps (place / pageSize) address.toNat size := by
  rw [mem_pageRange_iff_overlaps]
  refine and_congr_left fun _ => ?_
  simp only [pageSize, addressLimit]
  omega

theorem byte?_map_eq (space : AddressSpace) (address : UInt32) (size : Nat) :
    (space.map address size).byte? = FlatMemory.map space.byte? address.toNat size := by
  funext place
  rw [byte?_map, FlatMemory.map]
  simp only [div_mem_pageRange_iff]

theorem byte?_unmap_eq (space : AddressSpace) (address : UInt32) (size : Nat) :
    (space.unmap address size).byte? = FlatMemory.unmap space.byte? address.toNat size := by
  funext place
  rw [byte?_unmap, FlatMemory.unmap]
  simp only [div_mem_pageRange_iff]

/-! ## Bytes and words -/

theorem byte?_setBytes (mapped : ∀ i < bytes.length, (space.byte? (a + i)).isSome) :
    (space.setBytes a bytes).byte? = FlatMemory.overwrite space.byte? a bytes := by
  induction bytes generalizing space a with
  | nil =>
    funext place
    rw [setBytes, FlatMemory.overwrite, List.length_nil, if_neg (by omega)]
  | cons byte rest ih =>
    obtain ⟨old, found⟩ := Option.isSome_iff_exists.1 (mapped 0 (by simp))
    rw [Nat.add_zero] at found
    rw [setBytes, ih fun i h => ?_]
    · funext place
      simp only [FlatMemory.overwrite, List.length_cons]
      by_cases first : a = place
      · subst first
        rw [if_neg (by omega), if_pos (by omega), byte?_setByte, if_pos rfl, found, Nat.sub_self]
        rfl
      · rw [byte?_setByte, if_neg first]
        by_cases later : a + 1 ≤ place ∧ place < a + 1 + rest.length
        · have shift : place - a = place - (a + 1) + 1 := by omega
          rw [if_pos later, if_pos (by omega), shift, List.getElem?_cons_succ]
        · rw [if_neg later, if_neg (by omega)]
    · rw [isSome_byte?_setByte, Nat.add_right_comm, Nat.add_assoc]
      exact mapped (i + 1) (by simpa using h)

/-- A row of words is written as the block of its bytes. -/
theorem setWords_eq_setBytes (space : AddressSpace) (a : Nat) (words : List UInt32) :
    space.setWords a words = space.setBytes a (words.flatMap wordBytes) := by
  induction words generalizing space a with
  | nil => rfl
  | cons word rest ih => rw [setWords, ih, List.flatMap_cons, setBytes_append]; rfl

theorem length_flatMap_wordBytes (words : List UInt32) :
    (words.flatMap wordBytes).length = words.length * 4 := by
  induction words with
  | nil => rfl
  | cons word rest ih =>
    rw [List.flatMap_cons, List.length_append, ih, List.length_cons, Nat.succ_mul, Nat.add_comm]
    rfl

theorem bytesAt_eq_map (space : AddressSpace) (a count : Nat) :
    space.bytesAt a count = (List.range count).map fun index => (space.byte? (a + index)).getD 0 := by
  apply List.ext_getElem (by simp)
  intro i inside _
  rw [length_bytesAt] at inside
  have read := space.getElem?_bytesAt a inside
  rw [List.getElem?_eq_getElem] at read
  simpa using Option.some.inj read

/-- A row of words is read as the block of its bytes. -/
theorem wordsAt_eq_wordsOfBytes (space : AddressSpace) (a count : Nat) :
    space.wordsAt a count = wordsOfBytes (space.bytesAt a (count * 4)) := by
  induction count generalizing a with
  | zero => rfl
  | succ count ih =>
    rw [wordsAt_succ, ih, Nat.succ_mul]
    rfl

/-! ## Calls -/

theorem map_checkMapped_bytesAt (space : AddressSpace) (address : UInt32) (size : Nat) :
    ((space.checkMapped address size).map fun _ => space.bytesAt address.toNat size)
      = FlatMemory.read space.byte? address.toNat size := by
  rw [FlatMemory.read, checkMapped_eq_judge, bytesAt_eq_map]

/-- Whatever an address space is asked, the flat memory of its bytes has the answer. -/
theorem answersAs_byte? (space : AddressSpace) : space.AnswersAs space.byte? where
  isMapped address size := by rw [isMapped, checkMapped_eq_judge]
  isMapped_zero address := by
    have granted : space.checkMapped address 0 = .ok () :=
      checkMapped_of_isSome (Nat.le_of_lt address.toNat_lt) fun i h => absurd h (Nat.not_lt_zero i)
    rw [isMapped, granted]
    rfl
  readBlock address size := by
    rw [MemoryAccess.readBlock_run, map_checkMapped_bytesAt]
  readWord address := by
    rw [MemoryAccess.readWord_run, ← map_checkMapped_bytesAt]
    cases space.checkMapped address 4 <;> rfl
  readWords address count := by
    have words := MemoryAccess.readWords_run space address count
    rw [words, ← map_checkMapped_bytesAt]
    cases space.checkMapped address (count * 4) with
    | error => rfl
    | ok => exact congrArg (EStateM.Result.ok · space) (congrArg Except.ok
        (space.wordsAt_eq_wordsOfBytes address.toNat count))

/-- A block is written as to the flat memory, or left alone. -/
theorem run_writeBlock (space : AddressSpace) (address : UInt32) (bytes : List UInt8) :
    ∃ outcome next, (MemoryAccess.writeBlock address bytes).run space = .ok outcome next ∧
      FlatMemory.write space.byte? address.toNat bytes = (outcome, next.byte?) := by
  rw [MemoryAccess.writeBlock_run, FlatMemory.write, ← checkMapped_eq_judge]
  cases checked : space.checkMapped address bytes.length with
  | error error => exact ⟨_, _, rfl, rfl⟩
  | ok =>
    refine ⟨_, _, rfl, ?_⟩
    rw [byte?_setBytes (checkMapped_eq_ok_iff.1 checked).2]

/-- Writing words comes to the same as writing their bytes. -/
theorem writeWords_run_eq_writeBlock (space : AddressSpace) (address : UInt32)
    (words : List UInt32) : (MemoryAccess.writeWords address words).run space
      = (MemoryAccess.writeBlock address (words.flatMap wordBytes)).run space := by
  rw [MemoryAccess.writeWords_run, MemoryAccess.writeBlock_run, length_flatMap_wordBytes,
    setWords_eq_setBytes]

/-- A call does to an address space what it does to the flat memory of its bytes. -/
theorem run_call (space : AddressSpace) (call : MemoryCall) :
    ∃ outcome next, call.run.run space = .ok outcome next ∧
      FlatMemory.call space.byte? call = (outcome, next.byte?) := by
  cases call with
  | map address size => exact ⟨_, _, rfl, by rw [byte?_map_eq]; rfl⟩
  | unmap address size => exact ⟨_, _, rfl, by rw [byte?_unmap_eq]; rfl⟩
  | writeBlock address bytes => exact space.run_writeBlock address bytes
  | writeWord address word => exact space.run_writeBlock address (wordBytes word)
  | writeWords address words =>
    obtain ⟨outcome, next, run, flat⟩ := space.run_writeBlock address (words.flatMap wordBytes)
    exact ⟨outcome, next, (space.writeWords_run_eq_writeBlock address words).trans run, flat⟩

theorem runAll_calls (space : AddressSpace) (calls : List MemoryCall) :
    ∃ outcomes last, MemoryCall.runAll calls space = .ok outcomes last ∧
      FlatMemory.callAll space.byte? calls = (outcomes, last.byte?) := by
  induction calls generalizing space with
  | nil => exact ⟨_, _, rfl, rfl⟩
  | cons first rest ih =>
    obtain ⟨outcome, next, run, flat⟩ := space.run_call first
    obtain ⟨outcomes, last, runs, flats⟩ := ih next
    refine ⟨outcome :: outcomes, last, ?_, ?_⟩
    · show EStateM.bind first.run.run _ space = _
      simp only [EStateM.bind, run]
      show EStateM.bind (MemoryCall.runAll rest) _ next = _
      simp only [EStateM.bind, runs]
      rfl
    · rw [FlatMemory.callAll, flat]
      simp only [flats]

end AddressSpace

/-- **An address space is a flat memory.** Every run of calls on a new address space returns, with
the outcomes that it has on the memory without bytes, and every access that follows has the answer
of the flat memory that the run leaves. -/
theorem runAll_refines_flat (calls : List MemoryCall) :
    ∃ outcomes space, MemoryCall.runAll calls AddressSpace.empty = .ok outcomes space ∧
      FlatMemory.empty.callAll calls = (outcomes, space.byte?) ∧ space.AnswersAs space.byte? := by
  obtain ⟨outcomes, space, run, flat⟩ := AddressSpace.empty.runAll_calls calls
  have none : AddressSpace.empty.byte? = FlatMemory.empty := by
    funext place
    simp [byte?, AddressSpace.empty, FlatMemory.empty]
  rw [none] at flat
  exact ⟨outcomes, space, run, flat, space.answersAs_byte?⟩

end MicrokernelIpc
