import MicrokernelIpc.Effect
import MicrokernelIpc.Memory.Error
import Std.Data.ExtTreeMap

/-!
# Address spaces

The memory of a process is a sparse set of pages of 4096 bytes, addressed by 32 bits. An
access is checked for its whole range before any byte is touched: it is refused at the end
of the address space if it passes that, and else at the lowest page that is not mapped.
Words are little-endian and need no alignment.
-/

namespace MicrokernelIpc

/-- The bytes of a page. -/
abbrev Page := Vector UInt8 4096

namespace Page

/-- The bytes of a page from an offset on, as many as asked for. -/
def slice (page : Page) (offset count : Nat) : List UInt8 := (page.toList.drop offset).take count

/-- The page with the bytes from an offset on replaced, as far as the page goes. -/
def splice (page : Page) (offset : Nat) : List UInt8 → Page
  | [] => page
  | byte :: rest => splice (page.setIfInBounds offset byte) (offset + 1) rest

end Page

/-- The mapped pages of a process, by number. -/
structure AddressSpace where
  pages : Std.ExtTreeMap Nat Page

/-- An access to the memory of a process. -/
abbrev MemoryAccess := Refusable MemoryError AddressSpace

/-! ## Words and bytes -/

/-- The four bytes of a word, the least significant first. -/
def wordBytes (word : UInt32) : List UInt8 :=
  [UInt8.ofNat (word.toNat % 256), UInt8.ofNat (word.toNat / 0x100 % 256),
   UInt8.ofNat (word.toNat / 0x10000 % 256), UInt8.ofNat (word.toNat / 0x1000000 % 256)]

/-- The word of a row of bytes, the least significant first. -/
def wordOfBytes (bytes : List UInt8) : UInt32 :=
  UInt32.ofNat (bytes.foldr (fun byte rest => byte.toNat + 256 * rest) 0)

theorem wordOfBytes_wordBytes (word : UInt32) : wordOfBytes (wordBytes word) = word := by
  apply UInt32.toNat_inj.1
  have := word.toNat_lt
  simp only [wordOfBytes, wordBytes, List.foldr_cons, List.foldr_nil, UInt8.toNat_ofNat',
    UInt32.toNat_ofNat']
  omega

theorem wordBytes_wordOfBytes (a b c d : UInt8) :
    wordBytes (wordOfBytes [a, b, c, d]) = [a, b, c, d] := by
  have ha := a.toNat_lt
  have hb := b.toNat_lt
  have hc := c.toNat_lt
  have hd := d.toNat_lt
  simp only [wordBytes, wordOfBytes, List.foldr_cons, List.foldr_nil, UInt32.toNat_ofNat',
    List.cons.injEq, and_true]
  refine ⟨?_, ?_, ?_, ?_⟩ <;>
    · apply UInt8.toNat_inj.1
      rw [UInt8.toNat_ofNat']
      omega

/-! ## Pages -/

namespace AddressSpace

/-- The number of bytes of a page. -/
def pageSize : Nat := 4096

/-- The number of addresses. -/
def addressLimit : Nat := 0x100000000

/-- The address space without pages. -/
def empty : AddressSpace := ⟨∅⟩

/-- The pages that a range overlaps, in order, as far as the address space goes. -/
def pageRange (address : UInt32) (size : Nat) : List Nat :=
  let first := address.toNat / pageSize
  let last := min ((address.toNat + size - 1) / pageSize) (addressLimit / pageSize - 1)
  if size = 0 then [] else List.range' first (last + 1 - first)

/-- Map every page that the range overlaps. A new page is zero, a mapped one is kept. -/
def map (space : AddressSpace) (address : UInt32) (size : Nat) : AddressSpace :=
  ⟨(pageRange address size).foldl
    (fun pages page => pages.insertIfNew page (Vector.replicate 4096 0)) space.pages⟩

/-- Unmap every page that the range overlaps. -/
def unmap (space : AddressSpace) (address : UInt32) (size : Nat) : AddressSpace :=
  ⟨(pageRange address size).foldl (fun pages page => pages.erase page) space.pages⟩

/-- The byte at an address, if its page is mapped. -/
def byte? (space : AddressSpace) (address : Nat) : Option UInt8 :=
  space.pages[address / pageSize]?.map fun page =>
    page.get ⟨address % pageSize, Nat.mod_lt _ (by decide)⟩

/-- A range can be accessed if it lies in the address space and all its pages are mapped. -/
def checkMapped (space : AddressSpace) (address : UInt32) (size : Nat) :
    Except MemoryError Unit :=
  if addressLimit < address.toNat + size then .error (.unmapped addressLimit)
  else
    match (pageRange address size).find? fun page => !space.pages.contains page with
    | some page => .error (.unmapped (page * pageSize))
    | none => .ok ()

/-- Whether a range can be accessed. -/
def isMapped (space : AddressSpace) (address : UInt32) (size : Nat) : Bool :=
  (space.checkMapped address size).isOk

/-- The address space as a record. -/
def text (space : AddressSpace) : String :=
  Text.record "AddressSpace" [("mapped_pages", toString space.pages.size)]

/-! ## What each operation does to the pages and bytes -/

theorem mem_pageRange {address : UInt32} {size page : Nat} :
    page ∈ pageRange address size ↔
      size ≠ 0 ∧ address.toNat / pageSize ≤ page ∧ page * pageSize < address.toNat + size
        ∧ page < addressLimit / pageSize := by
  have := address.toNat_lt
  unfold pageRange
  split
  · simp_all
  · simp only [List.mem_range'_1, pageSize, addressLimit]
    omega

theorem getElem?_map (space : AddressSpace) (address : UInt32) (size page : Nat) :
    (space.map address size).pages[page]?
      = if page ∈ pageRange address size then
          some (space.pages[page]?.getD (Vector.replicate 4096 0))
        else space.pages[page]? := by
  unfold map
  generalize space.pages = pages
  induction pageRange address size generalizing pages with
  | nil => simp
  | cons first rest ih =>
    rw [List.foldl_cons, ih]
    simp only [Std.ExtTreeMap.getElem?_insertIfNew, List.mem_cons]
    by_cases hf : first = page
    · subst hf
      by_cases h : first ∈ pages <;> simp [h]
    · have : ¬ page = first := fun e => hf e.symm
      simp [hf, this]

theorem getElem?_unmap (space : AddressSpace) (address : UInt32) (size page : Nat) :
    (space.unmap address size).pages[page]?
      = if page ∈ pageRange address size then none else space.pages[page]? := by
  unfold unmap
  generalize space.pages = pages
  induction pageRange address size generalizing pages with
  | nil => simp
  | cons first rest ih =>
    rw [List.foldl_cons, ih]
    simp only [Std.ExtTreeMap.getElem?_erase, List.mem_cons]
    by_cases hf : first = page
    · subst hf
      simp
    · have : ¬ page = first := fun e => hf e.symm
      simp [hf, this]

theorem byte?_map (space : AddressSpace) (address : UInt32) (size other : Nat) :
    (space.map address size).byte? other
      = if other / pageSize ∈ pageRange address size then some ((space.byte? other).getD 0)
        else space.byte? other := by
  simp only [byte?, getElem?_map]
  split
  · cases space.pages[other / pageSize]? <;> simp [Vector.get]
  · rfl

theorem byte?_unmap (space : AddressSpace) (address : UInt32) (size other : Nat) :
    (space.unmap address size).byte? other
      = if other / pageSize ∈ pageRange address size then none else space.byte? other := by
  simp only [byte?, getElem?_unmap]
  split <;> rfl

end AddressSpace

/-! ## Accesses -/

namespace MemoryAccess

/-- Refuse the access unless its whole range can be accessed. -/
def requireMapped (address : UInt32) (size : Nat) : MemoryAccess Unit := do
  match (← get).checkMapped address size with
  | .ok () => return ()
  | .error error => throw error

/-- How many of a number of bytes lie in the page of their address. -/
def chunkSize (address count : Nat) : Nat :=
  min (AddressSpace.pageSize - address % AddressSpace.pageSize) count

theorem chunkSize_pos (address : Nat) {count : Nat} (h : count ≠ 0) :
    0 < chunkSize address count := by
  simp only [chunkSize, AddressSpace.pageSize]
  omega

/-- The bytes from an address on, their range checked, page by page. -/
def readBytes (address count : Nat) : MemoryAccess (List UInt8) := do
  if count = 0 then return []
  else
    match (← get).pages[address / AddressSpace.pageSize]? with
    | none => halt (.missingPage (address / AddressSpace.pageSize))
    | some page =>
      let size := chunkSize address count
      let rest ← readBytes (address + size) (count - size)
      return page.slice (address % AddressSpace.pageSize) size ++ rest
termination_by count
decreasing_by
  have := chunkSize_pos address ‹¬count = 0›
  omega

/-- Replace the bytes from an address on, their range checked, page by page. -/
def writeBytes (address : Nat) (data : List UInt8) : MemoryAccess Unit := do
  if data.length = 0 then return ()
  else
    let space ← get
    match space.pages[address / AddressSpace.pageSize]? with
    | none => throw (.unmapped address)
    | some page =>
      let size := chunkSize address data.length
      set { space with
        pages := space.pages.insert (address / AddressSpace.pageSize)
          (page.splice (address % AddressSpace.pageSize) (data.take size)) }
      writeBytes (address + size) (data.drop size)
termination_by data.length
decreasing_by
  have := chunkSize_pos address ‹¬data.length = 0›
  rw [List.length_drop]
  omega

/-- The bytes of a range. -/
def readBlock (address : UInt32) (size : Nat) : MemoryAccess (List UInt8) := do
  requireMapped address size
  readBytes address.toNat size

/-- Replace the bytes of a range. -/
def writeBlock (address : UInt32) (data : List UInt8) : MemoryAccess Unit := do
  requireMapped address data.length
  writeBytes address.toNat data

/-- The word at an address. -/
def readWord (address : UInt32) : MemoryAccess UInt32 := do
  return wordOfBytes (← readBlock address 4)

/-- Replace the word at an address. -/
def writeWord (address : UInt32) (word : UInt32) : MemoryAccess Unit :=
  writeBlock address (wordBytes word)

/-- The address of the word at an index of a row of words. -/
def wordAddress (address : UInt32) (index : Nat) : MemoryAccess UInt32 :=
  if address.toNat + 4 * index < AddressSpace.addressLimit then
    return UInt32.ofNat (address.toNat + 4 * index)
  else halt .addressOverflow

/-- The words at the given indices of a row of words, the range of the row checked. -/
def readWordsAt (address : UInt32) : List Nat → MemoryAccess (List UInt32)
  | [] => return []
  | index :: rest => do
    let word ← readWord (← wordAddress address index)
    return word :: (← readWordsAt address rest)

/-- Replace the words of a row from an index on, the range of the row checked. -/
def writeWordsFrom (address : UInt32) (index : Nat) : List UInt32 → MemoryAccess Unit
  | [] => return ()
  | word :: rest => do
    writeWord (← wordAddress address index) word
    writeWordsFrom address (index + 1) rest

/-- The words of a row. -/
def readWords (address : UInt32) (count : Nat) : MemoryAccess (List UInt32) := do
  requireMapped address (count * 4)
  readWordsAt address (List.range count)

/-- Replace the words of a row. -/
def writeWords (address : UInt32) (words : List UInt32) : MemoryAccess Unit := do
  requireMapped address (words.length * 4)
  writeWordsFrom address 0 words

end MemoryAccess

end MicrokernelIpc
