import Mathlib.Order.Basic
import MicrokernelIpc.Memory.AddressSpace

/-!
# Accesses to memory

An access whose range passes the check comes to its end: the pages that it touches are those
that were checked. What it reads and writes is said of the bytes alone, whatever the pages
they lie in.
-/

namespace MicrokernelIpc

/-! ## Computations run -/

section

variable {ε σ α β : Type} {computation : Refusable ε σ α} {rest : α → Refusable ε σ β} {s t : σ}

theorem run_bind_of_ok {value : α} (h : computation.run s = .ok (.ok value) t) :
    (computation >>= rest).run s = (rest value).run t := by
  rw [ExceptT.run_bind]
  show EStateM.bind computation.run _ s = _
  simp only [EStateM.bind, h]

theorem run_bind_of_error {error : ε} (h : computation.run s = .ok (.error error) t) :
    (computation >>= rest).run s = .ok (.error error) t := by
  rw [ExceptT.run_bind]
  show EStateM.bind computation.run _ s = _
  simp only [EStateM.bind, h]
  rfl

theorem run_get_bind {rest : σ → Refusable ε σ β} (s : σ) :
    ((get : Refusable ε σ σ) >>= rest).run s = (rest s).run s :=
  rfl

theorem run_set_bind {rest : PUnit → Refusable ε σ β} (s next : σ) :
    ((set next : Refusable ε σ PUnit) >>= rest).run s = (rest ⟨⟩).run next :=
  rfl

end

namespace AddressSpace

variable {space : AddressSpace} {address : UInt32} {size : Nat}

theorem pageSize_pos : 0 < pageSize := Nat.zero_lt_succ _

/-- Replace the byte at an address, if its page is mapped. -/
def setByte (space : AddressSpace) (address : Nat) (byte : UInt8) : AddressSpace :=
  ⟨space.pages.modify (address / pageSize) fun page =>
    page.set (address % pageSize) byte (Nat.mod_lt address pageSize_pos)⟩

theorem byte?_setByte (space : AddressSpace) (address other : Nat) (byte : UInt8) :
    (space.setByte address byte).byte? other
      = if address = other then (space.byte? address).map fun _ => byte else space.byte? other := by
  unfold setByte byte?
  simp only [Std.ExtTreeMap.getElem?_modify, Std.LawfulEqCmp.compare_eq_iff_eq, pageSize]
  by_cases hp : address / 4096 = other / 4096
  · rw [if_pos hp]
    by_cases ha : address = other
    · subst ha
      simp only [if_true, Option.map_map]
      congr 1
      funext page
      simp [Vector.get]
    · have : address % 4096 ≠ other % 4096 := by omega
      simp only [ha, if_false, hp, Option.map_map]
      congr 1
      funext page
      simp [Vector.get, this]
  · have : address ≠ other := by rintro rfl; exact hp rfl
    simp [hp, this]

/-- The bytes from an address on, zero where no page is mapped. -/
def bytesAt (space : AddressSpace) (address : Nat) : Nat → List UInt8
  | 0 => []
  | count + 1 => (space.byte? address).getD 0 :: bytesAt space (address + 1) count

/-- The space with the bytes from an address on replaced, where pages are mapped. -/
def setBytes (space : AddressSpace) (address : Nat) : List UInt8 → AddressSpace
  | [] => space
  | byte :: rest => setBytes (space.setByte address byte) (address + 1) rest

/-- The word at an address. -/
def wordAt (space : AddressSpace) (address : Nat) : UInt32 := wordOfBytes (space.bytesAt address 4)

/-- The space with the words from an address on replaced, where pages are mapped. -/
def setWords (space : AddressSpace) (address : Nat) : List UInt32 → AddressSpace
  | [] => space
  | word :: rest => setWords (space.setBytes address (wordBytes word)) (address + 4) rest

theorem isSome_byte? {address : Nat} :
    (space.byte? address).isSome ↔ space.pages.contains (address / pageSize) := by
  simp [byte?]

/-- A range can be accessed if it lies in the address space and every byte of it is mapped. -/
theorem checkMapped_eq_ok_iff : space.checkMapped address size = .ok () ↔
    address.toNat + size ≤ addressLimit ∧ ∀ i < size, (space.byte? (address.toNat + i)).isSome := by
  have low := address.toNat_lt
  unfold checkMapped
  split
  · next h =>
    simp only [reduceCtorEq, false_iff, not_and]
    intro fits
    omega
  · next h =>
    split
    · next page found =>
      have absent := List.find?_some found
      have mem := mem_pageRange.1 (List.mem_of_find?_eq_some found)
      simp only [reduceCtorEq, false_iff, not_and]
      intro _ mapped
      -- the page is met by the range at its own first byte, or where the range begins
      have touched := mapped (max (page * pageSize) address.toNat - address.toNat)
        (by simp only [pageSize] at *; omega)
      have same : (address.toNat + (max (page * pageSize) address.toNat - address.toNat)) / pageSize
          = page := by
        simp only [pageSize] at *
        omega
      rw [isSome_byte?, same] at touched
      simp [touched] at absent
    · next found =>
      rw [List.find?_eq_none] at found
      simp only [true_iff]
      refine ⟨by omega, fun i hi => ?_⟩
      have := found ((address.toNat + i) / pageSize) (mem_pageRange.2 ⟨by omega, ?_⟩)
      · simpa [isSome_byte?] using this
      · simp only [pageSize, addressLimit] at *
        omega

theorem bytesAt_add {a m n : Nat} :
    space.bytesAt a (m + n) = space.bytesAt a m ++ space.bytesAt (a + m) n := by
  induction m generalizing a with
  | zero => simp [bytesAt]
  | succ m ih =>
    rw [Nat.succ_add, bytesAt, bytesAt, ih, List.cons_append, Nat.add_assoc, Nat.add_comm 1]

theorem getElem?_bytesAt (space : AddressSpace) (a : Nat) {n i : Nat} (h : i < n) :
    (space.bytesAt a n)[i]? = some ((space.byte? (a + i)).getD 0) := by
  induction n generalizing a i with
  | zero => omega
  | succ n ih =>
    cases i with
    | zero => rfl
    | succ i =>
      rw [bytesAt, List.getElem?_cons_succ, ih _ (by omega), Nat.add_assoc, Nat.add_comm 1]

@[simp] theorem length_bytesAt {a n : Nat} : (space.bytesAt a n).length = n := by
  induction n generalizing a with
  | zero => rfl
  | succ n ih => rw [bytesAt, List.length_cons, ih]

theorem exists_page {a : Nat} (mapped : (space.byte? a).isSome) :
    ∃ page, space.pages[a / pageSize]? = some page := by
  obtain ⟨byte, found⟩ := Option.isSome_iff_exists.1 mapped
  obtain ⟨page, there, -⟩ := Option.map_eq_some_iff.1 found
  exact ⟨page, there⟩

/-- A range inside of one page is a slice of it. -/
theorem slice_eq_bytesAt {a n : Nat} {page : Page} (found : space.pages[a / pageSize]? = some page)
    (fits : a % pageSize + n ≤ pageSize) : page.slice (a % pageSize) n = space.bytesAt a n := by
  have length : (page.slice (a % pageSize) n).length = n := by
    simp only [Page.slice, pageSize, List.length_take, List.length_drop, Vector.length_toList] at *
    omega
  apply List.ext_getElem (length.trans length_bytesAt.symm)
  intro i inside _
  rw [length] at inside
  have same : (a + i) / pageSize = a / pageSize := by
    simp only [pageSize] at *
    omega
  have place : (a + i) % pageSize = a % pageSize + i := by
    simp only [pageSize] at *
    omega
  have byte : space.byte? (a + i) = some (page.slice (a % pageSize) n)[i] := by
    simp [byte?, same, found, place, Page.slice, Vector.get]
  have read := space.getElem?_bytesAt a inside
  rw [byte, Option.getD_some, List.getElem?_eq_getElem] at read
  exact (Option.some.inj read).symm

theorem setBytes_append (space : AddressSpace) (a : Nat) (first second : List UInt8) :
    space.setBytes a (first ++ second)
      = (space.setBytes a first).setBytes (a + first.length) second := by
  induction first generalizing space a with
  | nil => rfl
  | cons byte rest ih =>
    rw [List.cons_append, setBytes, setBytes, ih, List.length_cons, Nat.add_assoc, Nat.add_comm 1]

theorem setByte_of_page {index offset : Nat} {byte : UInt8} (inside : offset < pageSize) :
    space.setByte (index * pageSize + offset) byte
      = ⟨space.pages.modify index fun page => page.setIfInBounds offset byte⟩ := by
  have number : (index * pageSize + offset) / pageSize = index := by
    simp only [pageSize] at *
    omega
  have place : (index * pageSize + offset) % pageSize = offset := by
    simp only [pageSize] at *
    omega
  unfold setByte
  rw [number]
  congr 2
  funext page
  apply Vector.ext
  intro i _
  simp only [place, Vector.getElem_set, Vector.getElem_setIfInBounds]

/-- Bytes that lie in one page are written by a splice of it. -/
theorem setBytes_of_page {index offset : Nat} {page : Page} {bytes : List UInt8}
    (found : space.pages[index]? = some page) (fits : offset + bytes.length ≤ pageSize) :
    space.setBytes (index * pageSize + offset) bytes
      = ⟨space.pages.insert index (page.splice offset bytes)⟩ := by
  induction bytes generalizing space page offset with
  | nil =>
    have same : space.pages.insert index page = space.pages := by
      ext1 other
      rw [Std.ExtTreeMap.getElem?_insert]
      split
      · next e => rw [← Std.LawfulEqCmp.eq_of_compare e, found]
      · rfl
    rw [setBytes, Page.splice, same]
  | cons byte rest ih =>
    rw [List.length_cons] at fits
    have first : space.setByte (index * pageSize + offset) byte
        = ⟨space.pages.modify index fun page => page.setIfInBounds offset byte⟩ :=
      setByte_of_page (by omega)
    have next : (space.setByte (index * pageSize + offset) byte).pages[index]?
        = some (page.setIfInBounds offset byte) := by
      rw [first, Std.ExtTreeMap.getElem?_modify_self, found, Option.map_some]
    rw [setBytes, Nat.add_assoc, ih next (by omega), Page.splice, first]
    congr 1
    ext1 other
    simp only [Std.ExtTreeMap.getElem?_insert, Std.ExtTreeMap.getElem?_modify]
    split <;> rfl

theorem checkMapped_of_isSome {word : UInt32} {count : Nat} (h : word.toNat + count ≤ addressLimit)
    (mapped : ∀ i < count, (space.byte? (word.toNat + i)).isSome) :
    space.checkMapped word count = .ok () :=
  checkMapped_eq_ok_iff.2 ⟨h, mapped⟩

@[simp] theorem isSome_byte?_setByte {a b : Nat} {byte : UInt8} :
    ((space.setByte a byte).byte? b).isSome = (space.byte? b).isSome := by
  rw [byte?_setByte]
  split
  · next e => simp [e]
  · rfl

@[simp] theorem isSome_byte?_setBytes {a b : Nat} {bytes : List UInt8} :
    ((space.setBytes a bytes).byte? b).isSome = (space.byte? b).isSome := by
  induction bytes generalizing space a with
  | nil => rfl
  | cons byte rest ih => simp [setBytes, ih]

end AddressSpace

namespace MemoryAccess

open AddressSpace

variable {space : AddressSpace} {address : UInt32} {size count : Nat}

theorem chunk_fits {a : Nat} : a % pageSize + chunkSize a count ≤ pageSize := by
  have := Nat.mod_lt a pageSize_pos
  simp only [chunkSize]
  omega

theorem requireMapped_of_ok (h : space.checkMapped address size = .ok ()) :
    (requireMapped address size).run space = .ok (.ok ()) space := by
  unfold requireMapped
  rw [run_get_bind, h]
  rfl

theorem requireMapped_of_error {error : MemoryError}
    (h : space.checkMapped address size = .error error) :
    (requireMapped address size).run space = .ok (.error error) space := by
  unfold requireMapped
  rw [run_get_bind, h]
  rfl

/-! ## Reading -/

/-- The bytes of a range whose pages were checked are read page by page. -/
theorem readBytes_run {a : Nat} (mapped : ∀ i < count, (space.byte? (a + i)).isSome) :
    (readBytes a count).run space = .ok (.ok (space.bytesAt a count)) space := by
  induction count using Nat.strongRecOn generalizing a with
  | ind count ih =>
    unfold readBytes
    split
    · next none =>
      subst none
      rfl
    · next some =>
      obtain ⟨page, found⟩ := exists_page (a := a) (mapped 0 (by omega))
      have size := chunkSize_pos a some
      have fits : a % pageSize + chunkSize a count ≤ pageSize := chunk_fits
      have whole : count = chunkSize a count + (count - chunkSize a count) := by
        simp only [chunkSize]
        omega
      have rest : (readBytes (a + chunkSize a count) (count - chunkSize a count)).run space
          = .ok (.ok (space.bytesAt (a + chunkSize a count) (count - chunkSize a count))) space := by
        refine ih _ (by omega) fun i h => ?_
        rw [Nat.add_assoc]
        exact mapped _ (by omega)
      rw [run_get_bind, found]
      dsimp only
      rw [run_bind_of_ok rest, slice_eq_bytesAt found fits, whole, bytesAt_add, ← whole]
      rfl

/-- A block is read if its range passes the check. -/
theorem readBlock_run (space : AddressSpace) (address : UInt32) (size : Nat) :
    (readBlock address size).run space
      = .ok ((space.checkMapped address size).map fun _ => space.bytesAt address.toNat size)
          space := by
  unfold readBlock
  cases h : space.checkMapped address size with
  | ok =>
    rw [run_bind_of_ok (requireMapped_of_ok h),
      readBytes_run (checkMapped_eq_ok_iff.1 h).2]
    rfl
  | error error =>
    rw [run_bind_of_error (requireMapped_of_error h)]
    rfl

theorem readWord_run (space : AddressSpace) (address : UInt32) :
    (readWord address).run space
      = .ok ((space.checkMapped address 4).map fun _ => space.wordAt address.toNat) space := by
  have block := readBlock_run space address 4
  unfold readWord
  cases h : space.checkMapped address 4 with
  | ok =>
    rw [h] at block
    rw [run_bind_of_ok block]
    rfl
  | error error =>
    rw [h] at block
    rw [run_bind_of_error block]
    rfl

theorem toNat_ofNat_of_lt {n : Nat} (low : n < addressLimit) : (UInt32.ofNat n).toNat = n :=
  UInt32.toNat_ofNat_of_lt low

theorem wordAddress_run {index : Nat} (low : address.toNat + 4 * index < addressLimit)
    (space : AddressSpace) : (wordAddress address index).run space
      = .ok (.ok (UInt32.ofNat (address.toNat + 4 * index))) space := by
  unfold wordAddress
  rw [if_pos low]
  rfl

/-- A word of a row whose range was checked has an address, which passes the check. -/
theorem checkMapped_word {index : Nat} (fits : address.toNat + size * 4 ≤ addressLimit)
    (mapped : ∀ i < size * 4, (space.byte? (address.toNat + i)).isSome) (inside : index < size) :
    address.toNat + 4 * index < addressLimit ∧
      space.checkMapped (UInt32.ofNat (address.toNat + 4 * index)) 4 = .ok () := by
  have low : address.toNat + 4 * index < addressLimit := by omega
  refine ⟨low, ?_⟩
  have place := toNat_ofNat_of_lt low
  apply checkMapped_of_isSome (by omega)
  intro i hi
  rw [place, Nat.add_assoc]
  exact mapped _ (by omega)

/-- The words of a row whose range was checked are read one by one. -/
theorem readWordsAt_run {indices : List Nat} (fits : address.toNat + size * 4 ≤ addressLimit)
    (mapped : ∀ i < size * 4, (space.byte? (address.toNat + i)).isSome)
    (within : ∀ index ∈ indices, index < size) : (readWordsAt address indices).run space
      = .ok (.ok (indices.map fun index => space.wordAt (address.toNat + 4 * index))) space := by
  induction indices with
  | nil => rfl
  | cons index rest ih =>
    obtain ⟨low, check⟩ := checkMapped_word fits mapped (within index (by simp))
    have place := toNat_ofNat_of_lt low
    have reachable := wordAddress_run low space
    have word := readWord_run space (UInt32.ofNat (address.toNat + 4 * index))
    rw [check, place] at word
    unfold readWordsAt
    rw [run_bind_of_ok reachable, run_bind_of_ok word,
      run_bind_of_ok (ih fun i hi => within i (by simp [hi]))]
    rfl

theorem readWords_run (space : AddressSpace) (address : UInt32) (count : Nat) :
    (readWords address count).run space
      = .ok ((space.checkMapped address (count * 4)).map fun _ =>
          (List.range count).map fun index => space.wordAt (address.toNat + 4 * index)) space := by
  unfold readWords
  cases h : space.checkMapped address (count * 4) with
  | ok =>
    obtain ⟨fits, mapped⟩ := checkMapped_eq_ok_iff.1 h
    rw [run_bind_of_ok (requireMapped_of_ok h),
      readWordsAt_run fits mapped fun index hi => by simpa using hi]
    rfl
  | error error =>
    rw [run_bind_of_error (requireMapped_of_error h)]
    rfl

/-! ## Writing -/

/-- The bytes of a range whose pages were checked are written page by page. -/
theorem writeBytes_run {a : Nat} {bytes : List UInt8}
    (mapped : ∀ i < bytes.length, (space.byte? (a + i)).isSome) :
    (writeBytes a bytes).run space = .ok (.ok ()) (space.setBytes a bytes) := by
  induction h : bytes.length using Nat.strongRecOn generalizing space a bytes with
  | ind count ih =>
    subst h
    unfold writeBytes
    split
    · next none =>
      obtain rfl := List.eq_nil_of_length_eq_zero none
      rfl
    · next some =>
      obtain ⟨page, found⟩ := exists_page (a := a) (mapped 0 (by omega))
      have size := chunkSize_pos a some
      have fits : a % pageSize + chunkSize a bytes.length ≤ pageSize := chunk_fits
      have within : chunkSize a bytes.length ≤ bytes.length := Nat.min_le_right _ _
      have length : (bytes.take (chunkSize a bytes.length)).length = chunkSize a bytes.length := by
        rw [List.length_take, Nat.min_eq_left within]
      have first : (⟨space.pages.insert (a / pageSize)
          (page.splice (a % pageSize) (bytes.take (chunkSize a bytes.length)))⟩ : AddressSpace)
          = space.setBytes a (bytes.take (chunkSize a bytes.length)) := by
        rw [← setBytes_of_page found (by rwa [length]), Nat.div_add_mod']
      rw [run_get_bind, found]
      dsimp only
      rw [first, run_set_bind, ih _ (by rw [List.length_drop]; omega) (fun i h => ?_) rfl]
      · have both := space.setBytes_append a (bytes.take (chunkSize a bytes.length))
          (bytes.drop (chunkSize a bytes.length))
        rw [length, List.take_append_drop] at both
        rw [both]
      · rw [isSome_byte?_setBytes, Nat.add_assoc]
        rw [List.length_drop] at h
        exact mapped _ (by omega)

/-- A block is written if its range passes the check, and otherwise left alone. -/
theorem writeBlock_run (space : AddressSpace) (address : UInt32) (bytes : List UInt8) :
    (writeBlock address bytes).run space = match space.checkMapped address bytes.length with
      | .ok () => .ok (.ok ()) (space.setBytes address.toNat bytes)
      | .error error => .ok (.error error) space := by
  unfold writeBlock
  cases h : space.checkMapped address bytes.length with
  | ok =>
    rw [run_bind_of_ok (requireMapped_of_ok h), writeBytes_run (checkMapped_eq_ok_iff.1 h).2]
  | error error => rw [run_bind_of_error (requireMapped_of_error h)]

/-- The words of a row whose range was checked are written one by one: no write takes a page
away. -/
theorem writeWordsFrom_run {words : List UInt32} {index : Nat}
    (fits : address.toNat + size * 4 ≤ addressLimit)
    (mapped : ∀ i < size * 4, (space.byte? (address.toNat + i)).isSome)
    (within : index + words.length ≤ size) : (writeWordsFrom address index words).run space
      = .ok (.ok ()) (space.setWords (address.toNat + 4 * index) words) := by
  induction words generalizing space index with
  | nil => rfl
  | cons word rest ih =>
    rw [List.length_cons] at within
    have inside : index < size := by omega
    obtain ⟨low, check⟩ := checkMapped_word fits mapped inside
    have place := toNat_ofNat_of_lt low
    have reachable := wordAddress_run low space
    have written : (writeWord (UInt32.ofNat (address.toNat + 4 * index)) word).run space
        = .ok (.ok ()) (space.setBytes (address.toNat + 4 * index) (wordBytes word)) := by
      have block := writeBlock_run space (UInt32.ofNat (address.toNat + 4 * index)) (wordBytes word)
      have length : (wordBytes word).length = 4 := rfl
      rw [length, check, place] at block
      exact block
    unfold writeWordsFrom
    rw [run_bind_of_ok reachable, run_bind_of_ok written, ih (fun i hi => ?_) (by omega)]
    · rfl
    · rw [isSome_byte?_setBytes]
      exact mapped i hi

/-- A row of words is written if its range passes the check, and otherwise left alone. -/
theorem writeWords_run (space : AddressSpace) (address : UInt32) (words : List UInt32) :
    (writeWords address words).run space
      = match space.checkMapped address (words.length * 4) with
        | .ok () => .ok (.ok ()) (space.setWords address.toNat words)
        | .error error => .ok (.error error) space := by
  unfold writeWords
  cases h : space.checkMapped address (words.length * 4) with
  | ok =>
    obtain ⟨fits, mapped⟩ := checkMapped_eq_ok_iff.1 h
    rw [run_bind_of_ok (requireMapped_of_ok h), writeWordsFrom_run fits mapped (by omega)]
    rfl
  | error error => rw [run_bind_of_error (requireMapped_of_error h)]

end MemoryAccess

end MicrokernelIpc
