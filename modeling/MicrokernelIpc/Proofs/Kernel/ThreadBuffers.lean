import MicrokernelIpc.Proofs.Kernel.ThreadSlots

/-!
# The command buffers of threads

A command buffer lies in its thread's slot, and so inside of one page: if a word of it is mapped,
all of it is. The buffers of two threads have no byte in common, and what is written to one of them
is not seen in another.
-/

namespace MicrokernelIpc

/-- A range inside of one page is mapped as soon as it is mapped at its beginning. -/
theorem AddressSpace.checkMapped_of_one_page {space : AddressSpace} {address : UInt32}
    {size count : Nat} (fits : address.toNat % pageSize + size ≤ pageSize) (some : 0 < count)
    (mapped : space.checkMapped address count = .ok ()) : space.checkMapped address size = .ok () := by
  obtain ⟨-, bytes⟩ := checkMapped_eq_ok_iff.1 mapped
  have first := isSome_byte?.1 (bytes 0 some)
  have low := address.toNat_lt
  refine checkMapped_eq_ok_iff.2 ⟨?_, fun i inside => isSome_byte?.2 ?_⟩
  · simp only [pageSize, addressLimit] at *
    omega
  · have same : (address.toNat + i) / pageSize = (address.toNat + 0) / pageSize := by
      simp only [pageSize] at *
      omega
    rwa [same]

namespace World

/-- A command buffer lies inside of its slot, in one page. -/
theorem Reserved.commandBuffer {w : World} {thread : Thread}
    (reserved : w.Reserved thread.owner thread.tlsAddress) :
    thread.commandBufferAddress.toNat = thread.tlsAddress.toNat + commandBufferOffset ∧
      thread.commandBufferAddress.toNat % AddressSpace.pageSize + CommandBuffer.size * 4
        ≤ AddressSpace.pageSize := by
  obtain ⟨slot, place, -⟩ := reserved
  have low := thread.tlsAddress.toNat_lt
  have offset : (UInt32.ofNat commandBufferOffset).toNat = commandBufferOffset := rfl
  have address : thread.commandBufferAddress.toNat
      = thread.tlsAddress.toNat + commandBufferOffset := by
    rw [Thread.commandBufferAddress, UInt32.toNat_add, offset, Nat.mod_eq_of_lt]
    simp only [tlsAreaAddress, tlsEntrySize, commandBufferOffset] at *
    omega
  refine ⟨address, ?_⟩
  rw [address, place]
  simp only [tlsAreaAddress, tlsEntrySize, commandBufferOffset, AddressSpace.pageSize,
    CommandBuffer.size]
  omega

/-- The command buffers of two threads of a process lie beside each other. -/
theorem Slotted.buffers_apart {w : World} (slotted : w.Slotted) {key other : Key Thread}
    {thread another : Thread} (found : w.threads.get? key = some thread)
    (found' : w.threads.get? other = some another) (apart : key ≠ other)
    (same : thread.owner = another.owner) :
    thread.commandBufferAddress.toNat + 4 * CommandBuffer.size ≤ another.commandBufferAddress.toNat ∨
      another.commandBufferAddress.toNat + 4 * CommandBuffer.size
        ≤ thread.commandBufferAddress.toNat := by
  have reserved := slotted.reserved key thread found
  have reserved' := slotted.reserved other another found'
  have differ := slotted.apart key other thread another found found' apart same
  rw [reserved.commandBuffer.1, reserved'.commandBuffer.1]
  obtain ⟨slot, place, -⟩ := reserved
  obtain ⟨slot', place', -⟩ := reserved'
  have slots : slot ≠ slot' := by
    rintro rfl
    exact differ (UInt32.toNat_inj.1 (place.trans place'.symm))
  simp only [tlsEntrySize, CommandBuffer.size] at *
  omega

/-- The words of a thread's command buffer, all of which is mapped. -/
def Buffered (w : World) (key : Key Thread) (words : List UInt32) : Prop :=
  ∃ thread memory, w.threads.get? key = some thread ∧ w.memory? thread.owner = some memory ∧
    memory.checkMapped thread.commandBufferAddress (CommandBuffer.size * 4) = .ok () ∧
    memory.wordsAt thread.commandBufferAddress.toNat CommandBuffer.size = words

/-- The first words of a thread's command buffer are replaced, and no other memory is. -/
structure Rewrites (w : World) (key : Key Thread) (words : List UInt32) (w' : World) : Prop where
  fits : words.length ≤ CommandBuffer.size
  threads : w'.threads = w.threads
  written : ∃ thread memory, w.threads.get? key = some thread ∧
    w.memory? thread.owner = some memory ∧
    w'.memory? thread.owner = some (memory.setWords thread.commandBufferAddress.toNat words) ∧
    ∀ place, thread.owner ≠ place → w'.memory? place = w.memory? place

variable {w w' : World} {key other : Key Thread} {words asked : List UInt32}

theorem Buffered.length (buffered : w.Buffered key words) : words.length = CommandBuffer.size := by
  obtain ⟨thread, memory, -, -, -, rfl⟩ := buffered
  exact AddressSpace.length_wordsAt

/-- A buffer that is mapped is loaded as it stands. -/
theorem Buffered.leads_load (buffered : w.Buffered key words) :
    Leads w (loadCommandBuffer key).run
      (fun outcome next => next = w ∧ outcome = .ok (.ofList words)) fun _ => False := by
  obtain ⟨thread, memory, found, holds, mapped, rfl⟩ := buffered
  obtain ⟨process, there, rfl⟩ := Option.map_eq_some_iff.1 holds
  exact leads_loadCommandBuffer_of_mapped found there mapped

/-- A buffer of a thread that stays is told by its process's memory. -/
theorem Buffered.of_keepsPlaces (buffered : w.Buffered key words) (places : w.KeepsPlaces w')
    (there : w'.threads.get? key ≠ none)
    (same : ∀ thread, w.threads.get? key = some thread →
      w'.memory? thread.owner = w.memory? thread.owner) : w'.Buffered key words := by
  obtain ⟨thread, memory, found, holds, mapped, rfl⟩ := buffered
  obtain ⟨after, found'⟩ := Option.ne_none_iff_exists'.1 there
  obtain ⟨before, here, owner, address⟩ :=
    places.threads key after found' (Roster.index_lt_next found)
  obtain rfl := Option.some.inj (found.symm.trans here)
  have buffer : after.commandBufferAddress = thread.commandBufferAddress :=
    congrArg (· + UInt32.ofNat commandBufferOffset) address
  refine ⟨after, memory, found', ?_, ?_, ?_⟩
  · rw [owner, same thread found, holds]
  · rw [buffer, mapped]
  · rw [buffer]

theorem Rewrites.buffered (rewrites : w.Rewrites key words w') (buffered : w.Buffered key asked) :
    w'.Buffered key (words ++ asked.drop words.length) := by
  obtain ⟨thread, memory, found, holds, mapped, rfl⟩ := buffered
  obtain ⟨same, memory', found', holds', written, -⟩ := rewrites.written
  obtain rfl := Option.some.inj (found.symm.trans found')
  obtain rfl := Option.some.inj (holds.symm.trans holds')
  refine ⟨thread, _, rewrites.threads ▸ found, written, ?_, ?_⟩
  · rw [AddressSpace.checkMapped_setWords, mapped]
  · obtain ⟨-, bytes⟩ := AddressSpace.checkMapped_eq_ok_iff.1 mapped
    have fits := rewrites.fits
    exact AddressSpace.wordsAt_setWords_of_le (fun i inside => bytes i (by omega)) fits

/-- What is written to one command buffer is not seen in another. -/
theorem Rewrites.buffered_of_ne (rewrites : w.Rewrites key words w') (slotted : w.Slotted)
    (apart : key ≠ other) (buffered : w.Buffered other asked) : w'.Buffered other asked := by
  obtain ⟨thread, memory, found, holds, mapped, rfl⟩ := buffered
  obtain ⟨writer, memory', found', holds', written, others⟩ := rewrites.written
  by_cases shared : writer.owner = thread.owner
  · rw [shared, holds] at holds'
    obtain rfl := Option.some.inj holds'
    refine ⟨thread, _, rewrites.threads ▸ found, shared ▸ written, ?_, ?_⟩
    · rw [AddressSpace.checkMapped_setWords, mapped]
    · have buffers := slotted.buffers_apart found' found apart shared
      have fits := rewrites.fits
      exact AddressSpace.wordsAt_setWords_of_apart (by omega)
  · exact ⟨thread, memory, rewrites.threads ▸ found, (others _ shared).trans holds, mapped, rfl⟩

end World

end MicrokernelIpc
