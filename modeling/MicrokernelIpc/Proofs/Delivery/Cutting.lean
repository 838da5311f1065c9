import MicrokernelIpc.Proofs.Delivery.Survey

/-!
# The cutting of a transfer region is exact

A region is cut into tiles that follow one another without gap from its first word to its last, in
the one way there is, or it is refused for the position where the tiles cannot be continued. Only
the words where a tile begins are taken for descriptors, so no payload and nothing outside of the
region can change how it is cut.
-/

namespace MicrokernelIpc.RegionItem

variable {buffer other : CommandBuffer} {size index position i : Nat} {items : List RegionItem}
  {item : RegionItem} {error : RegionError} {reported : DeliveryError}

/-! ## Tiles follow one another -/

theorem Tiles.index_le (tiles : Tiles buffer size index items) :
    ∀ item ∈ items, index ≤ item.index := by
  induction tiles with
  | nil => simp
  | @cons index descriptor rest begun decoded fits after ih =>
    have further := succ_le_stop index descriptor
    intro item mem
    obtain rfl | mem := List.mem_cons.1 mem
    · exact Nat.le_refl index
    · have beyond := ih item mem
      omega

theorem Tiles.pairwise (tiles : Tiles buffer size index items) :
    items.Pairwise fun item next => item.stop ≤ next.index := by
  induction tiles with
  | nil => exact .nil
  | cons begun decoded fits after ih => exact .cons after.index_le ih

theorem Tiles.exists_mem (tiles : Tiles buffer size index items) (low : index ≤ i)
    (high : i < size) : ∃ item ∈ items, item.index ≤ i ∧ i < item.stop := by
  induction tiles with
  | nil done => omega
  | @cons index descriptor rest begun decoded fits after ih =>
    by_cases within : i < (⟨index, descriptor⟩ : RegionItem).stop
    · exact ⟨_, List.mem_cons_self, low, within⟩
    · obtain ⟨item, mem, inside⟩ := ih (Nat.le_of_not_lt within)
      exact ⟨item, List.mem_cons_of_mem _ mem, inside⟩

/-- The words of a region are those of its tiles. -/
theorem Tiles.inside_iff (tiles : Tiles buffer size index items) :
    index ≤ i ∧ i < size ↔ ∃ item ∈ items, item.index ≤ i ∧ i < item.stop := by
  refine ⟨fun inside => tiles.exists_mem inside.1 inside.2, ?_⟩
  rintro ⟨item, mem, low, high⟩
  exact ⟨Nat.le_trans (tiles.index_le item mem) low,
    Nat.lt_of_lt_of_le high (tiles.stop_le item mem)⟩

/-! ## Where tiles begin -/

/-- Tiles from `start` on end at a position. -/
def Reached (buffer : CommandBuffer) (start position : Nat) : Prop :=
  start ≤ position ∧ ∃ items, Tiles buffer position start items

theorem Reached.cons {descriptor : Descriptor} (begun : index < 64)
    (decoded : Descriptor.decode buffer.words[index] = .ok descriptor)
    (reached : Reached buffer (⟨index, descriptor⟩ : RegionItem).stop position) :
    Reached buffer index position := by
  obtain ⟨before, items, tiles⟩ := reached
  have further := succ_le_stop index descriptor
  exact ⟨by omega, _, .cons begun decoded before tiles⟩

/-- Tiles that go past a descriptor go past its payload. -/
theorem Reached.next {descriptor : Descriptor} {begun : index < 64}
    (decoded : Descriptor.decode buffer.words[index] = .ok descriptor)
    (reached : Reached buffer index position) (beyond : index < position) :
    Reached buffer (⟨index, descriptor⟩ : RegionItem).stop position := by
  obtain ⟨-, items, tiles⟩ := reached
  cases tiles with
  | nil done => exact absurd beyond (Nat.not_lt.2 done)
  | cons begun decoded' fits after =>
    obtain rfl := Except.ok.inj (decoded.symm.trans decoded')
    exact ⟨fits, _, after⟩

/-- No position within a payload is reached. -/
theorem Tiles.not_reached (tiles : Tiles buffer size index items) (mem : item ∈ items)
    (low : item.index < i) (high : i < item.stop) : ¬ Reached buffer index i := by
  induction tiles with
  | nil => cases mem
  | @cons index descriptor rest begun decoded fits after ih =>
    intro reached
    have further := succ_le_stop index descriptor
    obtain rfl | mem := List.mem_cons.1 mem
    · exact absurd high (Nat.not_lt.2 (reached.next decoded low).1)
    · have beyond := after.index_le item mem
      exact ih mem (reached.next decoded (by omega))

/-! ## Which words matter -/

/-- The buffers have the same words wherever tiles from `index` on can begin before `size`. -/
def SameHeads (buffer other : CommandBuffer) (index size : Nat) : Prop :=
  ∀ position (begun : position < 64), position < size → Reached buffer index position →
    other.words[position] = buffer.words[position]

theorem Tiles.transport (tiles : Tiles buffer position index items) (within : position ≤ size)
    (same : SameHeads buffer other index size) : Tiles other position index items := by
  induction tiles with
  | nil done => exact .nil done
  | @cons index descriptor rest begun decoded fits after ih =>
    have further := succ_le_stop index descriptor
    have word := same index begun (by omega) ⟨Nat.le_refl index, [], .nil (Nat.le_refl index)⟩
    refine .cons begun (word ▸ decoded) fits (ih ?_)
    exact fun position begun' inside reached => same position begun' inside
      (reached.cons begun decoded)

theorem Stuck.transport (stuck : Stuck buffer size position error reported)
    (same : ∀ begun : position < 64, other.words[position] = buffer.words[position]) :
    Stuck other size position error reported := by
  cases stuck with
  | undecoded begun refused =>
    rw [← same begun] at refused ⊢
    exact .undecoded begun refused
  | overrun begun decoded long => exact .overrun begun ((same begun) ▸ decoded) long

/-! ## What the cutting ends with -/

theorem ofRegion_run_eq_ok_iff (ordered : index ≤ size) (bound : size ≤ 64) :
    (ofRegion buffer index size).run = .ok (.ok items) ↔ Tiles buffer size index items := by
  refine ⟨fun run => ?_, fun tiles => tiles.run_ok ordered⟩
  obtain ⟨_, tiles⟩ | ⟨_, _, _, _, before, inside, tiles, stuck⟩ :=
    exists_tiles_or_stuck buffer bound index
  · cases run.symm.trans (tiles.run_ok ordered)
    exact tiles
  · cases run.symm.trans (tiles.run_error before inside stuck)

theorem ofRegion_run_eq_error_iff (ordered : index ≤ size) (bound : size ≤ 64) :
    (ofRegion buffer index size).run = .ok (.error error) ∧ error.deliveryError = reported ↔
      ∃ position < size, Reached buffer index position ∧
        Stuck buffer size position error reported := by
  constructor
  · rintro ⟨run, rfl⟩
    obtain ⟨_, tiles⟩ | ⟨position, items, _, _, before, inside, tiles, stuck⟩ :=
      exists_tiles_or_stuck buffer bound index
    · cases run.symm.trans (tiles.run_ok ordered)
    · cases run.symm.trans (tiles.run_error before inside stuck)
      exact ⟨position, inside, ⟨before, items, tiles⟩, stuck.deliveryError_eq.symm ▸ stuck⟩
  · rintro ⟨position, inside, ⟨before, items, tiles⟩, stuck⟩
    exact ⟨tiles.run_error before inside stuck, stuck.deliveryError_eq⟩

theorem SameHeads.run_eq (same : SameHeads buffer other index size) (ordered : index ≤ size)
    (bound : size ≤ 64) :
    (ofRegion other index size).run = (ofRegion buffer index size).run := by
  obtain ⟨items, tiles⟩ | ⟨position, items, _, _, before, inside, tiles, stuck⟩ :=
    exists_tiles_or_stuck buffer bound index
  · rw [tiles.run_ok ordered, (tiles.transport (Nat.le_refl size) same).run_ok ordered]
  · have word := fun begun => same position begun inside ⟨before, items, tiles⟩
    rw [tiles.run_error before inside stuck,
      (tiles.transport (Nat.le_of_lt inside) same).run_error before inside (stuck.transport word)]

/-- **The cutting of a region is exact.** It always ends, with the items of the region or with an
error. The items are the tiles of the region, which there are in one way; they are apart and in
order, and the words of the region are those of its tiles. The error is that of the position up to
which there are tiles and where they cannot be continued. No payload is taken for a descriptor, and
a buffer that has the same words where tiles begin is cut the same. -/
theorem ofRegion_exact (buffer : CommandBuffer) {start size : Nat} (ordered : start ≤ size)
    (bound : size ≤ 64) :
    ((∃ items, (ofRegion buffer start size).run = .ok (.ok items)) ∨
      ∃ error, (ofRegion buffer start size).run = .ok (.error error)) ∧
    (∀ items, (ofRegion buffer start size).run = .ok (.ok items) ↔ Tiles buffer size start items) ∧
    (∀ items, Tiles buffer size start items →
      (∀ others, Tiles buffer size start others → others = items) ∧
      (items.Pairwise fun item next => item.stop ≤ next.index) ∧
      ∀ i, start ≤ i ∧ i < size ↔ ∃ item ∈ items, item.index ≤ i ∧ i < item.stop) ∧
    (∀ error reported, (ofRegion buffer start size).run = .ok (.error error) ∧
        error.deliveryError = reported ↔
      ∃ position < size, Reached buffer start position ∧
        Stuck buffer size position error reported) ∧
    (∀ stop items item i, Tiles buffer stop start items → item ∈ items → item.index < i →
      i < item.stop → ¬ Reached buffer start i) ∧
    ∀ other, SameHeads buffer other start size →
      (ofRegion other start size).run = (ofRegion buffer start size).run := by
  refine ⟨?_, fun items => ofRegion_run_eq_ok_iff ordered bound,
    fun items tiles => ⟨fun others tiles' => ?_, tiles.pairwise, fun i => tiles.inside_iff⟩,
    fun error reported => ofRegion_run_eq_error_iff ordered bound,
    fun _ _ _ _ tiles mem low high => tiles.not_reached mem low high,
    fun other same => same.run_eq ordered bound⟩
  · obtain ⟨items, tiles⟩ | ⟨_, _, error, _, before, inside, tiles, stuck⟩ :=
      exists_tiles_or_stuck buffer bound start
    · exact .inl ⟨items, tiles.run_ok ordered⟩
    · exact .inr ⟨error, tiles.run_error before inside stuck⟩
  · cases (tiles'.run_ok ordered).symm.trans (tiles.run_ok ordered)
    rfl

/-- Two copied handles, the first of which would be no descriptor, and the sender's identifier. -/
def handlesAndIdentifier : CommandBuffer := .ofList [0, 0x04000000, 0x104, 0x3, 0x20, 0]

/-- The handles and the identifier fill five words; without the last of them the identifier's
descriptor has no room for its payload. -/
theorem ofRegion_exact_of_handles :
    (ofRegion handlesAndIdentifier 1 6).run
        = .ok (.ok [⟨1, .copyHandle 2⟩, ⟨4, .callingPid⟩]) ∧
      (ofRegion handlesAndIdentifier 1 5).run
        = .ok (.error (.payloadTooLong .callingPid 4 6 5)) := by
  have handles {stop : Nat} {rest : List RegionItem} (fits : 4 ≤ stop)
      (after : Tiles handlesAndIdentifier stop 4 rest) :
      Tiles handlesAndIdentifier stop 1 (⟨1, .copyHandle 2⟩ :: rest) :=
    .cons (by decide) (by rfl) fits after
  have identifier : Descriptor.decode handlesAndIdentifier.words[4] = .ok .callingPid := by rfl
  obtain ⟨-, whole, -⟩ :=
    @ofRegion_exact handlesAndIdentifier 1 6 (by decide) (by decide)
  obtain ⟨-, -, -, cut, -⟩ :=
    @ofRegion_exact handlesAndIdentifier 1 5 (by decide) (by decide)
  constructor
  · exact (whole _).2 (handles (by decide)
      (.cons (by decide) identifier (Nat.le_refl 6) (.nil (Nat.le_refl 6))))
  · exact ((cut _ .commandTooLarge).2 ⟨4, by decide, ⟨by decide, _, handles (by decide)
      (.nil (Nat.le_refl 4))⟩, .overrun (by decide) identifier (by decide)⟩).1

end MicrokernelIpc.RegionItem
