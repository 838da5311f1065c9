import MicrokernelIpc.Delivery.Region
import MicrokernelIpc.Proofs.Wire.Codec
import MicrokernelIpc.Proofs.Wire.CommandBuffer

/-!
# Surveying a transfer region

A transfer region is cut into items before anything is done with it. What comes of that can be
said of the words of the region alone: the handles that its items announce, or what is wrong with
the first word that cannot be taken for a descriptor.
-/

namespace MicrokernelIpc

/-- Whether the handles of a payload are moved, for a descriptor that announces handles. -/
def Descriptor.moves? : Descriptor → Option Bool
  | .copyHandle _ => some false
  | .moveHandle _ => some true
  | _ => none

/-- The handles in the payload of a descriptor, each with whether it is moved. -/
def Descriptor.handles (descriptor : Descriptor) (payload : List UInt32) : List (Bool × Handle) :=
  match descriptor.moves? with
  | some moving => payload.map fun word => (moving, ⟨word⟩)
  | none => []

/-- The handles that the words of a transfer region announce, or why it cannot be cut: a word that
is no descriptor, or a descriptor that needs more words than there are. -/
def survey : List UInt32 → Except DeliveryError (List (Bool × Handle))
  | [] => .ok []
  | word :: rest =>
    match Descriptor.decode word with
    | .error error => .error (.unsupportedDescriptor error)
    | .ok descriptor =>
      if rest.length < descriptor.payloadWords then .error .commandTooLarge
      else
        (survey (rest.drop descriptor.payloadWords)).map fun handles =>
          descriptor.handles (rest.take descriptor.payloadWords) ++ handles
termination_by words => words.length
decreasing_by
  rw [List.length_drop, List.length_cons]
  exact Nat.lt_succ_of_le (Nat.sub_le _ _)

theorem survey_nil : survey [] = .ok [] := by
  rw [survey]

theorem survey_cons {word : UInt32} {payload rest : List UInt32} {descriptor : Descriptor}
    (decoded : Descriptor.decode word = .ok descriptor)
    (length : payload.length = descriptor.payloadWords) :
    survey (word :: (payload ++ rest))
      = (survey rest).map fun handles => descriptor.handles payload ++ handles := by
  have enough : ¬ (payload ++ rest).length < descriptor.payloadWords := by
    rw [List.length_append]
    omega
  rw [survey, decoded]
  simp only [if_neg enough, List.take_left' length, List.drop_left' length]

theorem survey_of_undecoded {word : UInt32} {rest : List UInt32} {error : UnsupportedDescriptor}
    (undecoded : Descriptor.decode word = .error error) :
    survey (word :: rest) = .error (.unsupportedDescriptor error) := by
  rw [survey, undecoded]

theorem survey_of_short {word : UInt32} {rest : List UInt32} {descriptor : Descriptor}
    (decoded : Descriptor.decode word = .ok descriptor)
    (short : rest.length < descriptor.payloadWords) :
    survey (word :: rest) = .error .commandTooLarge := by
  rw [survey, decoded]
  exact if_pos short

namespace RegionItem

variable {buffer : CommandBuffer} {size index : Nat} {descriptor : Descriptor}

theorem index_lt_stop (item : RegionItem) : item.index + 1 ≤ item.stop :=
  Nat.le_add_right _ _

theorem succ_le_stop (index : Nat) (descriptor : Descriptor) :
    index + 1 ≤ (⟨index, descriptor⟩ : RegionItem).stop :=
  index_lt_stop ⟨index, descriptor⟩

theorem length_payload (bound : (⟨index, descriptor⟩ : RegionItem).stop ≤ 64) :
    (buffer.range (index + 1) (⟨index, descriptor⟩ : RegionItem).stop).length
      = descriptor.payloadWords := by
  rw [CommandBuffer.length_range bound, stop, Nat.add_sub_cancel_left]

/-- The items cut the words from `index` up to `size` into a descriptor and its payload each. -/
inductive Tiles (buffer : CommandBuffer) (size : Nat) : Nat → List RegionItem → Prop
  | nil {index : Nat} (done : size ≤ index) : Tiles buffer size index []
  | cons {index : Nat} {descriptor : Descriptor} {rest : List RegionItem} (begun : index < 64)
      (decoded : Descriptor.decode buffer.words[index] = .ok descriptor)
      (fits : (⟨index, descriptor⟩ : RegionItem).stop ≤ size)
      (after : Tiles buffer size (⟨index, descriptor⟩ : RegionItem).stop rest) :
      Tiles buffer size index (⟨index, descriptor⟩ :: rest)

theorem Tiles.stop_le {items : List RegionItem} (tiles : Tiles buffer size index items) :
    ∀ item ∈ items, item.stop ≤ size := by
  induction tiles with
  | nil => simp
  | cons begun decoded fits after ih => simpa using And.intro fits ih

/-- The handles in the payload of an item. -/
def handles (buffer : CommandBuffer) (item : RegionItem) : List (Bool × Handle) :=
  item.descriptor.handles (buffer.range (item.index + 1) item.stop)

theorem Tiles.survey {items : List RegionItem} (tiles : Tiles buffer size index items)
    (bound : size ≤ 64) :
    survey (buffer.range index size) = .ok (items.flatMap (handles buffer)) := by
  induction tiles with
  | nil done => rw [CommandBuffer.range_of_le done, survey_nil, List.flatMap_nil]
  | @cons index descriptor rest begun decoded fits after ih =>
    have further := succ_le_stop index descriptor
    rw [CommandBuffer.range_eq_cons_append begun further fits bound,
      survey_cons decoded (length_payload (by omega)), ih, List.flatMap_cons]
    rfl

/-- What keeps the cutting of a region from going on at a position, as it is noted and as it is
reported to the sender: a word that is no descriptor, or a payload that goes past the region. -/
inductive Stuck (buffer : CommandBuffer) (size position : Nat) : RegionError → DeliveryError → Prop
  | undecoded (begun : position < 64)
      (refused : Descriptor.decode buffer.words[position] = .error ⟨buffer.words[position]⟩) :
      Stuck buffer size position (.unsupported ⟨buffer.words[position]⟩ position)
        (.unsupportedDescriptor ⟨buffer.words[position]⟩)
  | overrun {descriptor : Descriptor} (begun : position < 64)
      (decoded : Descriptor.decode buffer.words[position] = .ok descriptor)
      (long : size < (⟨position, descriptor⟩ : RegionItem).stop) :
      Stuck buffer size position
        (.payloadTooLong descriptor position (⟨position, descriptor⟩ : RegionItem).stop size)
        .commandTooLarge

section

variable {position : Nat} {error : RegionError} {reported : DeliveryError}

theorem Stuck.deliveryError_eq (stuck : Stuck buffer size position error reported) :
    error.deliveryError = reported := by
  cases stuck <;> rfl

theorem Stuck.survey (stuck : Stuck buffer size position error reported) (inside : position < size)
    (bound : size ≤ 64) :
    MicrokernelIpc.survey (buffer.range position size) = .error reported := by
  cases stuck with
  | undecoded begun refused =>
    rw [CommandBuffer.range_cons begun inside, survey_of_undecoded refused]
  | overrun begun decoded long =>
    rw [CommandBuffer.range_cons begun inside, survey_of_short decoded]
    rw [CommandBuffer.length_range bound]
    simp only [stop] at long
    omega

/-- A region whose first tiles end at a position is refused for what follows them. -/
theorem Tiles.survey_error {items : List RegionItem} (tiles : Tiles buffer position index items)
    (before : index ≤ position) (within : position ≤ size) (bound : size ≤ 64)
    (reason : MicrokernelIpc.survey (buffer.range position size) = .error reported) :
    MicrokernelIpc.survey (buffer.range index size) = .error reported := by
  induction tiles with
  | nil done => rwa [Nat.le_antisymm before done]
  | @cons index descriptor rest begun decoded fits after ih =>
    have further := succ_le_stop index descriptor
    rw [CommandBuffer.range_eq_cons_append begun further (Nat.le_trans fits within) bound,
      survey_cons decoded (length_payload (by omega)), ih fits]
    rfl

/-- A region is tiled up to its end, or up to a position where the cutting cannot go on. -/
theorem exists_tiles_or_stuck (buffer : CommandBuffer) {size : Nat} (bound : size ≤ 64)
    (index : Nat) :
    (∃ items, Tiles buffer size index items) ∨
    ∃ position items error reported, index ≤ position ∧ position < size ∧
      Tiles buffer position index items ∧ Stuck buffer size position error reported := by
  induction h : size - index using Nat.strongRecOn generalizing index with
  | ind left ih =>
    by_cases inside : index < size
    · have begun : index < 64 := by omega
      have untiled : Tiles buffer index index [] := .nil (Nat.le_refl index)
      cases decoded : Descriptor.decode buffer.words[index] with
      | error error =>
        obtain rfl := Descriptor.eq_of_decode_eq_error decoded
        exact .inr ⟨index, [], _, _, Nat.le_refl _, inside, untiled, .undecoded begun decoded⟩
      | ok descriptor =>
        by_cases long : size < (⟨index, descriptor⟩ : RegionItem).stop
        · exact .inr ⟨index, [], _, _, Nat.le_refl _, inside, untiled,
            .overrun begun decoded long⟩
        · have fits : (⟨index, descriptor⟩ : RegionItem).stop ≤ size := Nat.le_of_not_lt long
          have further := succ_le_stop index descriptor
          -- what is left of the region begins where this tile stops
          obtain ⟨items, tiles⟩ | ⟨position, items, error, reported, before, within, tiles, stuck⟩ :=
            ih (size - (⟨index, descriptor⟩ : RegionItem).stop) (by omega) _ rfl
          · exact .inl ⟨_, .cons begun decoded fits tiles⟩
          · exact .inr ⟨position, _, error, reported, by omega, within,
              .cons begun decoded before tiles, stuck⟩
    · exact .inl ⟨[], .nil (Nat.le_of_not_lt inside)⟩

end

section

variable {ε α β : Type} {first : ExceptT ε (Except Fault) α} {rest : α → ExceptT ε (Except Fault) β}

theorem run_liftExcept_bind (value : α) :
    ((liftM (Except.ok value : Except Fault α) : ExceptT ε (Except Fault) α) >>= rest).run
      = (rest value).run :=
  rfl

theorem exceptRun_bind_of_ok {value : α} (h : first.run = .ok (.ok value)) :
    (first >>= rest).run = (rest value).run := by
  rw [ExceptT.run_bind, h]
  rfl

theorem exceptRun_bind_of_error {error : ε} (h : first.run = .ok (.error error)) :
    (first >>= rest).run = .ok (.error error) := by
  rw [ExceptT.run_bind, h]
  rfl

end

/-! The cutting of a region takes off one tile at a time, and stops where it is stuck. -/

section

variable {position : Nat} {error : RegionError} {reported : DeliveryError}
  {items : List RegionItem}

theorem ofRegion_run_of_le (done : size ≤ index) :
    (ofRegion buffer index size).run = .ok (.ok []) := by
  rw [ofRegion, if_neg (Nat.not_lt.2 done)]
  rfl

theorem ofRegion_run_cons (begun : index < 64)
    (decoded : Descriptor.decode buffer.words[index] = .ok descriptor)
    (fits : (⟨index, descriptor⟩ : RegionItem).stop ≤ size)
    {outcome : Except RegionError (List RegionItem)}
    (after : (ofRegion buffer (⟨index, descriptor⟩ : RegionItem).stop size).run = .ok outcome) :
    (ofRegion buffer index size).run = .ok (outcome.map (⟨index, descriptor⟩ :: ·)) := by
  have further := succ_le_stop index descriptor
  rw [ofRegion, if_pos (by omega), CommandBuffer.word_eq_ok begun, run_liftExcept_bind, decoded]
  dsimp only
  rw [if_neg (Nat.not_lt.2 fits)]
  cases outcome with
  | error error => exact exceptRun_bind_of_error after
  | ok items => exact exceptRun_bind_of_ok after

theorem Stuck.run (stuck : Stuck buffer size position error reported) (inside : position < size) :
    (ofRegion buffer position size).run = .ok (.error error) := by
  cases stuck with
  | undecoded begun refused =>
    rw [ofRegion, if_pos inside, CommandBuffer.word_eq_ok begun, run_liftExcept_bind, refused]
    rfl
  | overrun begun decoded long =>
    rw [ofRegion, if_pos inside, CommandBuffer.word_eq_ok begun, run_liftExcept_bind, decoded]
    dsimp only
    rw [if_pos long]
    rfl

/-- The tiles up to a position come first in what the region is cut into. -/
theorem Tiles.run (tiles : Tiles buffer position index items) (before : index ≤ position)
    (within : position ≤ size) {outcome : Except RegionError (List RegionItem)}
    (after : (ofRegion buffer position size).run = .ok outcome) :
    (ofRegion buffer index size).run = .ok (outcome.map (items ++ ·)) := by
  induction tiles with
  | nil done =>
    obtain rfl := Nat.le_antisymm before done
    rw [after]
    cases outcome <;> rfl
  | cons begun decoded fits rest ih =>
    rw [ofRegion_run_cons begun decoded (Nat.le_trans fits within) (ih fits)]
    cases outcome <;> rfl

theorem Tiles.run_ok (tiles : Tiles buffer size index items) (ordered : index ≤ size) :
    (ofRegion buffer index size).run = .ok (.ok items) := by
  rw [tiles.run ordered (Nat.le_refl size) (ofRegion_run_of_le (Nat.le_refl size))]
  exact congrArg (Except.ok ∘ Except.ok) (List.append_nil items)

theorem Tiles.run_error (tiles : Tiles buffer position index items) (before : index ≤ position)
    (inside : position < size) (stuck : Stuck buffer size position error reported) :
    (ofRegion buffer index size).run = .ok (.error error) :=
  tiles.run before (Nat.le_of_lt inside) (stuck.run inside)

end

/-- A region is cut into its tiles, or not at all for the reason that the survey finds. No word
outside of the buffer is asked for. -/
theorem ofRegion_run (buffer : CommandBuffer) {size : Nat} (bound : size ≤ 64) (index : Nat) :
    (∃ error, (ofRegion buffer index size).run = .ok (.error error) ∧
      MicrokernelIpc.survey (buffer.range index size) = .error error.deliveryError) ∨
    ∃ items, (ofRegion buffer index size).run = .ok (.ok items) ∧
      Tiles buffer size index items := by
  by_cases ordered : index ≤ size
  · obtain ⟨items, tiles⟩ | ⟨position, items, error, reported, before, inside, tiles, stuck⟩ :=
      exists_tiles_or_stuck buffer bound index
    · exact .inr ⟨items, tiles.run_ok ordered, tiles⟩
    · refine .inl ⟨error, tiles.run_error before inside stuck, ?_⟩
      rw [stuck.deliveryError_eq]
      exact tiles.survey_error before (Nat.le_of_lt inside) bound (stuck.survey inside bound)
  · have done : size ≤ index := Nat.le_of_not_le ordered
    exact .inr ⟨[], ofRegion_run_of_le done, .nil done⟩

end RegionItem

end MicrokernelIpc
