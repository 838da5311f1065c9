import MicrokernelIpc.Proofs.Delivery.Stages

/-!
# What a delivery does with the words of a region

The carrying over of a transfer region is told again, of its words alone and then of its handles
alone. A region of words is walked a descriptor and its payload at a time; its handles are handed
over one at a time, in the order in which they stand, or up to one that the receiver's table has
no room for.
-/

namespace MicrokernelIpc

/-- A handle that was handed over: whether it was moved, what it named when its turn came, and the
handle that was issued for it, zero if it named nothing. -/
structure Handing where
  moving : Bool
  handle : Handle
  object : Option ObjectRef
  issued : Handle

namespace Handing

/-- The handle as it stands in the command that is sent. -/
def sent (handing : Handing) : Bool × Handle := (handing.moving, handing.handle)

/-- The handle as it stands in the command that arrives. -/
def received (handing : Handing) : Bool × Handle := (handing.moving, handing.issued)

end Handing

namespace Route

/-- Handles are handed over one after the other. -/
inductive HandsEach (route : Route) : Ledger → List Handing → World → Ledger → World → Prop
  | nil {ledger : Ledger} {w : World} : HandsEach route ledger [] w ledger w
  | cons {ledger entered final : Ledger} {moving : Bool} {handle : Handle} {word : UInt32}
      {rest : List Handing} {w held w' : World}
      (first : route.HandsOver moving ledger handle w (.ok (word, entered)) held)
      (after : HandsEach route entered rest held final w') :
      HandsEach route ledger (⟨moving, handle, route.named w ledger handle, ⟨word⟩⟩ :: rest) w
        final w'

/-- Handles are handed over up to one that the receiver's table has no room for. -/
structure StopsAt (route : Route) (ledger : Ledger) (handings : List Handing) (moving : Bool)
    (handle : Handle) (w held : World) (last : Ledger) (w' : World) : Prop where
  before : route.HandsEach ledger handings w last held
  full : route.HandsOver moving last handle held (.error last) w'

/-- The payload of a descriptor is carried over. -/
inductive CarriesPayload (route : Route) (descriptor : Descriptor) (ledger : Ledger)
    (payload : List UInt32) (w : World) : List UInt32 → Ledger → World → Prop
  | handles {moving : Bool} {new : List UInt32} {final : Ledger} {w' : World}
      (announced : descriptor.moves? = some moving)
      (handed : route.HandsOverAll moving ledger payload w (.ok (new, final)) w') :
      CarriesPayload route descriptor ledger payload w new final w'
  | callingPid {process : Process} (announced : descriptor = .callingPid)
      (found : w.processes.get? route.sender.owner = some process) :
      CarriesPayload route descriptor ledger payload w [process.processId] ledger w
  | buffer (other : descriptor.moves? = none) (plain : descriptor ≠ .callingPid) :
      CarriesPayload route descriptor ledger payload w payload ledger w

/-- The words of a region are walked, a descriptor and its payload at a time. -/
inductive Walks (route : Route) :
    Ledger → List UInt32 → World → List UInt32 → Ledger → World → Prop
  | nil {ledger : Ledger} {w : World} : Walks route ledger [] w [] ledger w
  | cons {ledger entered final : Ledger} {descriptor : Descriptor} {word : UInt32}
      {payload new rest after : List UInt32} {w held w' : World}
      (decoded : Descriptor.decode word = .ok descriptor)
      (length : payload.length = descriptor.payloadWords)
      (first : route.CarriesPayload descriptor ledger payload w new entered held)
      (others : Walks route entered rest held after final w') :
      Walks route ledger (word :: (payload ++ rest)) w (word :: (new ++ after)) final w'

variable {route : Route} {ledger entered final last : Ledger} {w held w' : World} {moving : Bool}
variable {buffer after : CommandBuffer} {item : RegionItem} {descriptor : Descriptor}
variable {handings more : List Handing} {payload new words : List UInt32} {handle : Handle}

/-! ## From items to words -/

/-- What is done with an item's payload is put in its place, and nothing else is changed. -/
theorem Carries.carriesPayload (bound : item.stop ≤ 64)
    (carries : route.Carries buffer ledger item w (.ok (after, entered)) w') :
    route.CarriesPayload item.descriptor ledger (buffer.range (item.index + 1) item.stop) w
        (after.range (item.index + 1) item.stop) entered w' ∧
      ∀ a b, b ≤ item.index + 1 ∨ item.stop ≤ a → after.range a b = buffer.range a b := by
  generalize same : Except.ok (after, entered) = outcome at carries
  have begun := item.index_lt_stop
  cases carries with
  | @handles moving words final _ announced handed =>
    obtain ⟨rfl, rfl⟩ := Prod.mk.inj (Except.ok.inj same)
    have length := handed.length.trans (CommandBuffer.length_range bound)
    have stop : item.stop = item.index + 1 + words.length := by omega
    refine ⟨?_, fun a b apart => CommandBuffer.range_splice_of_disjoint (by omega) (by omega)⟩
    rw [stop, CommandBuffer.range_splice_self (by omega), ← stop]
    exact .handles announced handed
  | full => cases same
  | @callingPid process announced found =>
    obtain ⟨rfl, rfl⟩ := Prod.mk.inj (Except.ok.inj same)
    have stop : item.stop = item.index + 1 + [process.processId].length := by
      rw [RegionItem.stop, announced]
      rfl
    refine ⟨?_, fun a b apart => CommandBuffer.range_splice_of_disjoint (by omega) (by omega)⟩
    rw [stop, CommandBuffer.range_splice_self (by omega)]
    exact .callingPid announced found
  | buffer other plain =>
    obtain ⟨rfl, rfl⟩ := Prod.mk.inj (Except.ok.inj same)
    exact ⟨.buffer other plain, fun _ _ _ => rfl⟩

/-- A region that is carried over is walked. Words before it are left alone. -/
theorem CarriesAll.walks {command : CommandBuffer} {size index : Nat} {items : List RegionItem}
    (bound : size ≤ 64) (tiles : RegionItem.Tiles command size index items)
    (ahead : ∀ a b, index ≤ a → buffer.range a b = command.range a b)
    (carries : route.CarriesAll buffer ledger items w (.ok (after, final)) w') :
    route.Walks ledger (command.range index size) w (after.range index size) final w' ∧
      ∀ a b, b ≤ index → after.range a b = buffer.range a b := by
  induction tiles generalizing buffer ledger w with
  | nil done =>
    generalize same : Except.ok (after, final) = outcome at carries
    cases carries with
    | nil =>
      obtain ⟨rfl, rfl⟩ := Prod.mk.inj (Except.ok.inj same)
      rw [CommandBuffer.range_of_le done, CommandBuffer.range_of_le done]
      exact ⟨.nil, fun _ _ _ => rfl⟩
  | @cons index descriptor rest begun decoded fits _ ih =>
    cases carries with
    | @cons _ next _ _ _ _ _ held _ _ first others =>
      have further := RegionItem.succ_le_stop index descriptor
      obtain ⟨carried, outside⟩ := first.carriesPayload (Nat.le_trans fits bound)
      dsimp only at carried outside
      have behind : ∀ a b, (⟨index, descriptor⟩ : RegionItem).stop ≤ a →
          next.range a b = command.range a b := by
        intro a b h
        rw [outside a b (.inr h), ahead a b (by omega)]
      obtain ⟨walked, before⟩ := ih behind others
      refine ⟨?_, fun a b h => ?_⟩
      · have still : after.words[index] = command.words[index] := by
          apply CommandBuffer.words_eq_of_range begun
          rw [before _ _ further, outside _ _ (.inl le_rfl), ahead _ _ le_rfl]
        rw [command.range_eq_cons_append begun further fits bound,
          after.range_eq_cons_append begun further fits bound, still, before _ _ le_rfl]
        rw [ahead _ _ (Nat.le_succ index)] at carried
        exact .cons decoded (RegionItem.length_payload (Nat.le_trans fits bound)) carried walked
      · rw [before a b (by omega), outside a b (.inl (Nat.le_succ_of_le h))]

/-! ## From words to handles -/

theorem HandsEach.append (first : route.HandsEach ledger handings w entered held)
    (second : route.HandsEach entered more held final w') :
    route.HandsEach ledger (handings ++ more) w final w' := by
  induction first with
  | nil => exact second
  | cons first _ ih => exact .cons first (ih second)

theorem HandsOverAll.handsEach
    (hands : route.HandsOverAll moving ledger words w (.ok (new, final)) w') :
    ∃ handings, words.map (fun word => (moving, ⟨word⟩)) = handings.map Handing.sent ∧
      new.map (fun word => (moving, ⟨word⟩)) = handings.map Handing.received ∧
      route.HandsEach ledger handings w final w' := by
  generalize same : Except.ok (new, final) = outcome at hands
  induction hands generalizing new with
  | nil =>
    cases same
    exact ⟨[], rfl, rfl, .nil⟩
  | @cons ledger _ _ word new _ _ w _ _ first _ ih =>
    cases same
    obtain ⟨handings, sent, received, each⟩ := ih rfl
    refine ⟨_, ?_, ?_, .cons first each⟩
    · rw [List.map_cons, sent]
      rfl
    · rw [List.map_cons, received]
      rfl
  | full => cases same
  | later => cases same

/-- What is handed over of a payload whose handles are not all handed over. -/
theorem HandsOverAll.stopsAt (hands : route.HandsOverAll moving ledger words w (.error last) w') :
    ∃ handings handle rest held,
      words.map (fun word => (moving, ⟨word⟩)) = handings.map Handing.sent ++ (moving, handle) :: rest ∧
      route.StopsAt ledger handings moving handle w held last w' := by
  generalize same : Except.error last = outcome at hands
  induction hands with
  | nil => cases same
  | cons => cases same
  | @full ledger _ word rest w _ first =>
    cases same
    obtain rfl : ledger = last := by
      cases first
      rfl
    exact ⟨[], ⟨word⟩, _, w, rfl, .nil, first⟩
  | @later ledger _ _ word new _ w _ _ first _ ih =>
    cases same
    obtain ⟨handings, handle, rest, held, sent, before, full⟩ := ih rfl
    refine ⟨_, handle, rest, held, ?_, .cons first before, full⟩
    rw [List.map_cons, sent]
    rfl

theorem CarriesPayload.handsEach
    (carries : route.CarriesPayload descriptor ledger payload w new final w') :
    ∃ handings, descriptor.handles payload = handings.map Handing.sent ∧
      descriptor.handles new = handings.map Handing.received ∧
      route.HandsEach ledger handings w final w' := by
  have none {words : List UInt32} (other : descriptor.moves? = none) :
      descriptor.handles words = [] := by
    simp [Descriptor.handles, other]
  cases carries with
  | handles announced handed =>
    obtain ⟨handings, sent, received, each⟩ := handed.handsEach
    refine ⟨handings, ?_, ?_, each⟩
    · simpa [Descriptor.handles, announced] using sent
    · simpa [Descriptor.handles, announced] using received
  | callingPid announced =>
    subst announced
    exact ⟨[], none rfl, none rfl, .nil⟩
  | buffer other => exact ⟨[], none other, none other, .nil⟩

theorem CarriesPayload.length
    (carries : route.CarriesPayload descriptor ledger payload w new final w')
    (length : payload.length = descriptor.payloadWords) :
    new.length = descriptor.payloadWords := by
  cases carries with
  | handles _ handed => rw [handed.length, length]
  | callingPid announced =>
    subst announced
    rfl
  | buffer => exact length

/-- The handles of a region that is walked are handed over one after the other, and those that
are issued stand in their places. -/
theorem Walks.handsEach (walks : route.Walks ledger words w new final w') :
    ∃ handings, survey words = .ok (handings.map Handing.sent) ∧
      survey new = .ok (handings.map Handing.received) ∧
      route.HandsEach ledger handings w final w' := by
  induction walks with
  | nil => exact ⟨[], survey_nil, survey_nil, .nil⟩
  | cons decoded length first _ ih =>
    obtain ⟨handings, sent, received, each⟩ := first.handsEach
    obtain ⟨rest, sents, receiveds, others⟩ := ih
    refine ⟨handings ++ rest, ?_, ?_, each.append others⟩
    · rw [survey_cons decoded length, sents, sent, List.map_append]
      rfl
    · rw [survey_cons decoded (first.length length), receiveds, received, List.map_append]
      rfl

/-- The handles of a region that is not carried over to its end are handed over up to one that the
receiver's table has no room for. -/
theorem CarriesAll.stopsAt {command : CommandBuffer} {size index : Nat} {items : List RegionItem}
    (bound : size ≤ 64) (tiles : RegionItem.Tiles command size index items)
    (ahead : ∀ a b, index ≤ a → buffer.range a b = command.range a b)
    (carries : route.CarriesAll buffer ledger items w (.error last) w') :
    ∃ handings moving handle rest held,
      survey (command.range index size)
        = .ok (handings.map Handing.sent ++ (moving, handle) :: rest) ∧
      route.StopsAt ledger handings moving handle w held last w' := by
  induction tiles generalizing buffer ledger w with
  | nil => cases carries
  | @cons index descriptor later begun decoded fits others ih =>
    have further := RegionItem.succ_le_stop index descriptor
    have inside := Nat.le_trans fits bound
    rw [command.range_eq_cons_append begun further fits bound,
      survey_cons decoded (RegionItem.length_payload inside)]
    cases carries with
    | @cons _ next _ _ _ _ _ held _ _ first others =>
      obtain ⟨carried, outside⟩ := first.carriesPayload inside
      dsimp only at carried outside
      rw [ahead _ _ (Nat.le_succ index)] at carried
      obtain ⟨handings, sent, -, each⟩ := carried.handsEach
      obtain ⟨more, moving, handle, rest, held, sents, before, full⟩ := ih (fun a b h => by
        rw [outside a b (.inr h), ahead a b (by omega)]) others
      refine ⟨handings ++ more, moving, handle, rest, held, ?_, each.append before, full⟩
      rw [sents, sent, List.map_append, List.append_assoc]
      rfl
    | full first =>
      cases first with
      | @full moving _ _ announced handed =>
        dsimp only at announced handed
        rw [ahead _ _ (Nat.le_succ index)] at handed
        obtain ⟨handings, handle, rest, held, sent, stops⟩ := handed.stopsAt
        refine ⟨handings, moving, handle, rest ++ later.flatMap (RegionItem.handles command), held, ?_,
          stops⟩
        simp only [others.survey bound, Descriptor.handles, announced, sent, Except.map,
          List.append_assoc, List.cons_append]

end Route

end MicrokernelIpc
