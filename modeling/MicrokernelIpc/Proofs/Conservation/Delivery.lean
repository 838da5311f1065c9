import MicrokernelIpc.Delivery.Request
import MicrokernelIpc.Proofs.Conservation.Kernel
import MicrokernelIpc.Proofs.Delivery.Stages

/-!
# Deliveries keep worlds sound

While a command is taken up references are only added, so that nothing but the number of
references to one object can go wrong, and every handle that is handed over names an object
that is there. Settling the carriage only closes handles.
-/

namespace MicrokernelIpc

open World

variable {strict : Prop} {past w w' : World} {inserted : Nat} {held : Multiset ObjectRef}

/-- What a handle names at the sender has a reference there. -/
theorem Route.count_pos_of_find? {route : Route} {source : Key Thread} {handle : Handle}
    {object : ObjectRef} (sender : w.threads.get? source = some route.sender)
    (found : route.find? w handle = some object) : 0 < w.count object := by
  unfold find? at found
  split at found
  · exact Option.some.inj found ▸ World.count_pos_of_thread sender
  · obtain ⟨process, there, rfl⟩ := Option.map_eq_some_iff.1 found
    exact World.count_pos_of_process there
  · split at found
    · obtain ⟨table, there, resolved⟩ := Option.bind_eq_some_iff.1 found
      exact World.count_pos_of_resolve there resolved
    · cases found

/-! ## Taking a command up -/

/-- What holds before each handle that is handed over. -/
def Steady (strict : Prop) (past : World) (inserted : Nat) (held : Multiset ObjectRef)
    (source : Key Thread) (route : Route) (_ : Ledger) (w : World) : Prop :=
  Sound strict past inserted held w ∧ w.threads.get? source = some route.sender

theorem Steady.kept {source : Key Thread} (route : Route) :
    route.Kept (Steady strict past inserted held source route) := by
  rintro moving ledger w handle word entered next ⟨sound, sender⟩ hands
  cases hands with
  | unresolved => exact ⟨sound, sender⟩
  | issued named retained found allocated =>
    have found := (World.table?_of_retain? retained).trans found
    refine ⟨(sound.retain retained).allocate found allocated, ?_⟩
    rwa [World.threads_setTable, World.threads_of_retain? retained]

theorem Steady.safe {source : Key Thread} {route : Route} {ledger : Ledger}
    (steady : Steady strict past inserted held source route ledger w) :
    route.Safe w (Excused strict) where
  sender _ := excused_discarded
  receiver _ := excused_discarded
  objects handle object found := by
    have := Route.count_pos_of_find? steady.2 found
    exact steady.1.excused (by rw [World.references]; omega)

theorem sound_pickUp {source target : Key Thread} {address : UInt32}
    (sound : Sound strict past inserted held w) :
    Leads w (pickUp source target address).run (PicksUp source target address w)
      (Excused strict) :=
  leads_pickUp (Steady strict past inserted held source) (fun _ => excused_discarded)
    (fun _ => excused_discarded) Steady.kept (fun _ _ _ => Steady.safe)
    fun _ sender _ => ⟨sound, sender⟩

/-- The reference that the receiver's table had no room for is let go again, before any count
that is reached in the end was passed. -/
theorem PicksUp.sound {source target : Key Thread} {address : UInt32}
    {outcome : Except DeliveryError Carriage}
    (picks : PicksUp source target address w outcome w')
    (sound : Sound strict past inserted held w) (limit : strict → Within held w') :
    Sound strict past inserted held w' := by
  cases picks with
  | refused => exact sound
  | carried sender receiver owner fetched tiles carries =>
    exact (carries.kept (Steady.kept _) ⟨sound, sender⟩).1
  | full sender receiver owner fetched tiles carries =>
    obtain ⟨moving, handle, mid, steady, hands⟩ :=
      carries.stopped (Steady.kept _) ⟨sound, sender⟩
    cases hands with
    | @full object _ _ _ named retained found refused released =>
      apply (steady.1.retain retained).release released
      intro h
      have := limit h object
      rwa [World.references, World.count_of_release? released] at this

/-! ## Settling a carriage -/

theorem World.ClosesAll.sound {key : TableKey} {handles : List Handle}
    (closes : ClosesAll key handles w w') (sound : Sound strict past inserted held w)
    (limit : strict → Within held w) :
    Sound strict past inserted held w' ∧ (strict → Within held w') := by
  induction closes with
  | nil => exact ⟨sound, limit⟩
  | cons first after ih =>
    obtain ⟨sound, limit⟩ := first.sound sound limit
    exact ih sound limit

theorem World.Writes.sound {key : Key Process} {address : UInt32} {words : List UInt32}
    {outcome : Except MemoryError Unit} (writes : w.Writes key address words outcome w')
    (sound : Sound strict past inserted held w) (limit : strict → Within held w) :
    Sound strict past inserted held w' ∧ (strict → Within held w') := by
  cases writes with
  | refused => exact ⟨sound, limit⟩
  | written found checked =>
    exact ⟨sound.setMemory found _, fun h => (limit h).of_eq (references_setProcess found rfl)⟩

theorem Carriage.Settles.sound {carriage : Carriage} {address : UInt32}
    {outcome : Except DeliveryError Unit} (settles : carriage.Settles address w outcome w')
    (sound : Sound strict past inserted held w) (limit : strict → Within held w) :
    Sound strict past inserted held w' ∧ (strict → Within held w') := by
  cases settles with
  | full unfinished rolled => exact rolled.sound sound limit
  | unwritten finished refused rolled =>
    obtain ⟨sound, limit⟩ := refused.sound sound limit
    exact rolled.sound sound limit
  | delivered finished wrote committed =>
    obtain ⟨sound, limit⟩ := wrote.sound sound limit
    exact committed.sound sound limit

theorem excused_settle {carriage : Carriage} {address : UInt32} :
    Leads w (carriage.settle address).run (carriage.Settles address w) (Excused strict) := by
  refine leads_settle (fun _ => True) (fun _ => excused_discarded) (fun key _ handle w _ => ?_)
    (fun _ _ _ _ _ _ _ => trivial) (fun _ _ _ _ _ => trivial) trivial
  exact leads_closeHandle (fun _ => excused_discarded) fun _ _ _ _ _ => excused_discarded

/-- A delivery passes through the world in which its command was taken up. -/
theorem sound_deliver {source target : Key Thread} {sourceAddress targetAddress : UInt32}
    (sound : Sound strict past inserted held w)
    (moment : strict → ∀ carriage next,
      Reaches w (pickUp source target sourceAddress).run (.ok carriage) next → Within held next) :
    Leads w (deliver source target sourceAddress targetAddress).run
      (fun _ next => Sound strict past inserted held next) (Excused strict) := by
  refine (sound_pickUp sound).reaches.bindRun (fun carriage next picked => ?_)
    fun error next picked => ?_
  · obtain ⟨picks, reaches⟩ := picked
    have within := fun h => moment h carriage next reaches
    exact excused_settle.mono (fun _ _ settles => (settles.sound (picks.sound sound within) within).1)
      fun _ h => h
  · obtain ⟨picks, reaches⟩ := picked
    cases picks with
    | refused => exact sound

/-! ## Requests -/

theorem sound_deliverBetween {source target : Key Thread}
    (sound : Sound strict past inserted held w)
    (moment : strict → ∀ sender carriage next, w.threads.get? source = some sender →
      Reaches w (pickUp source target sender.commandBufferAddress).run (.ok carriage) next →
        Within held next) :
    Leads w (deliverBetween source target).run
      (fun _ next => Sound strict past inserted held next) (Excused strict) :=
  leads_deliverBetween_of (fun _ => excused_discarded) (fun _ => excused_discarded)
    fun route found _ => sound_deliver sound fun h carriage next =>
      moment h route.sender carriage next found

theorem sound_openRequest {client server : Key Thread}
    (sound : Sound strict past inserted held w)
    (moment : strict → ∀ sender carriage next, w.threads.get? client = some sender →
      Reaches w (pickUp client server sender.commandBufferAddress).run (.ok carriage) next →
        Within held next) :
    Leads w (openRequest client server).run
      (fun _ next => Sound strict past inserted held next) (Excused strict) :=
  leads_openRequest_of excused_discarded (sound_deliverBetween sound moment)

theorem sound_closeRequest {client server : Key Thread} {reply : CommandBuffer}
    (sound : Sound strict past inserted held w) (limit : strict → Within held w)
    (moment : strict → ∀ stored sender carriage next,
      Reaches w (storeCommandBuffer server reply).run (.ok ()) stored →
      stored.threads.get? server = some sender →
      Reaches stored (pickUp server client sender.commandBufferAddress).run (.ok carriage) next →
        Within held next) :
    Leads w (closeRequest client server reply).run
      (fun _ next => Sound strict past inserted held next) (Excused strict) :=
  leads_closeRequest_of excused_discarded sound fun stored _ reaches writes =>
    sound_deliverBetween (writes.sound sound limit).1 fun h sender carriage next found =>
      moment h stored sender carriage next reaches found

end MicrokernelIpc
