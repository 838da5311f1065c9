/-!
# Events

An event is signaled or not. What becomes of the signal when a waiter takes it is the
event's reset type: a one-shot event is cleared, a sticky event stays signaled, and a pulse
event never keeps a signal at all, since nobody is waiting at this layer.
-/

namespace MicrokernelIpc

/-- What becomes of an event's signal. -/
inductive ResetType
  | oneShot | sticky | pulse
  deriving DecidableEq, Repr

/-- An event: its name, its reset type and whether it is signaled. -/
structure EventObject where
  name : String
  reset : ResetType
  signaled : Bool
  deriving DecidableEq

namespace EventObject

/-- A new event is not signaled. -/
def new (name : String) (reset : ResetType) : EventObject := ⟨name, reset, false⟩

/-- Signal the event, unless it is a pulse event. -/
def signal (event : EventObject) : EventObject :=
  { event with signaled := event.signaled || event.reset != .pulse }

/-- Take the signal back. -/
def clear (event : EventObject) : EventObject := { event with signaled := false }

/-- Take the signal for a waiter, if there is one. A one-shot event loses it. -/
def acquire (event : EventObject) : Bool × EventObject :=
  (event.signaled, { event with signaled := event.signaled && event.reset != .oneShot })

end EventObject

end MicrokernelIpc
