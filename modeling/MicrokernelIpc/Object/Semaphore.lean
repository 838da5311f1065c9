import MicrokernelIpc.ResultCode

/-!
# Semaphores

A semaphore counts free slots between zero and a maximum. Slots are released in any number
as long as the maximum is not passed, and taken one at a time.
-/

namespace MicrokernelIpc

/-- Why a semaphore refused a count. -/
inductive SemaphoreError
  /-- The count would pass the maximum. -/
  | exceedsMaximum (count maxCount : UInt32)
  deriving DecidableEq, Repr

namespace SemaphoreError

/-- The complaint about a count. -/
def message : SemaphoreError → String
  | .exceedsMaximum count maxCount =>
    "Semaphore count " ++ toString count.toNat ++ " exceeds maximum " ++ toString maxCount.toNat

/-- The code that the guest sees. -/
def code (_ : SemaphoreError) : ResultCode := ResultCode.outOfRange

end SemaphoreError

/-- A counting semaphore: its name, its free slots and their maximum. -/
structure Semaphore where
  name : String
  available : UInt32
  maxCount : UInt32
  deriving DecidableEq

namespace Semaphore

/-- The sum of two counts, held at the largest word. -/
def saturatingAdd (a b : UInt32) : UInt32 :=
  if a.toNat + b.toNat < UInt32.size then a + b else 0xFFFFFFFF

theorem toNat_saturatingAdd (a b : UInt32) :
    (saturatingAdd a b).toNat = min (a.toNat + b.toNat) (UInt32.size - 1) := by
  unfold saturatingAdd UInt32.size
  split
  · rw [UInt32.toNat_add]
    omega
  · have : (0xFFFFFFFF : UInt32).toNat = 4294967296 - 1 := rfl
    omega

/-- A semaphore with some slots free, at most the maximum. -/
def make (name : String) (initial maxCount : UInt32) : Except SemaphoreError Semaphore :=
  if maxCount < initial then .error (.exceedsMaximum initial maxCount)
  else .ok ⟨name, initial, maxCount⟩

/-- Free `count` slots. Gives the number that was free before. -/
def release (semaphore : Semaphore) (count : UInt32) :
    Except SemaphoreError (UInt32 × Semaphore) :=
  let next := saturatingAdd semaphore.available count
  if semaphore.maxCount < next then .error (.exceedsMaximum next semaphore.maxCount)
  else .ok (semaphore.available, { semaphore with available := next })

/-- Take one slot, if one is free. -/
def acquire (semaphore : Semaphore) : Bool × Semaphore :=
  if semaphore.available = 0 then (false, semaphore)
  else (true, { semaphore with available := semaphore.available - 1 })

end Semaphore

end MicrokernelIpc
