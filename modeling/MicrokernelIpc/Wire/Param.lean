import MicrokernelIpc.Fault

/-!
# Plain parameters

The normal region holds plain values in whole words. Narrow values take one word, extended
by zeros or by their sign; values of 64 bits take two words, the low one first. Reading
keeps the low bits, so what was written is read back, and any word can be read as any kind.
-/

namespace MicrokernelIpc

/-- The kinds of plain values. -/
inductive ParamKind
  | uint8 | uint16 | uint32 | uint64 | int8 | int16 | int32 | int64 | bool | float32 | result
  deriving DecidableEq, Repr

/-- A plain value. A single-precision number is kept as its bits. -/
inductive Param
  | uint8 (value : UInt8)
  | uint16 (value : UInt16)
  | uint32 (value : UInt32)
  | uint64 (value : UInt64)
  | int8 (value : Int8)
  | int16 (value : Int16)
  | int32 (value : Int32)
  | int64 (value : Int64)
  | bool (value : Bool)
  | float32 (bits : UInt32)
  | result (code : ResultCode)
  deriving DecidableEq

/-- How many words a value of a kind takes. -/
def ParamKind.size : ParamKind → Nat
  | .uint64 => 2
  | .int64 => 2
  | _ => 1

/-- The word at an index of a row of words. -/
def wordAt (words : List UInt32) (index : Nat) : Except Fault UInt32 :=
  match words[index]? with
  | some word => .ok word
  | none => .error (.indexOutOfBounds words.length index)

namespace Param

/-- The kind of a value. -/
def kind : Param → ParamKind
  | .uint8 _ => .uint8
  | .uint16 _ => .uint16
  | .uint32 _ => .uint32
  | .uint64 _ => .uint64
  | .int8 _ => .int8
  | .int16 _ => .int16
  | .int32 _ => .int32
  | .int64 _ => .int64
  | .bool _ => .bool
  | .float32 _ => .float32
  | .result _ => .result

/-- The low and the high word of a value of 64 bits. -/
def splitWords (value : UInt64) : List UInt32 :=
  [UInt32.ofNat (value.toNat % UInt32.size), UInt32.ofNat (value.toNat / UInt32.size)]

/-- The value of 64 bits with the given low and high word. -/
def joinWords (low high : UInt32) : UInt64 := UInt64.ofNat (low.toNat + high.toNat * UInt32.size)

/-- The words that hold a value. -/
def toWords : Param → List UInt32
  | .uint8 value => [value.toUInt32]
  | .uint16 value => [value.toUInt32]
  | .uint32 value => [value]
  | .uint64 value => splitWords value
  | .int8 value => [value.toInt32.toUInt32]
  | .int16 value => [value.toInt32.toUInt32]
  | .int32 value => [value.toUInt32]
  | .int64 value => splitWords value.toUInt64
  | .bool value => [if value then 1 else 0]
  | .float32 bits => [bits]
  | .result code => [code.raw]

/-- Read a value of a kind from the front of a row of words. -/
def ofWords (kind : ParamKind) (words : List UInt32) : Except Fault Param := do
  let first ← wordAt words 0
  match kind with
  | .uint8 => return .uint8 first.toUInt8
  | .uint16 => return .uint16 first.toUInt16
  | .uint32 => return .uint32 first
  | .uint64 => return .uint64 (joinWords first (← wordAt words 1))
  | .int8 => return .int8 first.toInt32.toInt8
  | .int16 => return .int16 first.toInt32.toInt16
  | .int32 => return .int32 first.toInt32
  | .int64 => return .int64 (joinWords first (← wordAt words 1)).toInt64
  | .bool => return .bool (first.toUInt8 != 0)
  | .float32 => return .float32 first
  | .result => return .result ⟨first⟩

theorem toWords_length (param : Param) : param.toWords.length = param.kind.size := by
  cases param <;> rfl

theorem joinWords_split (value : UInt64) :
    joinWords (UInt32.ofNat (value.toNat % UInt32.size)) (UInt32.ofNat (value.toNat / UInt32.size))
      = value := by
  apply UInt64.toNat_inj.1
  have := value.toNat_lt
  simp only [joinWords, UInt64.toNat_ofNat', UInt32.toNat_ofNat', UInt32.size]
  omega

/-- What was written is read back, whatever words follow. -/
theorem ofWords_toWords (param : Param) (rest : List UInt32) :
    ofWords param.kind (param.toWords ++ rest) = .ok param := by
  cases param with
  | bool value => cases value <;> rfl
  | uint64 value => exact congrArg (fun v => Except.ok (Param.uint64 v)) (joinWords_split value)
  | int64 value =>
    exact congrArg (fun v => Except.ok (Param.int64 v.toInt64)) (joinWords_split value.toUInt64)
  | _ => simp [kind, toWords, ofWords, wordAt, bind, Except.bind, pure, Except.pure]

end Param

end MicrokernelIpc
