import Iec104Bridge.Framework.Binary

/-!
# The message schema

`Iec104Message` and the enumerations of `message.rs`, with the numbers and
times they hold. A JSON number is a finite `f64`, modelled as the rational it
stands for (the sign of a zero is not kept); a time is its instant in
nanoseconds and the UTC offset it was written with.
-/

namespace Iec104Bridge

open Framework

/-- A finite `f64`. -/
structure F64 where
  val : ℚ
  isBinary : IsBinary 53 (-1074) 971 val
  deriving DecidableEq

/-- An `f32`, which is never a NaN here. -/
inductive F32
  | finite (val : ℚ)
  | infinite (negative : Bool)
  deriving DecidableEq

/-- `value as f32`: round to nearest, infinite from `2 ^ 128` on. -/
def F64.asF32 (v : F64) : F32 :=
  let q := roundBinary 24 (-149) v.val
  if 2 ^ 128 ≤ |q| then .infinite (decide (q < 0)) else .finite q

/-- `time::OffsetDateTime`: the instant and the offset, in seconds. -/
structure OffsetDateTime where
  unixTimestampNanos : Int
  offset : Int
  deriving DecidableEq

/-- `a - b`, in nanoseconds. -/
def OffsetDateTime.sub (a b : OffsetDateTime) : Int := a.unixTimestampNanos - b.unixTimestampNanos

/-- `std::time::Duration`. -/
structure Duration where
  asNanos : Nat
  deriving DecidableEq

def Duration.fromSecs (secs : UInt64) : Duration := ⟨secs.toNat * 1000000000⟩

inductive DataValue
  | bool (value : Bool)
  | number (value : F64)
  deriving DecidableEq

inductive DataType
  | float
  | scaled
  | normalized
  | singlePoint
  | doublePoint
  deriving DecidableEq

inductive QualityField
  | good
  | invalid
  | notTopical
  | substituted
  | blocked
  | overflow
  deriving DecidableEq

inductive CotField
  | spontaneous
  | periodic
  | backgroundScan
  | interrogated
  | returnInfoRemote
  | returnInfoLocal
  deriving DecidableEq

structure Iec104Message where
  ioa : UInt32
  value : DataValue
  dataType : Option DataType := none
  ca : Option UInt16 := none
  quality : QualityField := .good
  cot : CotField := .spontaneous
  timestamp : Option OffsetDateTime := none
  deriving DecidableEq

end Iec104Bridge
