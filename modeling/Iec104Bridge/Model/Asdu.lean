import Iec104Bridge.Model.Message

/-!
# Information objects and ASDUs (`asdu.rs`)

An `Asdu` holds what the bridge hands to lib60870: the cause, the Common
Address and one information object, with the casts to `i32` the source makes.
lib60870's `create` functions never fail here (they do only without memory).
`Server` is lib60870's server, whose three convenience helpers are not in this
repository: a server is any implementation of them that builds a single point,
a short float or a scaled object from its arguments.
-/

namespace Iec104Bridge

open Framework

/-- `lib60870::types::Quality`. -/
structure Quality where
  bits : UInt8
  deriving DecidableEq

namespace Quality

def GOOD : Quality := ⟨0x00⟩
def OVERFLOW : Quality := ⟨0x01⟩
def BLOCKED : Quality := ⟨0x10⟩
def SUBSTITUTED : Quality := ⟨0x20⟩
def NOT_TOPICAL : Quality := ⟨0x40⟩
def INVALID : Quality := ⟨0x80⟩

/-- `a | b`. -/
def union (a b : Quality) : Quality := ⟨a.bits ||| b.bits⟩

/-- Every bit of `b` is set in `a`. -/
def Contains (a b : Quality) : Prop := a.bits &&& b.bits = b.bits

instance (a b : Quality) : Decidable (a.Contains b) :=
  inferInstanceAs (Decidable (a.bits &&& b.bits = b.bits))

end Quality

inductive CauseOfTransmission
  | periodic
  | background
  | spontaneous
  | returnRemote
  | returnLocal
  | interrogatedByStation
  deriving DecidableEq

/-- A time made by `Timestamp::from_ms`, which is given `ms`. -/
structure Timestamp where
  ms : UInt64
  deriving DecidableEq

def Timestamp.fromMs (ms : UInt64) : Timestamp := ⟨ms⟩

/-- The value of an information object, by the lib60870 type that holds it. -/
inductive IoValue
  | single (value : Bool)
  | double (on : Bool)
  | scaled (value : Int32)
  | short (value : F32)
  | normalized (value : F32)
  deriving DecidableEq

structure InformationObject where
  ioa : Int32
  value : IoValue
  quality : Quality
  /-- The time of the `WithCP56Time2a` variants. -/
  time : Option Timestamp
  deriving DecidableEq

/-- The type ID lib60870 gives the object. -/
def InformationObject.typeId (io : InformationObject) : UInt8 :=
  match io.value, io.time with
  | .single _, none => 1
  | .single _, some _ => 30
  | .double _, none => 3
  | .double _, some _ => 31
  | .normalized _, none => 9
  | .normalized _, some _ => 34
  | .scaled _, none => 11
  | .scaled _, some _ => 35
  | .short _, none => 13
  | .short _, some _ => 36

structure Asdu where
  cot : CauseOfTransmission
  ca : Int32
  object : InformationObject
  deriving DecidableEq

/-! ## Rust's numeric casts -/

/-- `x as i32`, for a `u32`. -/
def u32AsI32 (x : UInt32) : Int32 := x.toInt32

/-- `x as i32`, for a `u16`. -/
def u16AsI32 (x : UInt16) : Int32 := x.toUInt32.toInt32

/-- `x as i16`, for an `f64`: truncate, then saturate. -/
def f64AsI16 (x : ℚ) : Int16 := Int16.ofInt (max (-32768) (min 32767 (truncate x)))

/-- `x as i32`, for an `f64`: truncate, then saturate. -/
def f64AsI32 (x : ℚ) : Int32 := Int32.ofInt (max (-2147483648) (min 2147483647 (truncate x)))

/-- `x.clamp(i16::MIN as f64, i16::MAX as f64)`. -/
def clampI16 (x : F64) : ℚ := if x.val < -32768 then -32768 else if 32767 < x.val then 32767 else x.val

/-! ## Encoding -/

/-- An untimed value in its IEC-104 encoding. -/
inductive UntimedValue
  | single (value : Bool)
  | float (value : F32)
  | scaled (value : Int16)

/-- A pointer to lib60870's server. -/
abbrev ServerPtr := Nat

structure TimedDispatch where
  serverPtr : Option ServerPtr
  cot : CauseOfTransmission
  ca : UInt16
  ioa : UInt32
  value : DataValue
  dataType : DataType
  quality : Quality
  timestamp : Timestamp

def isOn (value : DataValue) : Bool :=
  value = .bool true ||
    match value with
    | .number number => decide (number.val ≠ 0)
    | .bool _ => false

def createInformationObject (ioa : UInt32) (value : DataValue) (dataType : DataType)
    (quality : Quality) (timestamp : Timestamp) : InformationObject :=
  match dataType with
  | .singlePoint => ⟨u32AsI32 ioa, .single (isOn value), quality, some timestamp⟩
  | .doublePoint => ⟨u32AsI32 ioa, .double (if isOn value then true else false), quality, some timestamp⟩
  | .scaled => ⟨u32AsI32 ioa, .scaled (match value with
      | .bool true => 1
      | .bool false => 0
      | .number number => f64AsI32 (clampI16 number)), quality, some timestamp⟩
  | .float => ⟨u32AsI32 ioa, .short (match value with
      | .bool true => .finite 1
      | .bool false => .finite 0
      | .number number => number.asF32), quality, some timestamp⟩
  | .normalized => ⟨u32AsI32 ioa, .normalized (match value with
      | .bool true => .finite 1
      | .bool false => .finite 0
      | .number number => number.asF32), quality, some timestamp⟩

def singleObjectAsdu (cot : CauseOfTransmission) (ca : UInt16) (io : InformationObject) : Asdu :=
  ⟨cot, u16AsI32 ca, io⟩

def timedAsdu (message : TimedDispatch) : Asdu :=
  singleObjectAsdu message.cot message.ca
    (createInformationObject message.ioa message.value message.dataType message.quality
      message.timestamp)

/-- The ASDU `enqueue_timed_asdu` puts in the server's queue, if it does. -/
def enqueueTimedAsdu (message : TimedDispatch) : Option (ServerPtr × Asdu) :=
  match message.serverPtr with
  | none => none
  | some ptr => some (ptr, timedAsdu message)

/-- `send_to_connection`, where `sent` is the answer of
`IMasterConnection_sendASDU`: the ASDU attempted and the result. -/
def sendToConnection (asdu : Asdu) (sent : Bool) : Asdu × Bool := (asdu, sent)

def sendTimedToConnection (message : TimedDispatch) (sent : Bool) : Asdu × Bool :=
  sendToConnection (timedAsdu message) sent

def sendUntimedToConnection (cot : CauseOfTransmission) (ca : UInt16) (ioa : UInt32)
    (value : UntimedValue) (quality : Quality) (sent : Bool) : Asdu × Bool :=
  let io : InformationObject :=
    match value with
    | .single v => ⟨u32AsI32 ioa, .single v, quality, none⟩
    | .float v => ⟨u32AsI32 ioa, .short v, quality, none⟩
    | .scaled v => ⟨u32AsI32 ioa, .scaled v.toInt32, quality, none⟩
  sendToConnection (singleObjectAsdu cot ca io) sent

/-- lib60870's server, by the ASDUs its convenience helpers enqueue. -/
structure Server where
  ptr : ServerPtr
  sendSinglePoint : CauseOfTransmission → UInt16 → UInt32 → Bool → Quality → Asdu
  sendMeasuredFloat : CauseOfTransmission → UInt16 → UInt32 → F32 → Quality → Asdu
  sendMeasuredScaled : CauseOfTransmission → UInt16 → UInt32 → Int16 → Quality → Asdu
  sendSinglePoint_eq (cot : CauseOfTransmission) (ca : UInt16) (ioa : UInt32) (v : Bool) (q : Quality) :
    sendSinglePoint cot ca ioa v q = singleObjectAsdu cot ca ⟨u32AsI32 ioa, .single v, q, none⟩
  sendMeasuredFloat_eq (cot : CauseOfTransmission) (ca : UInt16) (ioa : UInt32) (v : F32) (q : Quality) :
    sendMeasuredFloat cot ca ioa v q = singleObjectAsdu cot ca ⟨u32AsI32 ioa, .short v, q, none⟩
  sendMeasuredScaled_eq (cot : CauseOfTransmission) (ca : UInt16) (ioa : UInt32) (v : Int16) (q : Quality) :
    sendMeasuredScaled cot ca ioa v q =
      singleObjectAsdu cot ca ⟨u32AsI32 ioa, .scaled v.toInt32, q, none⟩

/-- A server whose helpers do just that. -/
def Server.reference : Server where
  ptr := 0
  sendSinglePoint cot ca ioa v q := singleObjectAsdu cot ca ⟨u32AsI32 ioa, .single v, q, none⟩
  sendMeasuredFloat cot ca ioa v q := singleObjectAsdu cot ca ⟨u32AsI32 ioa, .short v, q, none⟩
  sendMeasuredScaled cot ca ioa v q :=
    singleObjectAsdu cot ca ⟨u32AsI32 ioa, .scaled v.toInt32, q, none⟩
  sendSinglePoint_eq _ _ _ _ _ := rfl
  sendMeasuredFloat_eq _ _ _ _ _ := rfl
  sendMeasuredScaled_eq _ _ _ _ _ := rfl

attribute [simp] Server.sendSinglePoint_eq Server.sendMeasuredFloat_eq Server.sendMeasuredScaled_eq

/-! ## The casts keep addresses -/

theorem toInt_u16AsI32 (x : UInt16) : (u16AsI32 x).toInt = x.toNat := by
  have h := x.toNat_lt
  rw [u16AsI32, ← Int32.toInt_toBitVec, UInt32.toBitVec_toInt32, BitVec.toInt_eq_toNat_bmod,
    UInt32.toNat_toBitVec, UInt16.toNat_toUInt32, Int.bmod]
  split <;> omega

theorem toInt_u32AsI32 {x : UInt32} (h : x.toNat < 2147483648) : (u32AsI32 x).toInt = x.toNat := by
  rw [u32AsI32, ← Int32.toInt_toBitVec, UInt32.toBitVec_toInt32, BitVec.toInt_eq_toNat_bmod,
    UInt32.toNat_toBitVec, Int.bmod]
  split <;> omega

theorem u16AsI32_inj {x y : UInt16} (h : u16AsI32 x = u16AsI32 y) : x = y := by
  have := congrArg Int32.toInt h
  rw [toInt_u16AsI32, toInt_u16AsI32] at this
  exact UInt16.toNat_inj.mp (by omega)

theorem u32AsI32_inj {x y : UInt32} (h : u32AsI32 x = u32AsI32 y) : x = y := by
  have := congrArg Int32.toUInt32 h
  simpa [u32AsI32] using this

end Iec104Bridge
