import Iec104Bridge.Model.Asdu
import Mathlib.Data.Fin.VecNotation

/-!
# From messages to sinks (`bridge.rs`)

`prepareForOutput` applies the output policy and `dispatchOutgoing` calls one
method of a sink. A `DataSink` gives the result of each method, so that the
code is written once for both sinks, as in the source: `liveSink` hands an
ASDU to the server, and `ConnectionSink.sink` attempts one on a master
connection and counts the refusals.
-/

namespace Iec104Bridge

open Framework

structure DataSink (ρ : Type) where
  sendSinglePoint : CauseOfTransmission → UInt16 → UInt32 → Bool → Quality → ρ
  sendMeasuredFloat : CauseOfTransmission → UInt16 → UInt32 → F32 → Quality → ρ
  sendMeasuredScaled : CauseOfTransmission → UInt16 → UInt32 → Int16 → Quality → ρ
  enqueueTimed : TimedDispatch → ρ

/-- `LiveSink`: the ASDU handed to the server, if any. -/
def liveSink (server : Server) : DataSink (Option Asdu) where
  sendSinglePoint cot ca ioa value quality := some (server.sendSinglePoint cot ca ioa value quality)
  sendMeasuredFloat cot ca ioa value quality := some (server.sendMeasuredFloat cot ca ioa value quality)
  sendMeasuredScaled cot ca ioa value quality := some (server.sendMeasuredScaled cot ca ioa value quality)
  enqueueTimed message :=
    (enqueueTimedAsdu { message with serverPtr := some server.ptr }).map Prod.snd

structure ConnectionSink where
  failed : Nat
  deriving DecidableEq

namespace ConnectionSink

def new : ConnectionSink := ⟨0⟩

/-- A send on the connection, from whether its queue takes the ASDU: the ASDU
attempted and the sink afterwards. -/
abbrev Send := Bool → ConnectionSink → Asdu × ConnectionSink

/-- `if !sent { self.failed.set(self.failed.get() + 1) }`. -/
def count (r : Asdu × Bool) (sink : ConnectionSink) : Asdu × ConnectionSink :=
  (r.1, if !r.2 then ⟨sink.failed + 1⟩ else sink)

def sendUntimed (cot : CauseOfTransmission) (ca : UInt16) (ioa : UInt32) (value : UntimedValue)
    (quality : Quality) : Send :=
  fun sent => count (sendUntimedToConnection cot ca ioa value quality sent)

def sink : DataSink Send where
  sendSinglePoint cot ca ioa value quality := sendUntimed cot ca ioa (.single value) quality
  sendMeasuredFloat cot ca ioa value quality := sendUntimed cot ca ioa (.float value) quality
  sendMeasuredScaled cot ca ioa value quality := sendUntimed cot ca ioa (.scaled value) quality
  enqueueTimed message sent := count (sendTimedToConnection message sent)

end ConnectionSink

/-! ## Mappings -/

/-- `q as usize`. -/
def QualityField.index : QualityField → Fin 6
  | .good => 0
  | .invalid => 1
  | .notTopical => 2
  | .substituted => 3
  | .blocked => 4
  | .overflow => 5

/-- `cot as usize`. -/
def CotField.index : CotField → Fin 6
  | .spontaneous => 0
  | .periodic => 1
  | .backgroundScan => 2
  | .interrogated => 3
  | .returnInfoRemote => 4
  | .returnInfoLocal => 5

def qualityMap : Fin 6 → Quality :=
  ![.GOOD, .INVALID, .NOT_TOPICAL, .SUBSTITUTED, .BLOCKED, .OVERFLOW]

def cotMap : Fin 6 → CauseOfTransmission :=
  ![.spontaneous, .periodic, .background, .interrogatedByStation, .returnRemote, .returnLocal]

def mapQuality (q : QualityField) : Quality := qualityMap q.index

def mapCot (cot : CotField) : CauseOfTransmission := cotMap cot.index

def isScaledNumber (value : F64) : Bool :=
  fractional value.val = 0 && -32768 ≤ value.val && value.val ≤ 32767

def inferType (value : DataValue) : DataType :=
  match value with
  | .bool _ => .singlePoint
  | .number n => if isScaledNumber n then .scaled else .float

/-! ## The output policy -/

structure OutputPolicy where
  sendTimestamps : Bool := true
  maxAge : Option Duration := none

structure Outgoing where
  message : Iec104Message
  notTopical : Bool

/-- `now - t > max_age`. -/
def olderThanLimit (now : OffsetDateTime) (maxAge : Duration) (t : OffsetDateTime) : Bool :=
  (maxAge.asNanos : Int) < now.sub t

def prepareForOutput (msg : Iec104Message) (receivedAt now : OffsetDateTime) (policy : OutputPolicy) :
    Outgoing :=
  let notTopical := policy.maxAge.any fun maxAge =>
    let stale := olderThanLimit now maxAge receivedAt || msg.timestamp.any (olderThanLimit now maxAge)
    stale && msg.quality ≠ .invalid
  { message := if ¬ policy.sendTimestamps then { msg with timestamp := none } else msg
    notTopical }

/-! ## Dispatch -/

structure DispatchContext where
  ca : UInt16
  ioa : UInt32
  quality : Quality
  cot : CauseOfTransmission
  dataType : DataType
  timestamp : Option Timestamp

def offsetDatetimeToCp56Timestamp (timestamp : OffsetDateTime) : Timestamp :=
  Timestamp.fromMs (UInt64.ofInt timestamp.unixTimestampNanos / 1000000)

def DispatchContext.fromMessage (msg : Iec104Message) (defaultCa : UInt16) : DispatchContext where
  ca := msg.ca.getD defaultCa
  ioa := msg.ioa
  quality := mapQuality msg.quality
  cot := mapCot msg.cot
  dataType := msg.dataType.getD (inferType msg.value)
  timestamp := msg.timestamp.map offsetDatetimeToCp56Timestamp

def asSinglePointValue (value : DataValue) : Bool :=
  match value with
  | .bool value => value
  | .number value => value.val ≠ 0

def asFloatValue (value : DataValue) : F32 :=
  match value with
  | .bool value => if value then .finite 1 else .finite 0
  | .number value => value.asF32

def asScaledValue (value : DataValue) : Int16 :=
  match value with
  | .bool value => if value then 1 else 0
  | .number value => f64AsI16 (clampI16 value)

section

variable {ρ : Type} (sink : DataSink ρ)

def dispatchSinglePoint (context : DispatchContext) (value : DataValue) : ρ :=
  match context.timestamp with
  | some timestamp =>
    sink.enqueueTimed
      { serverPtr := none, cot := context.cot, ca := context.ca, ioa := context.ioa, value,
        dataType := .singlePoint, quality := context.quality, timestamp }
  | none =>
    sink.sendSinglePoint context.cot context.ca context.ioa (asSinglePointValue value) context.quality

def dispatchFloatLike (context : DispatchContext) (value : DataValue) : ρ :=
  match context.timestamp with
  | some timestamp =>
    sink.enqueueTimed
      { serverPtr := none, cot := context.cot, ca := context.ca, ioa := context.ioa, value,
        dataType := context.dataType, quality := context.quality, timestamp }
  | none =>
    sink.sendMeasuredFloat context.cot context.ca context.ioa (asFloatValue value) context.quality

def dispatchScaled (context : DispatchContext) (value : DataValue) : ρ :=
  match context.timestamp with
  | some timestamp =>
    sink.enqueueTimed
      { serverPtr := none, cot := context.cot, ca := context.ca, ioa := context.ioa, value,
        dataType := .scaled, quality := context.quality, timestamp }
  | none =>
    sink.sendMeasuredScaled context.cot context.ca context.ioa (asScaledValue value) context.quality

def dispatchDoublePoint (context : DispatchContext) (value : DataValue) : ρ :=
  dispatchSinglePoint sink context value

def dispatchContext (context : DispatchContext) (value : DataValue) : ρ :=
  match context.dataType with
  | .singlePoint => dispatchSinglePoint sink context value
  | .float | .normalized => dispatchFloatLike sink context value
  | .scaled => dispatchScaled sink context value
  | .doublePoint => dispatchDoublePoint sink context value

def dispatchOutgoing (out : Outgoing) (defaultCa : UInt16) : ρ :=
  let context := DispatchContext.fromMessage out.message defaultCa
  let context :=
    if out.notTopical then { context with quality := context.quality.union .NOT_TOPICAL } else context
  dispatchContext sink context out.message.value

end

end Iec104Bridge
