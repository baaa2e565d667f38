import Iec104Bridge.Model.Bridge
import Mathlib.Tactic.Linarith

/-!
# The frame of a point

`pointFrame` says what a message looks like on the wire: its address, its
cause, its value in the encoding of its type (`encode`), its quality with NT
when it is stale (`Stale`), and its source time if the policy sends it. Both
sinks send exactly this (`dispatch_live`, `dispatch_connection`), although
they encode values in different functions (`createInformationObject_eq`).
-/

namespace Iec104Bridge

open Framework

/-- The type a message is sent as. -/
def Iec104Message.effectiveType (msg : Iec104Message) : DataType :=
  msg.dataType.getD (inferType msg.value)

/-- A value in the encoding of a type, in its timed or its untimed variant. -/
def encode (timed : Bool) (dataType : DataType) (value : DataValue) : IoValue :=
  match dataType with
  | .singlePoint | .doublePoint => .single (asSinglePointValue value)
  | .scaled => .scaled (asScaledValue value).toInt32
  | .float => .short (asFloatValue value)
  | .normalized => if timed then .normalized (asFloatValue value) else .short (asFloatValue value)

/-- Double points are sent as single points. -/
theorem encode_doublePoint (timed : Bool) (value : DataValue) :
    encode timed .doublePoint value = encode timed .singlePoint value := rfl

/-- The source time a message is sent with. -/
def wireTime (sendTimestamps : Bool) (msg : Iec104Message) : Option Timestamp :=
  if sendTimestamps then msg.timestamp.map offsetDatetimeToCp56Timestamp else none

/-- The value a message is sent with. -/
def wireValue (sendTimestamps : Bool) (msg : Iec104Message) : IoValue :=
  encode (wireTime sendTimestamps msg).isSome msg.effectiveType msg.value

/-- NT is added to a message received at `receivedAt` when it is sent at `now`. -/
def Stale (maxAge : Option Duration) (msg : Iec104Message) (receivedAt now : OffsetDateTime) : Prop :=
  ∃ a, maxAge = some a ∧ msg.quality ≠ .invalid ∧
    ((a.asNanos : Int) < now.sub receivedAt ∨
      ∃ t, msg.timestamp = some t ∧ (a.asNanos : Int) < now.sub t)

/-- Whether `prepare_for_output` adds NT. -/
def staleBit (maxAge : Option Duration) (msg : Iec104Message) (receivedAt now : OffsetDateTime) : Bool :=
  maxAge.any fun a =>
    (olderThanLimit now a receivedAt || msg.timestamp.any (olderThanLimit now a)) &&
      msg.quality ≠ .invalid

theorem staleBit_iff {maxAge : Option Duration} {msg : Iec104Message}
    {receivedAt now : OffsetDateTime} :
    staleBit maxAge msg receivedAt now = true ↔ Stale maxAge msg receivedAt now := by
  cases maxAge with
  | none => simp [staleBit, Stale]
  | some a =>
    cases ht : msg.timestamp with
    | none => simp [staleBit, Stale, olderThanLimit, ht, and_comm]
    | some t => simp [staleBit, Stale, olderThanLimit, ht, and_comm]

instance {maxAge : Option Duration} {msg : Iec104Message} {receivedAt now : OffsetDateTime} :
    Decidable (Stale maxAge msg receivedAt now) :=
  decidable_of_iff _ staleBit_iff

/-- The quality a message is sent with. -/
def wireQuality (maxAge : Option Duration) (msg : Iec104Message) (receivedAt now : OffsetDateTime) :
    Quality :=
  if Stale maxAge msg receivedAt now then (mapQuality msg.quality).union .NOT_TOPICAL
  else mapQuality msg.quality

/-- The frame of a message received at `receivedAt` and sent at `now`. -/
def pointFrame (policy : OutputPolicy) (defaultCa : UInt16) (msg : Iec104Message)
    (receivedAt now : OffsetDateTime) : Asdu where
  cot := mapCot msg.cot
  ca := u16AsI32 (msg.ca.getD defaultCa)
  object :=
    { ioa := u32AsI32 msg.ioa
      value := wireValue policy.sendTimestamps msg
      quality := wireQuality policy.maxAge msg receivedAt now
      time := wireTime policy.sendTimestamps msg }

/-! ## The two encoders -/

theorem isOn_eq (value : DataValue) : isOn value = asSinglePointValue value := by
  cases value with
  | bool b => cases b <;> rfl
  | number n => simp [isOn, asSinglePointValue]

theorem clampI16_range (x : F64) : -32768 ≤ clampI16 x ∧ clampI16 x ≤ 32767 := by
  simp only [clampI16]
  split
  · norm_num
  · split
    · norm_num
    · exact ⟨by linarith, by linarith⟩

theorem truncate_clampI16 (x : F64) :
    -32768 ≤ truncate (clampI16 x) ∧ truncate (clampI16 x) ≤ 32767 := by
  obtain ⟨h₁, h₂⟩ := clampI16_range x
  exact ⟨le_truncate (by exact_mod_cast h₁), truncate_le (by exact_mod_cast h₂)⟩

/-- After the clamp the conversion to `i16` neither saturates nor wraps. -/
theorem toInt_f64AsI16_clamp (x : F64) : (f64AsI16 (clampI16 x)).toInt = truncate (clampI16 x) := by
  obtain ⟨h₁, h₂⟩ := truncate_clampI16 x
  rw [f64AsI16, Int16.toInt_ofInt]
  generalize truncate (clampI16 x) = n at h₁ h₂ ⊢
  rw [min_eq_right h₂, max_eq_right h₁]
  exact Int.bmod_eq_of_le (by simp only [Int16.size]; omega) (by simp only [Int16.size]; omega)

/-- The two widths of the scaled conversion agree after the clamp. -/
theorem f64AsI32_clamp (x : F64) : f64AsI32 (clampI16 x) = (f64AsI16 (clampI16 x)).toInt32 := by
  obtain ⟨h₁, h₂⟩ := truncate_clampI16 x
  rw [← Int32.toInt_inj, Int16.toInt_toInt32, toInt_f64AsI16_clamp, f64AsI32, Int32.toInt_ofInt]
  generalize truncate (clampI16 x) = n at h₁ h₂ ⊢
  rw [min_eq_right (show n ≤ 2147483647 by omega), max_eq_right (show -2147483648 ≤ n by omega)]
  exact Int.bmod_eq_of_le (by simp only [Int32.size]; omega) (by simp only [Int32.size]; omega)

/-- `create_information_object` encodes every type but `DoublePoint`, with
which the dispatch never calls it. -/
theorem createInformationObject_eq {dataType : DataType} (h : dataType ≠ .doublePoint) (ioa : UInt32)
    (value : DataValue) (quality : Quality) (timestamp : Timestamp) :
    createInformationObject ioa value dataType quality timestamp =
      ⟨u32AsI32 ioa, encode true dataType value, quality, some timestamp⟩ := by
  cases dataType with
  | singlePoint => simp only [createInformationObject, encode, isOn_eq]
  | doublePoint => exact absurd rfl h
  | scaled =>
    rcases value with (_ | _) | n
    · rfl
    · rfl
    · simp only [createInformationObject, encode, asScaledValue, f64AsI32_clamp]
  | float => rcases value with (_ | _) | n <;> rfl
  | normalized => rcases value with (_ | _) | n <;> rfl

/-! ## Both sinks -/

/-- What `dispatch_context` sends: one ASDU, timed if the context has a time. -/
def contextFrame (context : DispatchContext) (value : DataValue) : Asdu :=
  singleObjectAsdu context.cot context.ca
    { ioa := u32AsI32 context.ioa
      value := encode context.timestamp.isSome context.dataType value
      quality := context.quality
      time := context.timestamp }

/-- A sink whose methods send single points, short floats, scaled values and
the objects of `create_information_object` sends the frame of the context. -/
theorem dispatchContext_eq {ρ : Type} {sink : DataSink ρ} (send : Asdu → ρ)
    (hs : ∀ cot ca ioa v q, sink.sendSinglePoint cot ca ioa v q =
      send (singleObjectAsdu cot ca ⟨u32AsI32 ioa, .single v, q, none⟩))
    (hf : ∀ cot ca ioa v q, sink.sendMeasuredFloat cot ca ioa v q =
      send (singleObjectAsdu cot ca ⟨u32AsI32 ioa, .short v, q, none⟩))
    (hi : ∀ cot ca ioa v q, sink.sendMeasuredScaled cot ca ioa v q =
      send (singleObjectAsdu cot ca ⟨u32AsI32 ioa, .scaled v.toInt32, q, none⟩))
    (ht : ∀ message, sink.enqueueTimed message = send (timedAsdu message))
    (context : DispatchContext) (value : DataValue) :
    dispatchContext sink context value = send (contextFrame context value) := by
  obtain ⟨ca, ioa, quality, cot, dataType, timestamp⟩ := context
  cases timestamp with
  | none =>
    cases dataType <;>
      simp only [dispatchContext, dispatchSinglePoint, dispatchFloatLike, dispatchScaled,
        dispatchDoublePoint, hs, hf, hi, contextFrame, encode, Option.isSome_none, Bool.false_eq_true,
        if_false]
  | some t =>
    cases dataType <;>
      simp only [dispatchContext, dispatchSinglePoint, dispatchFloatLike, dispatchScaled,
        dispatchDoublePoint, ht, timedAsdu, contextFrame, Option.isSome_some, encode_doublePoint,
        createInformationObject_eq (show DataType.singlePoint ≠ .doublePoint by decide),
        createInformationObject_eq (show DataType.float ≠ .doublePoint by decide),
        createInformationObject_eq (show DataType.scaled ≠ .doublePoint by decide),
        createInformationObject_eq (show DataType.normalized ≠ .doublePoint by decide)]

theorem dispatchContext_live (server : Server) (context : DispatchContext) (value : DataValue) :
    dispatchContext (liveSink server) context value = some (contextFrame context value) :=
  dispatchContext_eq some (fun _ _ _ _ _ => by simp [liveSink]) (fun _ _ _ _ _ => by simp [liveSink])
    (fun _ _ _ _ _ => by simp [liveSink]) (fun _ => rfl) context value

/-- Attempting an ASDU on the connection. -/
def attempt (asdu : Asdu) : ConnectionSink.Send := fun sent sink =>
  (asdu, if !sent then ⟨sink.failed + 1⟩ else sink)

theorem dispatchContext_connection (context : DispatchContext) (value : DataValue) :
    dispatchContext ConnectionSink.sink context value = attempt (contextFrame context value) :=
  dispatchContext_eq attempt (fun _ _ _ _ _ => rfl) (fun _ _ _ _ _ => rfl) (fun _ _ _ _ _ => rfl)
    (fun _ => rfl) context value

theorem prepareForOutput_notTopical (msg : Iec104Message) (receivedAt now : OffsetDateTime)
    (policy : OutputPolicy) :
    (prepareForOutput msg receivedAt now policy).notTopical =
      staleBit policy.maxAge msg receivedAt now := rfl

/-- The output policy leaves the cause alone, so that a replay may set it after. -/
theorem prepareForOutput_cot (msg : Iec104Message) (receivedAt now : OffsetDateTime)
    (policy : OutputPolicy) (cot : CotField) :
    { prepareForOutput msg receivedAt now policy with
      message := { (prepareForOutput msg receivedAt now policy).message with cot } } =
      prepareForOutput { msg with cot } receivedAt now policy := by
  simp only [prepareForOutput]
  split <;> rfl

/-- The context `dispatch_outgoing` dispatches is that of the point's frame. -/
theorem dispatchOutgoing_eq {ρ : Type} {sink : DataSink ρ} {send : Asdu → ρ}
    (h : ∀ context value, dispatchContext sink context value = send (contextFrame context value))
    (policy : OutputPolicy) (defaultCa : UInt16) (msg : Iec104Message)
    (receivedAt now : OffsetDateTime) :
    dispatchOutgoing sink (prepareForOutput msg receivedAt now policy) defaultCa =
      send (pointFrame policy defaultCa msg receivedAt now) := by
  have hq : wireQuality policy.maxAge msg receivedAt now =
      if staleBit policy.maxAge msg receivedAt now then (mapQuality msg.quality).union .NOT_TOPICAL
      else mapQuality msg.quality := by
    simp only [wireQuality, staleBit_iff]
  simp only [dispatchOutgoing, h, prepareForOutput_notTopical, pointFrame, hq]
  cases hs : policy.sendTimestamps <;>
  · simp only [prepareForOutput, hs, wireValue, wireTime, contextFrame, singleObjectAsdu]
    cases staleBit policy.maxAge msg receivedAt now <;> rfl

/-- The server is handed exactly one ASDU, the frame of the message. -/
theorem dispatch_live (server : Server) (policy : OutputPolicy) (defaultCa : UInt16)
    (msg : Iec104Message) (receivedAt now : OffsetDateTime) :
    dispatchOutgoing (liveSink server) (prepareForOutput msg receivedAt now policy) defaultCa =
      some (pointFrame policy defaultCa msg receivedAt now) :=
  dispatchOutgoing_eq (dispatchContext_live server) ..

/-- The connection is sent exactly one ASDU, the frame of the message. -/
theorem dispatch_connection (policy : OutputPolicy) (defaultCa : UInt16) (msg : Iec104Message)
    (receivedAt now : OffsetDateTime) :
    dispatchOutgoing ConnectionSink.sink (prepareForOutput msg receivedAt now policy) defaultCa =
      attempt (pointFrame policy defaultCa msg receivedAt now) :=
  dispatchOutgoing_eq dispatchContext_connection ..

end Iec104Bridge
