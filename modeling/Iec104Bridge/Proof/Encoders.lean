import Iec104Bridge.Model.Validation
import Iec104Bridge.Proof.Point

/-!
# The timed and the untimed encoder agree

A message with a timestamp goes through `create_information_object` when source
times are sent, and through the conversions of `bridge.rs` when they are not.
Both build the frame of the message (`dispatches_pointFrame`), whose two
variants differ in the time, and in the type of a normalized value.
-/

namespace Iec104Bridge

/-- The timed and the untimed encoding of a type hold one value. -/
inductive SameValue : DataType → IoValue → IoValue → Prop
  | singlePoint (on : Bool) : SameValue .singlePoint (.single on) (.single on)
  | doublePoint (on : Bool) : SameValue .doublePoint (.single on) (.single on)
  | scaled (n : Int16) : SameValue .scaled (.scaled n.toInt32) (.scaled n.toInt32)
  | float (x : F32) : SameValue .float (.short x) (.short x)
  | normalized (x : F32) : SameValue .normalized (.normalized x) (.short x)

theorem sameValue_encode (dataType : DataType) (value : DataValue) :
    SameValue dataType (encode true dataType value) (encode false dataType value) := by
  cases dataType with
  | float => exact .float _
  | scaled => exact .scaled _
  | normalized => exact .normalized _
  | singlePoint => exact .singlePoint _
  | doublePoint => exact .doublePoint _

/-- `dispatch_outgoing` hands `asdu` to the server, and attempts it on a connection. -/
structure Dispatches (server : Server) (policy : OutputPolicy) (ca : UInt16) (msg : Iec104Message)
    (receivedAt now : OffsetDateTime) (asdu : Asdu) : Prop where
  live : dispatchOutgoing (liveSink server) (prepareForOutput msg receivedAt now policy) ca = some asdu
  connection (sent : Bool) (sink : ConnectionSink) :
    (dispatchOutgoing ConnectionSink.sink (prepareForOutput msg receivedAt now policy) ca sent sink).1 =
      asdu

theorem dispatches_pointFrame (server : Server) (policy : OutputPolicy) (ca : UInt16)
    (msg : Iec104Message) (receivedAt now : OffsetDateTime) :
    Dispatches server policy ca msg receivedAt now (pointFrame policy ca msg receivedAt now) where
  live := dispatch_live ..
  connection sent sink := by
    rw [dispatch_connection]
    rfl

/-- A timed and an untimed frame of one message. -/
structure Agree (dataType : DataType) (timed untimed : Asdu) : Prop where
  ca : timed.ca = untimed.ca
  ioa : timed.object.ioa = untimed.object.ioa
  cot : timed.cot = untimed.cot
  quality : timed.object.quality = untimed.object.quality
  value : SameValue dataType timed.object.value untimed.object.value
  timed : timed.object.time.isSome
  untimed : untimed.object.time = none

theorem agree_pointFrame (maxAge : Option Duration) (ca : UInt16) {msg : Iec104Message}
    (receivedAt now : OffsetDateTime) {timestamp : OffsetDateTime}
    (ht : msg.timestamp = some timestamp) :
    Agree msg.effectiveType (pointFrame ⟨true, maxAge⟩ ca msg receivedAt now)
      (pointFrame ⟨false, maxAge⟩ ca msg receivedAt now) where
  ca := rfl
  ioa := rfl
  cot := rfl
  quality := rfl
  value := by
    have hw : (wireTime true msg).isSome = true := by simp [wireTime, ht]
    show SameValue _ (encode (wireTime true msg).isSome _ _) (encode false _ _)
    rw [hw]
    exact sameValue_encode _ _
  timed := by simp [pointFrame, wireTime, ht]
  untimed := rfl

/-- With and without source times, a message that has one is sent with the
same address, cause, quality and value; without them no timed object is built. -/
theorem encoders_agree (server : Server) (maxAge : Option Duration) (ca : UInt16)
    (msg : Iec104Message) (receivedAt now : OffsetDateTime) :
    (∀ timestamp, msg.timestamp = some timestamp →
      ∃ timed untimed, Dispatches server ⟨true, maxAge⟩ ca msg receivedAt now timed ∧
        Dispatches server ⟨false, maxAge⟩ ca msg receivedAt now untimed ∧
        Agree msg.effectiveType timed untimed) ∧
      ∃ untimed, Dispatches server ⟨false, maxAge⟩ ca msg receivedAt now untimed ∧
        untimed.object.time = none :=
  ⟨fun _ ht => ⟨_, _, dispatches_pointFrame .., dispatches_pointFrame .., agree_pointFrame _ _ _ _ ht⟩,
    _, dispatches_pointFrame .., rfl⟩

def F64.threeQuarters : F64 := ⟨3 / 4, 3, -2, by decide, by decide, by decide, by norm_num⟩

/-- A normalized value whose source time makes it stale. -/
def staleNormalized : Iec104Message :=
  { ioa := 7, value := .number .threeQuarters, dataType := some .normalized, timestamp := some ⟨0, 0⟩ }

theorem encoders_agree_sample : staleNormalized.Valid ∧ ∃ timed untimed,
    Dispatches .reference ⟨true, some ⟨5⟩⟩ 1 staleNormalized ⟨9, 0⟩ ⟨9, 0⟩ timed ∧
      Dispatches .reference ⟨false, some ⟨5⟩⟩ 1 staleNormalized ⟨9, 0⟩ ⟨9, 0⟩ untimed ∧
      Agree .normalized timed untimed :=
  ⟨by decide +kernel, (encoders_agree .reference (some ⟨5⟩) 1 staleNormalized ⟨9, 0⟩ ⟨9, 0⟩).1 ⟨0, 0⟩ rfl⟩

end Iec104Bridge
