import Iec104Bridge.Proof.Interrogation

/-!
# The type ID of a point

When source times are sent, each data frame of a point whose messages all
carry one explicit type has the type ID of this type, in the timed variant if
its message has a timestamp (`typeId_stable`). The type ID is the one
documented for the type, but that a normalized value without a timestamp goes
out as a short float (`normalized_two_encodings`).
-/

namespace Iec104Bridge

open Framework

/-- The type ID documented for a `type`, without and with a `timestamp`. -/
def documentedTypeId (dataType : DataType) (timed : Bool) : UInt8 :=
  match dataType, timed with
  | .singlePoint, false | .doublePoint, false => 1
  | .singlePoint, true | .doublePoint, true => 30
  | .float, false => 13
  | .float, true => 36
  | .scaled, false => 11
  | .scaled, true => 35
  | .normalized, false => 9
  | .normalized, true => 34

/-- The type ID sent for a `type`: no method of a sink sends an untimed normalized
value, which goes out as a short float. -/
def sentTypeId (dataType : DataType) (timed : Bool) : UInt8 :=
  if dataType = .normalized ∧ timed = false then documentedTypeId .float false
  else documentedTypeId dataType timed

/-- The type ID of an encoded value is the one sent for its type. -/
theorem typeId_encode (ioa : Int32) (dataType : DataType) (value : DataValue) (quality : Quality)
    (time : Option Timestamp) :
    InformationObject.typeId ⟨ioa, encode time.isSome dataType value, quality, time⟩ =
      sentTypeId dataType time.isSome := by
  cases time <;> cases dataType <;> rfl

variable {ι : Type} {cfg : Settings} {s : State ι} {w : List (Effect ι)} {k : Key} {dataType : DataType}

/-- The frame of a message with an explicit type. -/
theorem typeId_pointFrame {policy : OutputPolicy} (hp : policy.sendTimestamps = true)
    (defaultCa : UInt16) {msg : Iec104Message} (ht : msg.dataType = some dataType)
    (receivedAt now : OffsetDateTime) :
    (pointFrame policy defaultCa msg receivedAt now).object.typeId =
        sentTypeId dataType msg.timestamp.isSome ∧
      (pointFrame policy defaultCa msg receivedAt now).object.time.isSome = msg.timestamp.isSome := by
  have hw : (wireTime policy.sendTimestamps msg).isSome = msg.timestamp.isSome := by
    simp [wireTime, hp]
  have he : msg.effectiveType = dataType := by simp [Iec104Message.effectiveType, ht]
  refine ⟨?_, hw⟩
  rw [← hw, ← he]
  exact typeId_encode _ _ _ _ _

/-- How the frame of a point is encoded, whose messages all carry `dataType`. -/
structure EncodedAs (dataType : DataType) (message : Iec104Message) (object : InformationObject) :
    Prop where
  /-- The timestamp selects the variant. -/
  timed : object.time.isSome = message.timestamp.isSome
  documented : dataType ≠ .normalized →
    object.typeId = documentedTypeId dataType message.timestamp.isSome
  normalized : dataType = .normalized →
    object.typeId = if message.timestamp.isSome then documentedTypeId .normalized true
      else documentedTypeId .float false

theorem encodedAs_pointFrame {policy : OutputPolicy} (hp : policy.sendTimestamps = true)
    (defaultCa : UInt16) {msg : Iec104Message} (ht : msg.dataType = some dataType)
    (receivedAt now : OffsetDateTime) :
    EncodedAs dataType msg (pointFrame policy defaultCa msg receivedAt now).object := by
  obtain ⟨hid, htime⟩ := typeId_pointFrame hp defaultCa ht receivedAt now
  refine ⟨htime, fun hne => ?_, fun he => ?_⟩
  · rw [hid, sentTypeId, if_neg fun h => hne h.1]
  · subst he
    rw [hid]
    cases msg.timestamp.isSome <;> rfl

/-- With source times sent, in every run, each data frame of a point whose
messages all carry one explicit type is encoded as one of these messages. -/
theorem typeId_stable (hp : cfg.policy.sendTimestamps = true) (h : (process ι cfg).Run w s)
    (ht : ∀ point ∈ arrivals w, point.key cfg.defaultCa = k → point.message.dataType = some dataType) :
    ∀ e ∈ w, ∀ now asdu, e.frame = some (now, asdu) → asdu.At k →
      ∃ point ∈ arrivals w, point.key cfg.defaultCa = k ∧
        EncodedAs dataType point.message asdu.object := by
  intro e he now asdu hf hk
  obtain ⟨point, harr, -, hframe⟩ := arrival_of_frame h he hf
  have hkey : point.key cfg.defaultCa = k := hframe.at_iff.mp hk
  obtain ⟨cot, -, rfl⟩ := hframe
  -- the cause does not show in the object
  have hdt : ({ point.message with cot } : Iec104Message).dataType = some dataType :=
    ht point harr hkey
  have henc := encodedAs_pointFrame hp cfg.defaultCa hdt point.receivedAt now
  exact ⟨point, harr, hkey, henc.timed, henc.documented, henc.normalized⟩

/-- The number 0. -/
def F64.zero : F64 := ⟨0, 0, 0, by decide, by decide, by decide, by simp⟩

def normalizedMessage (timestamp : Option OffsetDateTime) : Iec104Message :=
  { ioa := 100, value := .number .zero, dataType := some .normalized, timestamp }

/-- A double point without a source time, and again with one. -/
theorem typeId_stable_sample : ∃ w s, (process Nat .sample).Run w s ∧
    ∀ e ∈ w, ∀ now asdu, e.frame = some (now, asdu) → asdu.At (1, 100) →
      ∃ point ∈ arrivals w, point.key 1 = (1, 100) ∧
        EncodedAs .doublePoint point.message asdu.object := by
  obtain ⟨w, s, h, hw⟩ := Machine.exists_run_of_exec (M := process Nat .sample)
    (.task (.build true) ::
      (handleMessage 0 { Iec104Message.sample 100 true with dataType := some .doublePoint } (.sample 1) ++
        handleMessage 1 { Iec104Message.sample 100 false with
          dataType := some .doublePoint, timestamp := some (.sample 2) } (.sample 2)))
    (fun w _ => decide (∀ point ∈ arrivals w, point.key 1 = (1, 100) →
      point.message.dataType = some .doublePoint)) true (by decide +kernel)
  exact ⟨w, s, h, typeId_stable rfl h (of_decide_eq_true hw)⟩

/-- A normalized value without a timestamp, and again with one: the point is
sent with two encodings, and first not with the documented one. -/
theorem normalized_two_encodings : ∃ w s untimed timed, (process Nat .sample).Run w s ∧
    (∀ point ∈ arrivals w, point.message.dataType = some .normalized) ∧
    .handed 0 (.sample 1) untimed ∈ w ∧ untimed.At (1, 100) ∧
    untimed.object.typeId = 13 ∧ untimed.object.typeId ≠ documentedTypeId .normalized false ∧
    .handed 1 (.sample 2) timed ∈ w ∧ timed.At (1, 100) ∧ timed.object.typeId = 34 := by
  obtain ⟨w, s, h, hw⟩ := Machine.exists_run_of_exec (M := process Nat .sample)
    (.task (.build true) :: (handleMessage 0 (normalizedMessage none) (.sample 1) ++
      handleMessage 1 (normalizedMessage (some (.sample 2))) (.sample 2)))
    (fun w _ => decide ((∀ point ∈ arrivals w, point.message.dataType = some .normalized) ∧
      .handed 0 (.sample 1) (spontaneousFrame .sample (normalizedMessage none) (.sample 1)) ∈ w ∧
      .handed 1 (.sample 2)
        (spontaneousFrame .sample (normalizedMessage (some (.sample 2))) (.sample 2)) ∈ w))
    true (by decide +kernel)
  obtain ⟨ht, hu, htimed⟩ := of_decide_eq_true hw
  exact ⟨w, s, _, _, h, ht, hu, ⟨rfl, rfl⟩, rfl, by decide, htimed, ⟨rfl, rfl⟩, rfl⟩

end Iec104Bridge
