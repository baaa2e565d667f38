import Iec104Bridge.Model.Json
import Iec104Bridge.Proof.Encoding
import Iec104Bridge.Proof.Numbers

/-!
# The type of a message without one

A `DataValue` keeps the number and not the way it is written, so a message
without a `type` is sent by its value: an integer of an `i16` as scaled, any
other number as float (`inference_by_value`). A point whose numbers are written
with a fraction can change its encoding from one sample to the next
(`inferred_two_encodings`), unless none of them is such an integer.
-/

namespace Iec104Bridge

open Framework

variable {cfg : Settings} {point : CachedPoint} {now : OffsetDateTime} {asdu : Asdu}
  {read : JsonNumber → Option F64}

/-- The number is an integer of an `i16`. -/
def IsInt16 (v : F64) : Prop := ∃ n : Int, -32768 ≤ n ∧ n ≤ 32767 ∧ v.val = n

theorem isScaledNumber_iff (v : F64) : isScaledNumber v = true ↔ IsInt16 v := by
  simp only [isScaledNumber, Bool.and_eq_true, decide_eq_true_eq, fractional_eq_zero_iff]
  constructor
  · rintro ⟨⟨⟨n, hn⟩, hlow⟩, hhigh⟩
    rw [hn] at hlow hhigh
    exact ⟨n, by exact_mod_cast hlow, by exact_mod_cast hhigh, hn⟩
  · rintro ⟨n, hlow, hhigh, hn⟩
    refine ⟨⟨⟨n, hn⟩, ?_⟩, ?_⟩
    · rw [hn]
      exact_mod_cast hlow
    · rw [hn]
      exact_mod_cast hhigh

/-- The object has the type ID documented for the type, timed or untimed. -/
def InformationObject.HasType (object : InformationObject) (dataType : DataType) : Prop :=
  object.typeId = documentedTypeId dataType object.time.isSome

/-- A message without a type is sent as the type that is inferred. -/
theorem hasType_inferType (ht : point.message.dataType = none) (h : FrameOf cfg now asdu point) :
    asdu.object.HasType (inferType point.message.value) := by
  obtain ⟨cot, -, rfl⟩ := h
  have he : ({ point.message with cot } : Iec104Message).effectiveType =
      inferType point.message.value := by
    simp [Iec104Message.effectiveType, ht]
  have hne : inferType point.message.value ≠ .normalized := by
    unfold inferType
    split
    · decide
    · split <;> decide
  have hid := typeId_encode (u32AsI32 point.message.ioa) (inferType point.message.value)
    point.message.value (wireQuality cfg.policy.maxAge { point.message with cot } point.receivedAt now)
    (wireTime cfg.policy.sendTimestamps { point.message with cot })
  rw [sentTypeId, if_neg fun h => hne h.1, ← he] at hid
  rw [← he]
  exact hid

/-- The type that is sent for a JSON value, without a `type`. -/
structure InferredFrom (read : JsonNumber → Option F64) (json : JsonValue) (object : InformationObject) :
    Prop where
  bool (b : Bool) : json = .bool b → object.HasType .singlePoint
  integer (n : JsonNumber) : json = .number n → n.IsInteger → -32768 ≤ n.value → n.value ≤ 32767 →
    object.HasType .scaled
  /-- However the number is written. -/
  scaled (n : JsonNumber) (v : F64) : json = .number n → read n = some v → IsInt16 v →
    object.HasType .scaled
  float (n : JsonNumber) (v : F64) : json = .number n → read n = some v → ¬ IsInt16 v →
    object.HasType .float

theorem inferredFrom_of_sends (hread : ReadsIntegers read) {json : JsonValue}
    (hj : DataValue.deserialize read json = some point.message.value)
    (ht : point.message.dataType = none) (h : Sends cfg point now asdu) :
    InferredFrom read json asdu.object := by
  have htype := hasType_inferType ht h.frameOf
  have hnumber : ∀ n v, json = .number n → read n = some v → point.message.value = .number v := by
    rintro n v rfl hv
    simpa [DataValue.deserialize, hv, eq_comm] using hj
  have hscaled : ∀ n v, json = .number n → read n = some v → IsInt16 v → asdu.object.HasType .scaled := by
    intro n v hn hv hi
    rw [hnumber n v hn hv, inferType, if_pos ((isScaledNumber_iff v).mpr hi)] at htype
    exact htype
  refine ⟨fun b hb => ?_, fun n hn hint hlow hhigh => ?_, hscaled, fun n v hn hv hi => ?_⟩
  · subst hb
    obtain hv := Option.some.inj hj
    rw [← hv] at htype
    exact htype
  · obtain ⟨v, hv, hval⟩ := hread n hint hlow hhigh
    refine hscaled n v hn hv ?_
    rw [hint.value_eq] at hlow hhigh hval
    exact ⟨_, by exact_mod_cast hlow, by exact_mod_cast hhigh, hval⟩
  · rw [hnumber n v hn hv, inferType, if_neg fun h => hi ((isScaledNumber_iff v).mp h)] at htype
    exact htype

/-- **Inference by value.** A message without a type is sent by its value. In
every run, a point without a type whose numbers are never integers of an `i16`
keeps the float encoding, in spontaneous frames and in replays. -/
theorem inference_by_value {ι : Type} (hread : ReadsIntegers read) :
    (∀ point now asdu json, DataValue.deserialize read json = some point.message.value →
      point.message.dataType = none → Sends cfg point now asdu → InferredFrom read json asdu.object) ∧
    ∀ (w : List (Effect ι)) (s : State ι) (k : Key), (process ι cfg).Run w s →
      (∀ point ∈ arrivals w, point.key cfg.defaultCa = k →
        point.message.dataType = none ∧ ∃ v, point.message.value = .number v ∧ ¬ IsInt16 v) →
      ∀ e ∈ w, ∀ now asdu, e.frame = some (now, asdu) → asdu.At k → asdu.object.HasType .float := by
  refine ⟨fun point now asdu json hj ht h => inferredFrom_of_sends hread hj ht h,
    fun w s k h hfloat e he now asdu hf hk => ?_⟩
  obtain ⟨point, harr, -, hframe⟩ := arrival_of_frame h he hf
  obtain ⟨ht, v, hval, hi⟩ := hfloat point harr (hframe.at_iff.mp hk)
  have htype := hasType_inferType ht hframe
  rw [hval, inferType, if_neg fun h => hi ((isScaledNumber_iff v).mp h)] at htype
  exact htype

/-- The numbers 2.5 and 2.0, as they are written. -/
def JsonNumber.sample (tenths : Fin 10) : JsonNumber := ⟨false, 2, some [tenths], none, by simp⟩

def F64.two : F64 := ⟨2, 2, 0, by decide, by decide, by decide, by norm_num⟩

def F64.twoAndHalf : F64 := ⟨5 / 2, 5, -1, by decide, by decide, by decide, by norm_num⟩

theorem readNearest_sample : (JsonNumber.sample 0).readNearest = some .two ∧
    (JsonNumber.sample 5).readNearest = some .twoAndHalf := by
  have h₀ : (JsonNumber.sample 0).value = F64.two.val := by decide +kernel
  have h₅ : (JsonNumber.sample 5).value = F64.twoAndHalf.val := by decide +kernel
  unfold JsonNumber.readNearest
  rw [h₀, h₅]
  exact ⟨F64.nearest_val _, F64.nearest_val _⟩

def untypedMessage (v : F64) : Iec104Message := { ioa := 100, value := .number v }

theorem inference_by_value_sample : ∃ w s asdu, (process Nat .sample).Run w s ∧
    .handed 0 (.sample 1) asdu ∈ w ∧ asdu.object.HasType .float ∧
    InferredFrom JsonNumber.readNearest (.number (.sample 5)) asdu.object := by
  obtain ⟨w, s, h, hw⟩ := Machine.exists_run_of_exec (M := process Nat .sample)
    (.task (.build true) :: handleMessage 0 (untypedMessage .twoAndHalf) (.sample 1))
    (fun w _ => decide ((∀ point ∈ arrivals w, point.message = untypedMessage .twoAndHalf) ∧
      .handed 0 (.sample 1) (spontaneousFrame .sample (untypedMessage .twoAndHalf) (.sample 1)) ∈ w))
    true (by decide +kernel)
  obtain ⟨harr, he⟩ := of_decide_eq_true hw
  have hi : ¬ IsInt16 .twoAndHalf := by
    rw [← isScaledNumber_iff]
    decide +kernel
  have hboth := @inference_by_value .sample _ Nat readsIntegers_readNearest
  refine ⟨w, s, _, h, he, hboth.2 w s (1, 100) h (fun point hp _ => ?_) _ he _ _ rfl ⟨rfl, rfl⟩,
    hboth.1 ⟨untypedMessage .twoAndHalf, .sample 1⟩ (.sample 1) _ _ ?_ rfl
      (.spontaneous rfl (by rw [dispatchIncoming_eq]; rfl))⟩
  · rw [harr point hp]
    exact ⟨rfl, _, rfl, hi⟩
  · exact congrArg (Option.map _) readNearest_sample.2

/-- The samples 2.5 and 2.0 of a point without a type, both written with a
fraction, are sent as a short float and as a scaled value. -/
theorem inferred_two_encodings : ∃ w s first second, ReadsIntegers JsonNumber.readNearest ∧
    (process Nat .sample).Run w s ∧
    (∀ point ∈ arrivals w, point.key 1 = (1, 100) ∧ point.message.dataType = none ∧
      ∃ n : JsonNumber, n.fraction.isSome ∧
        DataValue.deserialize JsonNumber.readNearest (.number n) = some point.message.value) ∧
    .handed 0 (.sample 1) first ∈ w ∧ first.object.typeId = 13 ∧
    .handed 1 (.sample 2) second ∈ w ∧ second.object.typeId = 11 := by
  obtain ⟨w, s, h, hw⟩ := Machine.exists_run_of_exec (M := process Nat .sample)
    (.task (.build true) :: (handleMessage 0 (untypedMessage .twoAndHalf) (.sample 1) ++
      handleMessage 1 (untypedMessage .two) (.sample 2)))
    (fun w _ => decide ((∀ point ∈ arrivals w,
        point.message = untypedMessage .twoAndHalf ∨ point.message = untypedMessage .two) ∧
      .handed 0 (.sample 1) (spontaneousFrame .sample (untypedMessage .twoAndHalf) (.sample 1)) ∈ w ∧
      .handed 1 (.sample 2) (spontaneousFrame .sample (untypedMessage .two) (.sample 2)) ∈ w))
    true (by decide +kernel)
  obtain ⟨harr, hfirst, hsecond⟩ := of_decide_eq_true hw
  refine ⟨w, s, _, _, readsIntegers_readNearest, h, fun point hp => ?_, hfirst, by decide +kernel,
    hsecond, by decide +kernel⟩
  obtain ⟨message, receivedAt⟩ := point
  rcases harr _ hp with hm | hm
  · obtain rfl : message = _ := hm
    exact ⟨rfl, rfl, .sample 5, rfl, congrArg (Option.map _) readNearest_sample.2⟩
  · obtain rfl : message = _ := hm
    exact ⟨rfl, rfl, .sample 0, rfl, congrArg (Option.map _) readNearest_sample.1⟩

end Iec104Bridge
