import Iec104Bridge.Model.Nats
import Iec104Bridge.Model.Schema
import Iec104Bridge.Proof.Inference

/-!
# What is accepted as a message

`deserialize_iff` says which JSON values are read as a message: an object, or an
array that stands for one, in which each field has one value that is read as
that of the message, or none where the message has the default. So neither the
order of the members nor unknown names matter. What a producer writes for a
message is read back, with or without the fields that have their defaults
(`deserialize_written`).
-/

namespace Iec104Bridge

open Framework

variable {readers : JsonReaders} {members members' : List (String × Json)} {message : Iec104Message}

theorem Iec104Message.ofFields_field (message : Iec104Message) : ofFields message.field = message := rfl

theorem Iec104Message.field_ofFields (r : (field : MessageField) → field.FieldType) :
    (ofFields r).field = r := by
  funext field
  cases field <;> rfl

/-- The members of an object, or those that an array stands for. -/
def Json.asMembers : Json → Option (List (String × Json))
  | .object members => some members
  | .array values =>
    if 4 ≤ values.length ∧ values.length ≤ 7 then
      some ((MessageField.order.map MessageField.name).zip values)
    else none
  | _ => none

/-- The values under the name of a field. -/
def MessageField.values (field : MessageField) (members : List (String × Json)) : List Json :=
  (members.filter fun member => member.1 = field.name).map Prod.snd

/-- The members give each field of the message one value, or none where it has
the value of a missing field. -/
def Describes (readers : JsonReaders) (members : List (String × Json)) (message : Iec104Message) : Prop :=
  ∀ field : MessageField,
    (∃ json, field.values members = [json] ∧ field.read readers json = some (message.field field)) ∨
      (field.values members = [] ∧ field.missing = some (message.field field))

theorem map_ofFields_iff {r : Option ((field : MessageField) → field.FieldType)} :
    r.map Iec104Message.ofFields = some message ↔ r = some message.field := by
  rw [Option.map_eq_some_iff]
  constructor
  · rintro ⟨r, rfl, rfl⟩
    rw [Iec104Message.field_ofFields]
  · rintro rfl
    exact ⟨_, rfl, message.ofFields_field⟩

theorem deserialize_object_iff :
    Iec104Message.deserialize readers (.object members) = some message ↔ Describes readers members message :=
  map_ofFields_iff.trans Schema.readMap_iff

/-- An array is read as the object it stands for. -/
theorem deserialize_array (readers : JsonReaders) (values : List Json) :
    Iec104Message.deserialize readers (.array values) =
      (Json.asMembers (.array values)).bind fun members =>
        Iec104Message.deserialize readers (.object members) := by
  have hlen : MessageField.order.length = 7 := rfl
  rw [Json.asMembers]
  split
  · rename_i h
    have hm : ∀ field ∈ MessageField.order.drop values.length,
        (messageSchema readers).missingSeq field = (messageSchema readers).missing field := by
      intro field hf
      have hf : field ∈ MessageField.order.drop 4 := List.drop_subset_drop_left _ h.1 hf
      cases field with
      | ca => exact absurd hf (by decide)
      | _ => rfl
    rw [Option.bind_some, Iec104Message.deserialize, Iec104Message.deserialize,
      Schema.readSeq_eq (by decide) (by decide) (hlen ▸ h.2) hm]
    rfl
  · rename_i h
    have hnone : MessageField.order.length < values.length ∨
        ∃ field ∈ MessageField.order.drop values.length,
          (messageSchema readers).missingSeq field = none := by
      by_cases h7 : values.length ≤ 7
      · refine .inr ⟨.ca, ?_, rfl⟩
        have h4 : values.length ≤ 3 := by omega
        exact List.drop_subset_drop_left _ h4 (by decide)
      · exact .inl (by omega)
    rw [Iec104Message.deserialize, Schema.readSeq_eq_none hnone]
    rfl

theorem deserialize_iff_members {json : Json} : Iec104Message.deserialize readers json = some message ↔
    ∃ members, json.asMembers = some members ∧ Describes readers members message := by
  cases json with
  | object members => simpa [Json.asMembers] using deserialize_object_iff
  | array values =>
    rw [deserialize_array, Option.bind_eq_some_iff]
    exact exists_congr fun members => and_congr_right fun _ => deserialize_object_iff
  | _ => simp [Iec104Message.deserialize, Json.asMembers]

/-- A name of the schema. -/
def IsKnown (member : String × Json) : Prop := ∃ field : MessageField, field.name = member.1

instance (member : String × Json) : Decidable (IsKnown member) := inferInstanceAs (Decidable (∃ _, _))

theorem values_filter_known (field : MessageField) (members : List (String × Json)) :
    field.values (members.filter fun member => IsKnown member) = field.values members := by
  rw [MessageField.values, List.filter_filter]
  refine congrArg (List.map Prod.snd) (List.filter_congr fun member _ => ?_)
  by_cases h : member.1 = field.name
  · have hk : IsKnown member := ⟨field, h.symm⟩
    simp [h, hk]
  · simp [h]

/-- **What is accepted.** A JSON value is read as a message if and only if it is
an object that describes it, or an array of four to seven values that stands
for one. Neither the order of the members nor unknown names matter. -/
theorem deserialize_iff (readers : JsonReaders) (json : Json) (message : Iec104Message) :
    (Iec104Message.deserialize readers json = some message ↔
      ∃ members, json.asMembers = some members ∧ Describes readers members message) ∧
    ∀ members members', (members.filter fun member => IsKnown member).Perm
        (members'.filter fun member => IsKnown member) →
      Iec104Message.deserialize readers (.object members) =
        Iec104Message.deserialize readers (.object members') := by
  refine ⟨deserialize_iff_members, fun members members' h => ?_⟩
  refine congrArg (Option.map Iec104Message.ofFields) (Schema.readMap_perm fun field => ?_)
  have hv (l : List (String × Json)) : (messageSchema readers).valuesOf field l = field.values l := rfl
  rw [hv, hv, ← values_filter_known field members, ← values_filter_known field members']
  exact (h.filter _).map _

/-! ## What a producer writes -/

/-- A variant by its name. -/
def Json.ofVariant {T : Type} [DecidableEq T] (variants : List (String × T)) (v : T) : Json :=
  match variants.find? fun variant => variant.2 = v with
  | some variant => .string variant.1
  | none => .null

def Json.ofNat (n : Nat) : Json := .number ⟨false, n, none, none, by simp⟩

/-- The value of each field, with a way to write numbers and timestamps. -/
def Iec104Message.toJson (number : F64 → JsonNumber) (rfc3339 : OffsetDateTime → String)
    (message : Iec104Message) : MessageField → Json
  | .ioa => .ofNat message.ioa.toNat
  | .value =>
    match message.value with
    | .bool b => .bool b
    | .number v => .number (number v)
  | .dataType => message.dataType.elim .null (.ofVariant DataType.variants)
  | .ca => message.ca.elim .null fun ca => .ofNat ca.toNat
  | .quality => .ofVariant QualityField.variants message.quality
  | .cot => .ofVariant CotField.variants message.cot
  | .timestamp => message.timestamp.elim .null fun t => .string (rfc3339 t)

theorem variant_dataType (t : DataType) :
    Json.variant DataType.variants (.ofVariant DataType.variants t) = some t := by
  cases t <;> decide +kernel

theorem variant_quality (q : QualityField) :
    Json.variant QualityField.variants (.ofVariant QualityField.variants q) = some q := by
  cases q <;> decide +kernel

theorem variant_cot (c : CotField) :
    Json.variant CotField.variants (.ofVariant CotField.variants c) = some c := by
  cases c <;> decide +kernel

theorem unsigned_ofNat {max n : Nat} (h : n ≤ max) : (Json.ofNat n).unsigned max = some n := by
  simp [Json.ofNat, Json.unsigned, h]

theorem optional_ofVariant (t : Option DataType) :
    Json.optional (Json.variant DataType.variants) (t.elim .null (.ofVariant DataType.variants)) =
      some t := by
  cases t with
  | none => rfl
  | some t =>
    have hne : Json.ofVariant DataType.variants t ≠ .null := by cases t <;> exact nofun
    rw [Option.elim_some, Json.optional, variant_dataType, Option.map_some]
    exact hne

/-- What is written for a field is read back. -/
theorem read_toJson {number : F64 → JsonNumber} {rfc3339 : OffsetDateTime → String}
    (hnumber : ∀ v, message.value = .number v → readers.f64 (number v) = some v)
    (htime : ∀ t, message.timestamp = some t → readers.rfc3339 (rfc3339 t) = some t)
    (field : MessageField) :
    field.read readers (message.toJson number rfc3339 field) = some (message.field field) := by
  cases field with
  | ioa =>
    have hle : message.ioa.toNat ≤ 2 ^ 32 - 1 := Nat.le_of_lt_succ message.ioa.toNat_lt
    simp only [MessageField.read, Iec104Message.toJson, Iec104Message.field, unsigned_ofNat hle,
      Option.map_some, UInt32.ofNat_toNat]
  | value =>
    simp only [MessageField.read, Iec104Message.toJson, Iec104Message.field]
    cases hv : message.value with
    | bool b => rfl
    | number v => simp only [Json.simple, DataValue.deserialize, hnumber v hv, Option.map_some]
  | dataType => exact optional_ofVariant message.dataType
  | ca =>
    simp only [MessageField.read, Iec104Message.toJson, Iec104Message.field]
    cases message.ca with
    | none => rfl
    | some ca =>
      have hle : ca.toNat ≤ 2 ^ 16 - 1 := Nat.le_of_lt_succ ca.toNat_lt
      show (((Json.ofNat ca.toNat).unsigned (2 ^ 16 - 1)).map UInt16.ofNat).map some = some (some ca)
      rw [unsigned_ofNat hle, Option.map_some, UInt16.ofNat_toNat, Option.map_some]
  | quality => exact variant_quality message.quality
  | cot => exact variant_cot message.cot
  | timestamp =>
    simp only [MessageField.read, Iec104Message.toJson, Iec104Message.field]
    cases ht : message.timestamp with
    | none => rfl
    | some t =>
      show (readers.rfc3339 (rfc3339 t)).map some = _
      rw [htime t ht, Option.map_some]

/-- **Messages are read back.** An object that holds what is written for each
field of a message, in any order and among any other names, is read as this
message; a field that has the value of a missing one can be left out. -/
theorem deserialize_written {number : F64 → JsonNumber} {rfc3339 : OffsetDateTime → String}
    (hnumber : ∀ v, message.value = .number v → readers.f64 (number v) = some v)
    (htime : ∀ t, message.timestamp = some t → readers.rfc3339 (rfc3339 t) = some t)
    (hw : ∀ field : MessageField, field.values members = [message.toJson number rfc3339 field] ∨
      (field.values members = [] ∧ field.missing = some (message.field field))) :
    Iec104Message.deserialize readers (.object members) = some message := by
  refine deserialize_object_iff.mpr fun field => ?_
  rcases hw field with h | h
  · exact .inl ⟨_, h, read_toJson hnumber htime field⟩
  · exact .inr h

def JsonReaders.sample : JsonReaders where
  f64 := JsonNumber.readNearest
  rfc3339 value := if value = "2026-05-29T12:34:56Z" then some ⟨1780058096000000000, 0⟩ else none

def timestampedMessage : Iec104Message :=
  { untypedMessage .twoAndHalf with ca := some 1, timestamp := some ⟨1780058096000000000, 0⟩ }

/-- Out of order, with an unknown name, and without the defaults. -/
def writtenMembers : List (String × Json) :=
  [("timestamp", .string "2026-05-29T12:34:56Z"), ("value", .number (.sample 5)), ("unit", .string "kV"),
    ("ioa", .ofNat 100), ("ca", .ofNat 1)]

theorem deserialize_written_sample :
    Iec104Message.deserialize .sample (.object writtenMembers) = some timestampedMessage := by
  let number : F64 → JsonNumber := fun _ => .sample 5
  let rfc3339 : OffsetDateTime → String := fun _ => "2026-05-29T12:34:56Z"
  have hnumber : ∀ v, timestampedMessage.value = .number v →
      JsonReaders.sample.f64 (number v) = some v := by
    rintro v ⟨⟩
    exact readNearest_sample.2
  have htime : ∀ t, timestampedMessage.timestamp = some t →
      JsonReaders.sample.rfc3339 (rfc3339 t) = some t := by
    rintro t ⟨⟩
    simp [JsonReaders.sample, rfc3339]
  refine deserialize_written hnumber htime fun field => ?_
  cases field with
  | dataType | quality | cot =>
    exact .inr ⟨by simp [MessageField.values, MessageField.name, writtenMembers], rfl⟩
  | _ =>
    refine .inl ?_
    simp [MessageField.values, MessageField.name, writtenMembers]
    rfl

/-! ## Requests -/

/-- What `validate_message` lets through. -/
structure InRange (message : Iec104Message) : Prop where
  ioa : 1 ≤ message.ioa.toNat ∧ message.ioa.toNat ≤ 16777215
  ca (ca : UInt16) : message.ca = some ca → 1 ≤ ca.toNat ∧ ca.toNat ≤ 65534
  timestamp (t : OffsetDateTime) : message.timestamp = some t → 0 ≤ t.unixTimestampNanos
  normalized : message.dataType = some .normalized →
    ∃ v, message.value = .number v ∧ -1 ≤ v.val ∧ v.val ≤ 1
  point : message.dataType = some .singlePoint ∨ message.dataType = some .doublePoint →
    ∃ b, message.value = .bool b

theorem isOk_ite {p : Prop} [Decidable p] {e : String} :
    (if p then Except.error e else Except.ok ()).isOk = true ↔ ¬ p := by
  split <;> simp [*]

theorem validateMessage_isOk_iff : message.Valid ↔
    (validateIoa message.ioa).isOk ∧ (validateCa message.ca).isOk ∧
      (validateTimestamp message.timestamp).isOk ∧
      (validateNormalizedValue message.dataType message.value).isOk ∧
      (validateBooleanPointValue message.dataType message.value).isOk := by
  have hand (x : Except String Unit) (p : Prop) : (∃ a, x = .ok a ∧ p) ↔ x.isOk = true ∧ p := by
    cases x <;> simp
  simp only [Iec104Message.Valid, validateMessage, isOk_bind, hand]

theorem validateIoa_iff {ioa : UInt32} :
    (validateIoa ioa).isOk = true ↔ 1 ≤ ioa.toNat ∧ ioa.toNat ≤ 16777215 := by
  rw [validateIoa, isOk_ite, not_not, UInt32.le_iff_toNat_le, UInt32.le_iff_toNat_le]
  rfl

theorem validateCa_iff {ca : Option UInt16} :
    (validateCa ca).isOk = true ↔ ∀ c, ca = some c → 1 ≤ c.toNat ∧ c.toNat ≤ 65534 := by
  cases ca with
  | none => simp [validateCa]
  | some c =>
    simp only [validateCa, isOk_ite, not_not, UInt16.le_iff_toNat_le, Option.some.injEq, forall_eq']
    rfl

theorem validateTimestamp_iff {timestamp : Option OffsetDateTime} :
    (validateTimestamp timestamp).isOk = true ↔ ∀ t, timestamp = some t → 0 ≤ t.unixTimestampNanos := by
  cases timestamp <;> simp [validateTimestamp, isOk_ite]

theorem validateNormalizedValue_iff {dataType : Option DataType} {value : DataValue} :
    (validateNormalizedValue dataType value).isOk = true ↔
      (dataType = some .normalized → ∃ v, value = .number v ∧ -1 ≤ v.val ∧ v.val ≤ 1) := by
  by_cases h : dataType = some .normalized
  · cases value with
    | bool => simp [validateNormalizedValue, h]
    | number v =>
      by_cases hr : -1 ≤ v.val ∧ v.val ≤ 1 <;> simp [validateNormalizedValue, h, hr]
  · simp [validateNormalizedValue, h]

theorem validateBooleanPointValue_iff {dataType : Option DataType} {value : DataValue} :
    (validateBooleanPointValue dataType value).isOk = true ↔
      (dataType = some .singlePoint ∨ dataType = some .doublePoint → ∃ b, value = .bool b) := by
  by_cases h : dataType = some .singlePoint ∨ dataType = some .doublePoint
  · cases value <;> simp [validateBooleanPointValue, h]
  · simp [validateBooleanPointValue, h]

theorem valid_iff : message.Valid ↔ InRange message := by
  rw [validateMessage_isOk_iff, validateIoa_iff, validateCa_iff, validateTimestamp_iff,
    validateNormalizedValue_iff, validateBooleanPointValue_iff]
  exact ⟨fun ⟨h₁, h₂, h₃, h₄, h₅⟩ => ⟨h₁, h₂, h₃, h₄, h₅⟩, fun ⟨h₁, h₂, h₃, h₄, h₅⟩ => ⟨h₁, h₂, h₃, h₄, h₅⟩⟩

/-- The text is JSON that describes the message, and the message is in range. -/
structure Requests (readers : JsonReaders) (text : List UInt8 → Option Json) (bytes : List UInt8)
    (message : Iec104Message) : Prop where
  described : ∃ json members, text bytes = some json ∧ json.asMembers = some members ∧
    Describes readers members message
  inRange : InRange message

theorem requests_iff {text : List UInt8 → Option Json} {bytes : List UInt8} :
    Requests readers text bytes message ↔
      messageParser readers text bytes = some message ∧ message.Valid := by
  rw [messageParser, Option.bind_eq_some_iff, valid_iff]
  constructor
  · rintro ⟨⟨json, members, ht, hm, hd⟩, hr⟩
    exact ⟨⟨json, ht, deserialize_iff_members.mpr ⟨members, hm, hd⟩⟩, hr⟩
  · rintro ⟨⟨json, ht, hd⟩, hr⟩
    obtain ⟨members, hm, hd⟩ := deserialize_iff_members.mp hd
    exact ⟨⟨json, members, ht, hm, hd⟩, hr⟩

theorem except_bind_ok_iff {ε α β : Type} {x : Except ε α} {f : α → Except ε β} {b : β} :
    (x >>= f) = .ok b ↔ ∃ a, x = .ok a ∧ f a = .ok b := by
  cases x <;> simp [bind, Except.bind]

theorem enforceLineSizeLimit_iff {bytes maxLineBytes : Nat} :
    enforceLineSizeLimit bytes maxLineBytes = .ok () ↔ bytes ≤ maxLineBytes := by
  by_cases h : bytes ≤ maxLineBytes
  · simp [enforceLineSizeLimit, payloadExceedsLimit, h, Nat.not_lt.mpr h]
  · simp [enforceLineSizeLimit, payloadExceedsLimit, h, Nat.not_le.mp h]

theorem trimUnixSocketLine_iff {line trimmed : List UInt8} :
    trimUnixSocketLine line = .ok trimmed ↔ trimLineEnd line ≠ [] ∧ trimLineEnd line = trimmed := by
  by_cases h : trimLineEnd line = [] <;> simp [trimUnixSocketLine, h]

theorem parseUnixSocketMessage_iff {parse : Parser} {trimmed : List UInt8} :
    parseUnixSocketMessage parse trimmed = .ok message ↔ parse trimmed = some message := by
  rw [parseUnixSocketMessage]
  cases parse trimmed <;> simp

theorem validateUnixSocketMessage_iff : validateUnixSocketMessage message = .ok () ↔ message.Valid := by
  rw [validateUnixSocketMessage, Iec104Message.Valid]
  cases validateMessage message <;> simp

theorem processUnixSocketLine_iff {parse : Parser} {line : List UInt8} {bytes maxLineBytes : Nat} :
    processUnixSocketLine parse line bytes maxLineBytes = .ok message ↔
      bytes ≤ maxLineBytes ∧ trimLineEnd line ≠ [] ∧ parse (trimLineEnd line) = some message ∧
        message.Valid := by
  rw [processUnixSocketLine, except_bind_ok_iff]
  simp only [except_bind_ok_iff, trimUnixSocketLine_iff, parseUnixSocketMessage_iff]
  constructor
  · rintro ⟨_, hb, _, ⟨hl, rfl⟩, m, hp, _, hv, hm⟩
    cases hm
    exact ⟨enforceLineSizeLimit_iff.mp hb, hl, hp, validateUnixSocketMessage_iff.mp hv⟩
  · rintro ⟨hb, hl, hp, hv⟩
    exact ⟨(), enforceLineSizeLimit_iff.mpr hb, _, ⟨hl, rfl⟩, message, hp, (),
      validateUnixSocketMessage_iff.mpr hv, rfl⟩

theorem decodePayload_iff {parse : Parser} {payload : List UInt8} :
    decodePayload parse payload = some message ↔ parse payload = some message ∧ message.Valid := by
  rw [decodePayload]
  cases hp : parse payload with
  | none => simp
  | some m =>
    rw [Option.some.injEq]
    cases hv : validateMessage m with
    | ok =>
      simp only [hv, Option.some.injEq]
      refine ⟨fun h => ⟨h, ?_⟩, And.left⟩
      rw [Iec104Message.Valid, ← h, hv]
      rfl
    | error e =>
      simp only [hv]
      refine iff_of_false (by simp) ?_
      rintro ⟨rfl, hm⟩
      rw [Iec104Message.Valid, hv] at hm
      cases hm

/-- **Requests.** A line of the Unix socket is forwarded as a message, or a NATS
payload handled as one, if and only if its text describes the message and the
message is in range; a line also has to be within the limit and not blank. -/
theorem requests_accepted_iff (readers : JsonReaders) (text : List UInt8 → Option Json)
    (message : Iec104Message) :
    (∀ line bytes maxLineBytes,
      processUnixSocketLine (messageParser readers text) line bytes maxLineBytes = .ok message ↔
        bytes ≤ maxLineBytes ∧ trimLineEnd line ≠ [] ∧
          Requests readers text (trimLineEnd line) message) ∧
    ∀ payload, decodePayload (messageParser readers text) payload = some message ↔
      Requests readers text payload message :=
  ⟨fun line bytes maxLineBytes => by rw [processUnixSocketLine_iff, requests_iff],
    fun payload => by rw [decodePayload_iff, requests_iff]⟩

end Iec104Bridge
