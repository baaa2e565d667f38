import Iec104Bridge.Framework.Record
import Iec104Bridge.Model.Json
import Iec104Bridge.Model.Line
import Mathlib.Data.Fintype.Defs
import Mathlib.Data.Finset.Dedup

/-!
# The schema of a message (`message.rs`)

What `#[derive(Deserialize)]` makes of the fields of `Iec104Message` and of its
enumerations, with their attributes: from an object, whose unknown names are
ignored, or from an array of the fields in order. How serde_json reads a text
and a number, and how `time` parses an RFC 3339 timestamp, are parameters.
-/

namespace Iec104Bridge

open Framework

/-! ## Enumerations -/

/-- The variants, by their names in `snake_case`. -/
def DataType.variants : List (String × DataType) :=
  [("float", .float), ("scaled", .scaled), ("normalized", .normalized),
    ("single_point", .singlePoint), ("double_point", .doublePoint)]

def QualityField.variants : List (String × QualityField) :=
  [("good", .good), ("invalid", .invalid), ("not_topical", .notTopical),
    ("substituted", .substituted), ("blocked", .blocked), ("overflow", .overflow)]

def CotField.variants : List (String × CotField) :=
  [("spontaneous", .spontaneous), ("periodic", .periodic), ("background_scan", .backgroundScan),
    ("interrogated", .interrogated), ("return_info_remote", .returnInfoRemote),
    ("return_info_local", .returnInfoLocal)]

/-- A unit variant: its name, or an object from its name to `null`. -/
def Json.variant {T : Type} (variants : List (String × T)) : Json → Option T
  | .string name => variants.lookup name
  | .object [(name, .null)] => variants.lookup name
  | _ => none

/-! ## Values -/

/-- `Option<T>`. -/
def Json.optional {T : Type} (read : Json → Option T) : Json → Option (Option T)
  | .null => some none
  | json => (read json).map some

/-- An unsigned integer: digits only, and not more than `max`. -/
def Json.unsigned (max : Nat) : Json → Option Nat
  | .number n =>
    if n.negative = false ∧ n.fraction = none ∧ n.exponent = none ∧ n.integer ≤ max then some n.integer
    else none
  | _ => none

def Json.string? : Json → Option String
  | .string s => some s
  | _ => none

/-- What is not in this repository. -/
structure JsonReaders where
  f64 : JsonNumber → Option F64
  /-- `OffsetDateTime::parse(&value, &Rfc3339)`. -/
  rfc3339 : String → Option OffsetDateTime

def deserializeOptionalTimestamp (readers : JsonReaders) (json : Json) : Option (Option OffsetDateTime) :=
  (Json.optional Json.string? json).bind fun raw =>
    match raw with
    | none => some none
    | some value => (readers.rfc3339 value).map some

/-! ## The message -/

inductive MessageField
  | ioa
  | value
  | dataType
  | ca
  | quality
  | cot
  | timestamp
  deriving DecidableEq

namespace MessageField

/-- The fields in the order of the struct. -/
def order : List MessageField := [.ioa, .value, .dataType, .ca, .quality, .cot, .timestamp]

instance : Fintype MessageField := ⟨order.toFinset, fun field => by cases field <;> decide⟩

abbrev FieldType : MessageField → Type
  | .ioa => UInt32
  | .value => DataValue
  | .dataType => Option DataType
  | .ca => Option UInt16
  | .quality => QualityField
  | .cot => CotField
  | .timestamp => Option OffsetDateTime

def name : MessageField → String
  | .ioa => "ioa"
  | .value => "value"
  | .dataType => "type"
  | .ca => "ca"
  | .quality => "quality"
  | .cot => "cot"
  | .timestamp => "timestamp"

def ofName (name : String) : Option MessageField := order.find? fun field => field.name = name

def read (readers : JsonReaders) : (field : MessageField) → Json → Option field.FieldType
  | .ioa => fun json => (json.unsigned (2 ^ 32 - 1)).map UInt32.ofNat
  | .value => fun json => DataValue.deserialize readers.f64 json.simple
  | .dataType => Json.optional (Json.variant DataType.variants)
  | .ca => Json.optional fun json => (json.unsigned (2 ^ 16 - 1)).map UInt16.ofNat
  | .quality => Json.variant QualityField.variants
  | .cot => Json.variant CotField.variants
  | .timestamp => deserializeOptionalTimestamp readers

/-- `#[serde(default)]`. -/
def default : (field : MessageField) → Option field.FieldType
  | .ioa | .value | .ca => none
  | .dataType | .timestamp => some none
  | .quality => some .good
  | .cot => some .spontaneous

/-- What stands for a field that is not in an object: its default, and `None` for an `Option`. -/
def missing : (field : MessageField) → Option field.FieldType
  | .ca => some none
  | field => field.default

theorem ofName_iff {name : String} {field : MessageField} :
    ofName name = some field ↔ field.name = name := by
  constructor
  · intro h
    simpa using List.find?_some h
  · rintro rfl
    cases field <;> decide +kernel

end MessageField

def messageSchema (readers : JsonReaders) : Schema MessageField String Json MessageField.FieldType where
  name := MessageField.name
  ofName := MessageField.ofName
  ofName_iff := MessageField.ofName_iff
  read := MessageField.read readers
  missing := MessageField.missing
  missingSeq := MessageField.default

/-- The message with these fields. -/
def Iec104Message.ofFields (r : (field : MessageField) → field.FieldType) : Iec104Message where
  ioa := r .ioa
  value := r .value
  dataType := r .dataType
  ca := r .ca
  quality := r .quality
  cot := r .cot
  timestamp := r .timestamp

def Iec104Message.field (message : Iec104Message) : (field : MessageField) → field.FieldType
  | .ioa => message.ioa
  | .value => message.value
  | .dataType => message.dataType
  | .ca => message.ca
  | .quality => message.quality
  | .cot => message.cot
  | .timestamp => message.timestamp

def Iec104Message.deserialize (readers : JsonReaders) : Json → Option Iec104Message
  | .object members => ((messageSchema readers).readMap members).map ofFields
  | .array values => ((messageSchema readers).readSeq MessageField.order values).map ofFields
  | _ => none

/-- `serde_json::from_str` and `from_slice`, from how a text is read as JSON. -/
def messageParser (readers : JsonReaders) (text : List UInt8 → Option Json) : Parser := fun bytes =>
  (text bytes).bind (Iec104Message.deserialize readers)

end Iec104Bridge
